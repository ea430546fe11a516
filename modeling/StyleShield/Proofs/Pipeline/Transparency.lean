import StyleShield.Proofs.Codec
import StyleShield.Proofs.Ignore
import StyleShield.Proofs.Pipeline.Process

/-! Leaving every import alone. A glob that stands for everything takes the shield away: the
compiler is given the text of the file, and its output is put into the result, whatever either
of them holds (`process_eq_of_everything`). It is the text of the result if the codec reads it
back. -/
namespace StyleShield

namespace Pipeline

variable {codecs : Codecs} {p : Pipeline} {f : StyleFile}

theorem ignoresImport_of_everything {c : Compiler} {o : Options} (hp : build codecs (some c) o = .ok p)
    (hall : ∃ g ∈ o.ignores, Text.strip g ∈ Matcher.everything) (t : Text) : p.ignoresImport t = true := by
  obtain ⟨ms, hms, rfl⟩ := build_some_eq_ok_iff.1 hp
  exact Ignore.ignores_of_everything hms hall o.ignorePackages t

theorem callEvents_of_all (h : ∀ t, p.ignoresImport t = true) (s : Text) :
    p.callEvents f s =
      [.logged ⟨.debug, .pipeline, "Shielded 0 import(s) in ".toList ++ f.path.text⟩, .compiled s f.path] := by
  have hz : "Shielded ".toList ++ Text.ofNat 0 ++ " import(s) in ".toList = "Shielded 0 import(s) in ".toList := by
    decide +kernel
  simp only [callEvents, Shield.extract_of_all h, List.length_nil, hz]

theorem finish_of_all (h : ∀ t, p.ignoresImport t = true) (s : Text) :
    p.finish f s = (do
      let compiled ← p.compiler s f.path
      let restored ← Shield.restore compiled [] p.ext
      Run.ofExcept (f.withText p.codecs restored)) := by
  rw [finish, Shield.extract_of_all h]

/-- With a glob that stands for everything, the compiler is called with the text of the file and
nothing else. Its fault is the fault of the run; its output is what the codec writes into the file
that comes out, and what looks like a placeholder in it is only reported. The file has the output
as its text just if the codec reads it back. -/
theorem process_eq_of_everything {c : Compiler} {o : Options} (hp : build codecs (some c) o = .ok p)
    (hall : ∃ g ∈ o.ignores, Text.strip g ∈ Matcher.everything) (hpass : o.passIgnored = false)
    {s : Text} (hs : f.text codecs = .ok s) :
    let call : List Event :=
      [.logged ⟨.debug, .pipeline, "Shielded 0 import(s) in ".toList ++ f.path.text⟩, .compiled s f.path]
    let compiled := c s f.path
    let codec := codecs.named f.encoding
    (∀ e, compiled.result = .error e → p.process f = ⟨call ++ compiled.events, .error e⟩) ∧
    ∀ out b, compiled.result = .ok out → codec.encode out = .ok b →
      (∀ q : Placeholder, q.OccursIn out → q.digits.length ≤ Text.digitLimit) →
      ∃ g : StyleFile, g.path = f.path ∧ g.base = f.base ∧ g.encoding = f.encoding ∧
        g.contents = .buffer b ∧ (g.text codecs = .ok out ↔ codec.ReadsBack out) ∧
        p.process f = ⟨call ++ compiled.events ++ Shield.warnings 0 (Placeholder.lexeme.tokens out),
          .ok (.compiled g)⟩ := by
  intro call compiled codec
  have himport := ignoresImport_of_everything hp hall
  obtain ⟨hc, rfl, hfile⟩ : p.compiler = c ∧ p.codecs = codecs ∧ p.ignoresFile f = false := by
    obtain ⟨ms, -, rfl⟩ := build_some_eq_ok_iff.1 hp
    exact ⟨rfl, rfl, by simp [ignoresFile, hpass]⟩
  have hprocess := process_of_text hfile hs
  rw [transform_eq, callEvents_of_all himport, finish_of_all himport, hc, Run.map_eq] at hprocess
  refine ⟨fun e he => ?_, fun out b hout hb hlong => ?_⟩
  · rw [hprocess, Run.bind_error he]
    rfl
  · have hr : Shield.restore out [] p.ext =
        ⟨Shield.warnings 0 (Placeholder.lexeme.tokens out), .ok out⟩ := Shield.restore_nil hlong
    have hw : f.withText p.codecs out = .ok { f with contents := .buffer b } :=
      StyleFile.withText_eq_ok_iff.2 ⟨b, hb, rfl⟩
    refine ⟨{ f with contents := .buffer b }, rfl, rfl, rfl, rfl, (Codec.readsBack_iff hb).symm, ?_⟩
    rw [hprocess, Run.bind_ok hout, hr, Run.bind_ok rfl, hw]
    simp [Run.ofExcept, Except.map, call, compiled]

/-- A source of imports that globs as such would not match, and an output with imports and
placeholders of its own, in an encoding that writes a mark. -/
theorem process_lookalikes_untouched :
    let o : Options := ⟨["*.less".toList, " **/*\n".toList], false, false, ".css".toList⟩
    let suffix : List Glob.Token := .anyRun :: ".less".toList.map .exactly
    let named : Matcher := ⟨"*.less".toList, [⟨false, .parts [.anyAbove, .segment suffix, .boundary]⟩]⟩
    let all : Matcher := ⟨"**/*".toList, [⟨false, .someChar⟩]⟩
    let c : Compiler := fun source _ => pure (source ++ "css-light0\x7bdisplay:block\x7d@import 'a.less'".toList)
    let p : Pipeline := ⟨.usual, c, [named, all], false, false, ".css".toList⟩
    let s := "@import ''; @import './';\n@import '//a\n/';css-light1\x7bdisplay:block\x7d".toList
    let f : StyleFile := ⟨.ofText "a.less".toList,
      .buffer (Encoding.byteOrderMark ++ Encoding.utf8Bytes s), "utf-8-sig".toList, none⟩
    build .usual (some c) o = .ok p ∧ Event.sources (p.process f).events = [s] ∧
      ∃ g : StyleFile, (p.process f).result = .ok (.compiled g) ∧ g.encoding = "utf-8-sig".toList ∧
        g.text .usual = .ok (s ++ "css-light0\x7bdisplay:block\x7d@import 'a.less'".toList) := by
  intro o suffix named all c p s f
  have hms : Matcher.compileAll o.ignores = .ok p.matchers := by decide +kernel
  have hp : build .usual (some c) o = .ok p := build_some_eq_ok_iff.2 ⟨_, hms, rfl⟩
  have hall : ∃ g ∈ o.ignores, Text.strip g ∈ Matcher.everything :=
    ⟨" **/*\n".toList, by decide +kernel, by decide +kernel⟩
  have hs : f.text .usual = .ok s := by decide +kernel
  let out := s ++ "css-light0\x7bdisplay:block\x7d@import 'a.less'".toList
  have hlong : ∀ q : Placeholder, q.OccursIn out → q.digits.length ≤ Text.digitLimit := by
    simp only [← Placeholder.mem_tokens_iff]
    decide +kernel
  obtain ⟨g, -, -, he, -, ht, hg⟩ :=
    (process_eq_of_everything hp hall rfl hs).2 out _ rfl rfl hlong
  exact ⟨hp, by decide +kernel, g, congrArg Run.result hg, he, ht.2 (Codec.readsBack_utf8Signed out)⟩

/-- An output that spells an escape is not the text of the file it is put into. -/
theorem process_everything_escaped :
    let o : Options := Options.default
    let c : Compiler := Compiler.identity
    let file (s : String) : StyleFile :=
      ⟨.ofText "a.less".toList, .buffer (Encoding.utf8Bytes s.toList), "raw_unicode_escape".toList, none⟩
    let f := file "\\u005cu0041"
    let s := "\\u0041".toList
    let g := file "\\u0041"
    ∃ p, build .usual (some c) o = .ok p ∧ "**/*".toList ∈ o.ignores ∧ o.passIgnored = false ∧
      f.text .usual = .ok s ∧ (c s f.path).result = .ok s ∧ Placeholder.Absent s ∧ (p.process f).result = .ok (.compiled g) ∧
      g.text .usual = .ok ['A'] := by
  intro o c file f s g
  let all : Matcher := ⟨"**/*".toList, [⟨false, .someChar⟩]⟩
  let p : Pipeline := ⟨.usual, c, [all], false, true, []⟩
  have hms : Matcher.compileAll o.ignores = .ok [all] := by decide +kernel
  have hp : build .usual (some c) o = .ok p := build_some_eq_ok_iff.2 ⟨_, hms, rfl⟩
  have ha : Placeholder.Absent s := by
    rw [Placeholder.absent_iff]
    decide +kernel
  exact ⟨p, hp, by decide +kernel, rfl, by decide +kernel, rfl, ha, by decide +kernel, by decide +kernel⟩

end Pipeline
end StyleShield
