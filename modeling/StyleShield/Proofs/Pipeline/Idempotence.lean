import StyleShield.Proofs.Codec
import StyleShield.Proofs.Pipeline.Process
import StyleShield.Proofs.Shield.Rename

/-! Processing twice. Where the compiler gives its source back and the codec reads back what it
writes, what comes out of the pipeline goes through it unchanged: extensions are in force
already, and nothing else is touched. -/
namespace StyleShield

namespace Pipeline

variable {p : Pipeline} {f g : StyleFile}

theorem ignoresFile_of_withText {codecs : Codecs} {s : Text} (h : f.withText codecs s = .ok g) : p.ignoresFile g = p.ignoresFile f := by
  obtain ⟨b, -, rfl⟩ := StyleFile.withText_eq_ok_iff.1 h
  rfl

/-- One pass of the identity compiler puts the extension in force, whatever is ignored. -/
theorem transform_identity_eq_ok_iff (hc : p.compiler = Compiler.identity) {s : Text}
    (ha : Placeholder.Absent s) :
    (p.transform f s).result = .ok g ↔
      (Shield.extract p.ignoresImport s).imports.length ≤ 10 ^ Text.digitLimit ∧
        f.withText p.codecs (Shield.rename p.ignoresImport p.ext s) = .ok g := by
  rw [transform_result_eq_ok_iff, hc]
  constructor
  · rintro ⟨compiled, restored, hi, hr, hg⟩
    obtain rfl : (Shield.extract p.ignoresImport s).text = compiled := Except.ok.inj hi
    have hn := Shield.length_imports_le_of_restore _ _ hr
    rw [Shield.restore_rename ha hn] at hr
    obtain rfl := Except.ok.inj hr
    exact ⟨hn, hg⟩
  · rintro ⟨hn, hg⟩
    exact ⟨_, _, rfl, Shield.restore_rename ha hn, hg⟩

/-- A second pass finds no placeholders either, no more imports than the first, and nothing to do. -/
theorem transform_idempotent (hc : p.compiler = Compiler.identity)
    (hext : p.ext = [] ∨ Statement.Dotted p.ext) {s : Text} (ha : Placeholder.Absent s)
    (hback : (p.codecs.named f.encoding).ReadsBack (Shield.rename p.ignoresImport p.ext s))
    (h : (p.transform f s).result = .ok g) :
    ∃ s', g.text p.codecs = .ok s' ∧ (p.transform g s').result = .ok g := by
  obtain ⟨hn, hw⟩ := (transform_identity_eq_ok_iff hc ha).1 h
  have ha' : Placeholder.Absent (Shield.rename p.ignoresImport p.ext s) :=
    (Shield.alike_rename hext s).absent ha
  have hn' : (Shield.extract p.ignoresImport (Shield.rename p.ignoresImport p.ext s)).imports.length ≤
      10 ^ Text.digitLimit := by
    have hl : (Shield.taken p.ignoresImport (Shield.rename p.ignoresImport p.ext s)).length ≤
        (Shield.taken p.ignoresImport s).length := Shield.length_taken_rename_le hext s
    simp only [Shield.imports_extract, List.length_map] at hn ⊢
    exact hl.trans hn
  have hw' : g.withText p.codecs (Shield.rename p.ignoresImport p.ext (Shield.rename p.ignoresImport p.ext s)) = .ok g := by
    rw [Shield.rename_rename hext]
    exact StyleFile.withText_of_withText hw
  exact ⟨_, StyleFile.text_of_withText hback hw, (transform_identity_eq_ok_iff hc ha').2 ⟨hn', hw'⟩⟩

/-- A file that holds no placeholder comes out of a second pass as it came out of the first, if the
codec reads back the text that the first pass gives: the text of the file, extensions put in force. -/
theorem process_idempotent {codecs : Codecs} {o : Options} (hp : build codecs (some Compiler.identity) o = .ok p)
    (hext : o.ext = [] ∨ Statement.Dotted o.ext) {s : Text} (hs : f.text codecs = .ok s)
    (ha : Placeholder.Absent s)
    (hback : (codecs.named f.encoding).ReadsBack (Shield.rename p.ignoresImport o.ext s))
    {out : Outcome} (hf : (p.process f).result = .ok out) (hg : out.file? f = some g) :
    ∃ out', (p.process g).result = .ok out' ∧ out'.file? g = some g := by
  obtain ⟨hc, rfl, he⟩ : p.compiler = Compiler.identity ∧ p.codecs = codecs ∧ p.ext = o.ext := by
    obtain ⟨ms, -, rfl⟩ := build_some_eq_ok_iff.1 hp
    exact ⟨rfl, rfl, rfl⟩
  rw [← he] at hext hback
  rcases process_result_eq_ok_iff.1 hf with ⟨-, rfl⟩ | ⟨-, -, rfl⟩ | ⟨-, hi, s', g', hs', ht, rfl⟩
  · simp [Outcome.file?] at hg
  · obtain rfl : f = g := Option.some.inj hg
    exact ⟨.passed, hf, rfl⟩
  · obtain rfl : g' = g := Option.some.inj hg
    obtain rfl : s = s' := Except.ok.inj (hs.symm.trans hs')
    obtain ⟨-, hw⟩ := (transform_identity_eq_ok_iff hc ha).1 ht
    obtain ⟨t, htext, ht'⟩ := transform_idempotent hc hext ha hback ht
    have hi' : p.ignoresFile g' = false := (ignoresFile_of_withText hw).trans hi
    have hn' : g'.isNull = false := StyleFile.isNull_of_text htext
    have hout : (p.process g').result = .ok (.compiled g') :=
      process_result_eq_ok_iff.2 (.inr (.inr ⟨hn', hi', t, g', htext, ht', rfl⟩))
    exact ⟨.compiled g', hout, rfl⟩

/-- An import gets an extension that the globs ignore, and is left alone from then on. -/
theorem process_renamed_ignored :
    let o : Options := ⟨["*.css".toList], false, false, ".css".toList⟩
    let suffix : List Glob.Token := .anyRun :: ".css".toList.map .exactly
    let pattern : Glob.Pattern := ⟨false, .parts [.anyAbove, .segment suffix, .boundary]⟩
    let p : Pipeline := ⟨.usual, Compiler.identity, [⟨"*.css".toList, [pattern]⟩], false, false, ".css".toList⟩
    let f : StyleFile :=
      ⟨.ofText "a.less".toList, .buffer (Encoding.utf8Bytes "@import './b.less';".toList), Codec.utf8Name, none⟩
    let g : StyleFile := { f with contents := .buffer (Encoding.utf8Bytes "@import './b.css';".toList) }
    build .usual (some Compiler.identity) o = .ok p ∧ (p.process f).result = .ok (.compiled g) ∧
      p.ignoresImport "./b.less".toList = false ∧ p.ignoresImport "./b.css".toList = true ∧
      ∃ out', (p.process g).result = .ok out' ∧ out'.file? g = some g := by
  intro o suffix pattern p f g
  have hms : Matcher.compileAll o.ignores = .ok p.matchers := by decide +kernel
  have hp : build .usual (some Compiler.identity) o = .ok p := build_some_eq_ok_iff.2 ⟨_, hms, rfl⟩
  have hext : Statement.Dotted o.ext := ⟨"css".toList, by decide +kernel, by decide +kernel, rfl⟩
  have hs : f.text .usual = .ok "@import './b.less';".toList := by decide +kernel
  have ha : Placeholder.Absent "@import './b.less';".toList := by
    rw [Placeholder.absent_iff]
    decide +kernel
  have hf : (p.process f).result = .ok (.compiled g) := by decide +kernel
  refine ⟨hp, hf, by decide +kernel, by decide +kernel, ?_⟩
  exact process_idempotent hp (.inr hext) hs ha (Codec.readsBack_utf8 _) hf rfl

/-- A text that spells an escape is written as it stands and read as the character it spells, so the
second pass gives another file. -/
theorem process_twice_through_escape :
    let o : Options := ⟨[], false, false, []⟩
    let p : Pipeline := ⟨.usual, Compiler.identity, [], false, false, []⟩
    let file (s : String) : StyleFile :=
      ⟨.ofText "a.less".toList, .buffer (Encoding.utf8Bytes s.toList), "raw_unicode_escape".toList, none⟩
    let f := file "\\u005cu0041"
    let g := file "\\u0041"
    build .usual (some Compiler.identity) o = .ok p ∧ f.text .usual = .ok "\\u0041".toList ∧
      Placeholder.Absent "\\u0041".toList ∧ (p.process f).result = .ok (.compiled g) ∧
      (p.process g).result = .ok (.compiled (file "A")) ∧ (file "A").contents ≠ g.contents := by
  intro o p file f g
  refine ⟨rfl, by decide +kernel, ?_, by decide +kernel, by decide +kernel, by decide +kernel⟩
  rw [Placeholder.absent_iff]
  decide +kernel

end Pipeline
end StyleShield
