import StyleShield.Proofs.Run
import StyleShield.Proofs.Shield.Restore
import StyleShield.Pipeline

/-! What a file comes to. An outcome says by itself which way the file took through the
pipeline (`process_result_eq_ok_iff`), and only a text that is not ignored is given to the
compiler, once (`effects_process`). -/
namespace StyleShield

namespace StyleFile

variable {codecs : Codecs} {f g : StyleFile} {s : Text}

theorem exists_buffer_of_isBuffer (h : f.isBuffer = true) : ∃ b, f.contents = .buffer b := by
  unfold isBuffer at h
  split at h
  · rename_i b hb
    exact ⟨b, hb⟩
  · simp at h

theorem isNull_of_isBuffer (h : f.isBuffer = true) : f.isNull = false := by
  obtain ⟨b, hb⟩ := exists_buffer_of_isBuffer h
  simp [isNull, hb]

theorem isStream_of_isBuffer (h : f.isBuffer = true) : f.isStream = false := by
  obtain ⟨b, hb⟩ := exists_buffer_of_isBuffer h
  simp [isStream, hb]

theorem isBuffer_of_text (h : f.text codecs = .ok s) : f.isBuffer = true := by
  unfold text at h
  split at h
  · rename_i b hb
    simp [isBuffer, hb]
  · simp at h

theorem isNull_of_text (h : f.text codecs = .ok s) : f.isNull = false := isNull_of_isBuffer (isBuffer_of_text h)

theorem isStream_of_text (h : f.text codecs = .ok s) : f.isStream = false :=
  isStream_of_isBuffer (isBuffer_of_text h)

theorem text_of_withText (hback : (codecs.named f.encoding).ReadsBack s) (h : f.withText codecs s = .ok g) :
    g.text codecs = .ok s := by
  obtain ⟨b, hb, rfl⟩ := withText_eq_ok_iff.1 h
  exact hback b hb

theorem withText_of_withText (h : f.withText codecs s = .ok g) : g.withText codecs s = .ok g := by
  obtain ⟨b, hb, rfl⟩ := withText_eq_ok_iff.1 h
  exact withText_eq_ok_iff.2 ⟨b, hb, rfl⟩

end StyleFile

namespace Compiler

/-- A compiler that gives a text and puts nothing out itself. -/
def Quiet (c : Compiler) : Prop := ∀ source path, (c source path).Quiet

theorem quiet_identity : identity.Quiet := fun source _ => Run.quiet_pure source

end Compiler

namespace Pipeline

theorem build_some_eq_ok_iff {codecs : Codecs} {c : Compiler} {o : Options} {p : Pipeline} :
    build codecs (some c) o = .ok p ↔ ∃ ms, Matcher.compileAll o.ignores = .ok ms ∧
      p = ⟨codecs, c, ms, o.passIgnored, o.ignorePackages, o.ext⟩ := by
  simp only [build]
  cases Matcher.compileAll o.ignores with
  | error e => simp [Except.map]
  | ok ms => simp [Except.map, eq_comm]

variable {p : Pipeline} {f g : StyleFile}

def callEvents (p : Pipeline) (f : StyleFile) (source : Text) : List Event :=
  let s := Shield.extract p.ignoresImport source
  [.logged ⟨.debug, .pipeline, "Shielded ".toList ++ Text.ofNat s.imports.length ++ " import(s) in ".toList ++
    f.path.text⟩, .compiled s.text f.path]

/-- The work on a text from the call of the compiler on. -/
def finish (p : Pipeline) (f : StyleFile) (source : Text) : Run StyleFile := do
  let s := Shield.extract p.ignoresImport source
  let compiled ← p.compiler s.text f.path
  let restored ← Shield.restore compiled s.imports p.ext
  Run.ofExcept (f.withText p.codecs restored)

theorem transform_eq (p : Pipeline) (f : StyleFile) (source : Text) :
    p.transform f source =
      ⟨p.callEvents f source ++ (p.finish f source).events, (p.finish f source).result⟩ := rfl

theorem quiet_finish (hc : p.compiler.Quiet) (f : StyleFile) (source : Text) :
    (p.finish f source).Quiet :=
  (hc _ _).bind fun _ => (Shield.quiet_restore _ _ _).bind fun _ => Run.quiet_ofExcept _

theorem transform_result_eq_ok_iff {source : Text} :
    (p.transform f source).result = .ok g ↔
      ∃ compiled restored,
        (p.compiler (Shield.extract p.ignoresImport source).text f.path).result = .ok compiled ∧
        (Shield.restore compiled (Shield.extract p.ignoresImport source).imports p.ext).result = .ok restored ∧
        f.withText p.codecs restored = .ok g := by
  simp only [transform, Run.log, Run.emit_bind, Run.bind_result_eq_ok_iff]
  constructor
  · rintro ⟨compiled, hc, restored, hr, hg⟩
    exact ⟨compiled, restored, hc, hr, hg⟩
  · rintro ⟨compiled, restored, hc, hr, hg⟩
    exact ⟨compiled, hc, restored, hr, hg⟩

theorem process_result_eq_ok_iff {out : Outcome} :
    (p.process f).result = .ok out ↔
      (f.isNull = true ∧ out = .skipped) ∨
      (f.isNull = false ∧ p.ignoresFile f = true ∧ out = .passed) ∨
      (f.isNull = false ∧ p.ignoresFile f = false ∧ ∃ s g, f.text p.codecs = .ok s ∧
        (p.transform f s).result = .ok g ∧ out = .compiled g) := by
  by_cases hn : f.isNull = true
  · rw [process, if_pos hn]
    simp [hn, Run.log, @eq_comm _ out]
  · by_cases hi : p.ignoresFile f = true
    · rw [process, if_neg hn, if_pos hi]
      simp [hn, hi, Run.log, @eq_comm _ out]
    · by_cases hs : f.isStream = true
      · have ht (s : Text) : f.text p.codecs ≠ .ok s := fun ht => by simp [StyleFile.isStream_of_text ht] at hs
        rw [process, if_neg hn, if_neg hi, if_pos hs]
        simp [hn, hi, ht, Run.fail]
      · rw [process, if_neg hn, if_neg hi, if_neg hs, Run.bind_result_eq_ok_iff]
        simp only [map_eq_pure_bind, Run.bind_result_eq_ok_iff]
        simp [hn, hi, Run.ofExcept, @eq_comm _ out]

theorem process_of_isBuffer (hb : f.isBuffer = true) (hi : p.ignoresFile f = false) :
    p.process f = (do
      let source ← Run.ofExcept (f.text p.codecs)
      .compiled <$> p.transform f source) := by
  have hn : ¬ f.isNull = true := by simp [StyleFile.isNull_of_isBuffer hb]
  have hst : ¬ f.isStream = true := by simp [StyleFile.isStream_of_isBuffer hb]
  have hi' : ¬ p.ignoresFile f = true := by simp [hi]
  rw [process, if_neg hn, if_neg hi', if_neg hst]

theorem process_of_text {s : Text} (hi : p.ignoresFile f = false) (hs : f.text p.codecs = .ok s) :
    p.process f = .compiled <$> p.transform f s := by
  rw [process_of_isBuffer (StyleFile.isBuffer_of_text hs) hi, hs, Run.ofExcept_ok_bind]

theorem process_of_isNull (h : f.isNull = true) :
    ∃ r, p.process f = ⟨[.logged r], .ok .skipped⟩ := by
  rw [process, if_pos h]
  exact ⟨_, rfl⟩

theorem process_of_ignored (h : f.isNull = false) (hi : p.ignoresFile f = true) :
    ∃ r, p.process f = ⟨[.logged r], .ok .passed⟩ := by
  rw [process, if_neg (by simp [h]), if_pos hi]
  exact ⟨_, rfl⟩

theorem process_of_unbuffered (h : f.isNull = false) (hi : p.ignoresFile f = false) (hb : f.isBuffer = false) :
    p.process f = Run.fail (.input (if f.isStream then .streaming else .noContents f.path)) := by
  rw [process, if_neg (by simp [h]), if_neg (by simp [hi])]
  cases hc : f.contents with
  | empty => simp [StyleFile.isNull, hc] at h
  | buffer b => simp [StyleFile.isBuffer, hc] at hb
  | stream b => simp [StyleFile.isStream, hc]
  | unreadable s =>
    have hs : f.isStream = false := by simp [StyleFile.isStream, hc]
    have ht : f.text p.codecs = .error (.input (.noContents f.path)) := by simp [StyleFile.text, hc]
    simp [hs, ht]

theorem process_of_undecodable (hb : f.isBuffer = true) (hi : p.ignoresFile f = false) {e : Fault}
    (he : f.text p.codecs = .error e) : p.process f = Run.fail e := by
  rw [process_of_isBuffer hb hi, he, Run.ofExcept_error_bind]

/-- The calls for a file: one if it is not ignored and its bytes are a text. -/
def calls (p : Pipeline) (f : StyleFile) : List Event :=
  if p.ignoresFile f then []
  else match f.text p.codecs with
    | .ok s => [.compiled (Shield.extract p.ignoresImport s).text f.path]
    | .error _ => []

theorem calls_of_unbuffered (hb : f.isBuffer = false) : p.calls f = [] := by
  unfold calls
  split
  · rfl
  · split
    · rename_i s hs
      simp [StyleFile.isBuffer_of_text hs] at hb
    · rfl

/-- Whatever comes after the call, there is one for a text that is not ignored, and none otherwise. -/
theorem effects_process (hc : p.compiler.Quiet) (f : StyleFile) :
    Event.effects (p.process f).events = p.calls f := by
  by_cases hn : f.isNull = true
  · obtain ⟨r, hr⟩ := process_of_isNull (p := p) hn
    have hb : f.isBuffer = false := by
      by_contra hb
      simp [StyleFile.isNull_of_isBuffer (by simpa using hb)] at hn
    rw [hr, calls_of_unbuffered hb]
    rfl
  · rw [Bool.not_eq_true] at hn
    by_cases hi : p.ignoresFile f = true
    · obtain ⟨r, hr⟩ := process_of_ignored hn hi
      rw [hr, calls, if_pos hi]
      rfl
    · rw [Bool.not_eq_true] at hi
      by_cases hb : f.isBuffer = true
      · rw [calls, if_neg (by simp [hi]), process_of_isBuffer hb hi]
        cases hs : f.text p.codecs with
        | error e => rfl
        | ok s =>
          have hquiet : Event.effects (p.finish f s).events = [] := quiet_finish hc f s
          have hcall : Event.effects (p.callEvents f s) =
              [.compiled (Shield.extract p.ignoresImport s).text f.path] := rfl
          simp [Run.map_eq, transform_eq, hquiet, hcall]
      · rw [Bool.not_eq_true] at hb
        rw [process_of_unbuffered hn hi hb, calls_of_unbuffered hb]
        rfl

theorem process_result_of_compiler_error (hi : p.ignoresFile f = false) {s : Text} (hs : f.text p.codecs = .ok s)
    {e : Fault} (he : (p.compiler (Shield.extract p.ignoresImport s).text f.path).result = .error e) :
    (p.process f).result = .error e := by
  rw [process_of_text hi hs, Run.map_eq, transform_eq, finish, Run.bind_error he]
  rfl

end Pipeline
end StyleShield
