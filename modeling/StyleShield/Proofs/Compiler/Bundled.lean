import StyleShield.CommandLine.Workplace
import StyleShield.Proofs.Codec
import StyleShield.Proofs.Compiler.Command

/-! How the bundled compilers fail. The one that gives the source back does not; a Sass engine may be missing or
complain; a command may not start, may end with a status other than zero, or may write what is no text
(`Toolbox.compilerFor_eq_error_iff`). -/
namespace StyleShield

namespace Compiler.Command

variable {launch : Launcher} {tree : FileTree} {cwd d : Place} {words : List Text} {source : Text} {path : Path}
  {f : Fault}

/-- Words of which none holds a null character. -/
def Clean (words : List Text) : Prop := ∀ w ∈ words, '\x00' ∉ w

/-- Why a command gives no stylesheet that has a directory to start in. -/
inductive FailsIn (launch : Launcher) (d : Place) (words : List Text) (source : Text) (path : Path) : Fault → Prop
  | nullCharacter (h : ¬ Clean words) : FailsIn launch d words source path .nullCharacter
  | notFound (clean : Clean words) (h : launch words d (Encoding.utf8Bytes source) = .error .notFound) :
      FailsIn launch d words source path (.compiler (.notFound (words.headD [])))
  | notStarted {e : SystemError} (clean : Clean words)
      (h : launch words d (Encoding.utf8Bytes source) = .error (.system e)) :
      FailsIn launch d words source path (.system e (words.headD []))
  | exited {done : Finished} (clean : Clean words) (h : launch words d (Encoding.utf8Bytes source) = .ok done)
      (hstatus : done.status ≠ 0) :
      FailsIn launch d words source path
        (.compiler (.exited (Words.join words) path done.status (Encoding.utf8Lossy done.complaint)))
  | undecodable {done : Finished} (clean : Clean words) (h : launch words d (Encoding.utf8Bytes source) = .ok done)
      (hstatus : done.status = 0) (hout : Encoding.utf8Text? done.output = none) :
      FailsIn launch d words source path (.encoding .undecodable)

/-- Why a command gives no stylesheet. -/
inductive Fails (launch : Launcher) (tree : FileTree) (cwd : Place) (words : List Text) (source : Text) (path : Path) :
    Fault → Prop
  | directory (h : tree.locate cwd path.parent = .error .nameTooLong) :
      Fails launch tree cwd words source path (.system .nameTooLong path.parent.text)
  | here {d : Place} {f : Fault} (hd : directoryFor tree cwd path = .ok d) (h : FailsIn launch d words source path f) :
      Fails launch tree cwd words source path f

theorem answer_eq_error_iff {done : Finished} : answer words .utf8 path done = .error f ↔
    (done.status = 0 ∧ Encoding.utf8Text? done.output = none ∧ f = .encoding .undecodable) ∨
      (done.status ≠ 0 ∧
        f = .compiler (.exited (Words.join words) path done.status (Encoding.utf8Lossy done.complaint))) := by
  unfold answer
  by_cases hstatus : done.status = 0
  · rw [if_pos hstatus, Codec.utf8, Codec.strict_decode_eq_error_iff]
    simp [hstatus]
  · have hlossy : Codec.utf8.decodeLossy done.complaint = .ok (Encoding.utf8Lossy done.complaint) := rfl
    rw [if_neg hstatus, hlossy]
    simp [hstatus, eq_comm]

theorem start_of_not_clean {input : Bytes} (hw : words ≠ []) (h : ¬ Clean words) :
    start launch d words input = .error .nullCharacter := by
  obtain ⟨word, rest, rfl⟩ := List.exists_cons_of_ne_nil hw
  rw [Clean, not_forall₂] at h
  obtain ⟨w, hmem, hnull⟩ := h
  have hany : (word :: rest).any (·.contains '\x00') = true :=
    List.any_eq_true.2 ⟨w, hmem, by simpa using hnull⟩
  rw [start, if_pos hany]

theorem start_of_clean {input : Bytes} (hw : words ≠ []) (h : Clean words) :
    start launch d words input = match launch words d input with
      | .ok done => .ok done
      | .error .notFound => .error (.compiler (.notFound (words.headD [])))
      | .error (.system e) => .error (.system e (words.headD [])) := by
  obtain ⟨word, rest, rfl⟩ := List.exists_cons_of_ne_nil hw
  have hany : ¬ (word :: rest).any (·.contains '\x00') = true := by
    rw [List.any_eq_true]
    rintro ⟨w, hmem, hnull⟩
    exact h w hmem (by simpa using hnull)
  rw [start, if_neg hany]
  rfl

theorem failsIn_iff (hw : words ≠ []) :
    (start launch d words (Encoding.utf8Bytes source)).bind (answer words .utf8 path) = .error f ↔
      FailsIn launch d words source path f := by
  constructor
  · intro h
    by_cases hclean : Clean words
    · rw [start_of_clean hw hclean] at h
      split at h
      · rename_i done hl
        rcases answer_eq_error_iff.1 h with ⟨hstatus, hout, rfl⟩ | ⟨hstatus, rfl⟩
        · exact .undecodable hclean hl hstatus hout
        · exact .exited hclean hl hstatus
      · rename_i hl
        obtain rfl := Except.error.inj h
        exact .notFound hclean hl
      · rename_i e hl
        obtain rfl := Except.error.inj h
        exact .notStarted hclean hl
    · rw [start_of_not_clean hw hclean] at h
      obtain rfl := Except.error.inj h
      exact .nullCharacter hclean
  · intro h
    cases h with
    | nullCharacter h => rw [start_of_not_clean hw h]; rfl
    | notFound clean h => rw [start_of_clean hw clean, h]; rfl
    | notStarted clean h => rw [start_of_clean hw clean, h]; rfl
    | exited clean h hstatus =>
      rw [start_of_clean hw clean, h]
      exact answer_eq_error_iff.2 (.inr ⟨hstatus, rfl⟩)
    | undecodable clean h hstatus hout =>
      rw [start_of_clean hw clean, h]
      exact answer_eq_error_iff.2 (.inl ⟨hstatus, hout, rfl⟩)

theorem compiler_eq_error_iff (hw : words ≠ []) : (compiler launch tree cwd words .utf8 source path).result = .error f ↔
    Fails launch tree cwd words source path f := by
  have hthere {d : Place} (hd : directoryFor tree cwd path = .ok d) :
      (compiler launch tree cwd words .utf8 source path).result = .error f ↔ FailsIn launch d words source path f := by
    rw [compiler_of_directory hd]
    exact failsIn_iff hw
  constructor
  · intro h
    cases hd : directoryFor tree cwd path with
    | error e =>
      rw [compiler_of_no_directory hd] at h
      obtain ⟨hlocate, rfl⟩ := FileTree.ask_eq_error_iff.1 hd
      obtain rfl := Except.error.inj h
      exact .directory hlocate
    | ok d => exact .here hd ((hthere hd).1 h)
  · intro h
    cases h with
    | directory h =>
      rw [compiler_of_no_directory (FileTree.ask_eq_error_iff.2 ⟨h, rfl⟩)]
      rfl
    | here hd h => exact (hthere hd).2 h

end Compiler.Command

namespace Toolbox

open Compiler

variable {tools : Toolbox} {cwd : Place} {tree : FileTree} {source : Text} {path : Path} {f : Fault}

/-- Why a bundled compiler gives no stylesheet. -/
inductive Fails (tools : Toolbox) (cwd : Place) (tree : FileTree) (source : Text) (path : Path) : Choice → Fault → Prop
  | noEngine (h : tools.engine? = none) : Fails tools cwd tree source path .sass .missingEngine
  | engine {engine : Sass.Engine} {complaint : Text} (he : tools.engine? = some engine)
      (h : engine (Sass.request Sass.expanded [] source path) = .error complaint) :
      Fails tools cwd tree source path .sass (.compiler (.engine path complaint))
  | command {words : List Text} {f : Fault} (h : Command.Fails (tools.launcher tree) tree cwd words source path f) :
      Fails tools cwd tree source path (.command words) f

theorem sass_eq_error_iff : (Sass.compiler tools.engine? Sass.expanded [] source path).result = .error f ↔
    tools.Fails cwd tree source path .sass f := by
  unfold Sass.compiler
  constructor
  · intro h
    split at h
    · rename_i he
      obtain rfl := Except.error.inj h
      exact .noEngine he
    · rename_i engine he
      split at h
      · cases h
      · rename_i complaint hanswer
        obtain rfl := Except.error.inj h
        exact .engine he hanswer
  · intro h
    cases h with
    | noEngine h => rw [h]; rfl
    | engine he h =>
      rw [he]
      dsimp only
      rw [h]
      rfl

theorem compilerFor_eq_error_iff {choice : Choice} (hchoice : choice ≠ .command []) :
    (tools.compilerFor cwd choice tree source path).result = .error f ↔
      tools.Fails cwd tree source path choice f := by
  cases choice with
  | identity => exact iff_of_false (fun h => by cases h) (fun h => by cases h)
  | sass => exact sass_eq_error_iff
  | command words =>
    have hw : words ≠ [] := fun h => hchoice (congrArg Choice.command h)
    have hcommand := @Command.compiler_eq_error_iff (tools.launcher tree) tree cwd words source path f hw
    exact hcommand.trans ⟨.command, fun h => by cases h with | command h => exact h⟩

end Toolbox
end StyleShield
