import StyleShield.Compiler.Choice
import StyleShield.Compiler.Command
import StyleShield.Proofs.FileTree
import StyleShield.Proofs.Run
import StyleShield.Proofs.Words

/-! The line that a command is shown by. A record names it when the command starts, and a complaint names it
again; written into the settings, it stands for the same command (`shown_line_reads_back`). Only two lines of
a single word stand for other compilers; all others are split, and may fail there (`ofText_eq_error_iff`). -/
namespace StyleShield.Compiler

variable {words : List Text}

namespace Choice

theorem wordsOf_join (h : words ≠ []) : wordsOf (Words.join words) = .ok words := by
  obtain ⟨w, words, rfl⟩ := List.exists_cons_of_ne_nil h
  rw [wordsOf, Words.split_join]

theorem join_eq_iff {name : Text} (hname : name ≠ [] ∧ name.all Words.isSafe = true) :
    Words.join words = name ↔ words = [name] := by
  have hsingle : Words.join [name] = name := by
    rw [Words.join, List.map_cons, List.map_nil, Text.join_singleton, Words.quote, if_pos hname]
  constructor
  · intro h
    have hsplit : Words.split (Words.join words) = Words.split (Words.join [name]) := by rw [h, hsingle]
    rw [Words.split_join, Words.split_join] at hsplit
    exact Except.ok.inj hsplit
  · rintro rfl
    exact hsingle

theorem ofText_join (h : words ≠ []) : ofText (Words.join words) =
    .ok (if words = [identityWord] then identity else if words = [sassWord] then sass else command words) := by
  have hidentity : Words.join words = identityWord ↔ words = [identityWord] := join_eq_iff (by decide)
  have hsass : Words.join words = sassWord ↔ words = [sassWord] := join_eq_iff (by decide)
  unfold ofText
  simp only [(Words.solid_join h).strip_eq, wordsOf_join h, hidentity, hsass]
  split
  · rfl
  · split <;> rfl

/-- The words by which a compiler is chosen that is no command. -/
def reserved : List Text := [identityWord, sassWord]

theorem ofText_eq_error_iff {written : Text} {f : Fault} : ofText written = .error f ↔
    Text.strip written ∉ reserved ∧
      (Words.split (Text.strip written) = .error f ∨
        Words.split (Text.strip written) = .ok [] ∧ f = .settings .emptyCommand) := by
  unfold ofText wordsOf
  dsimp only
  by_cases hidentity : Text.strip written = identityWord
  · simp [hidentity, reserved]
  · by_cases hsass : Text.strip written = sassWord
    · simp [hsass, reserved, identityWord, sassWord]
    · rw [if_neg hidentity, if_neg hsass]
      have hother : Text.strip written ∉ reserved := by simp [reserved, hidentity, hsass]
      cases Words.split (Text.strip written) with
      | error e => simp [Except.map, hother]
      | ok words => cases words <;> simp [Except.map, hother, eq_comm]

theorem ne_command_nil {written : Text} {choice : Choice} (h : ofText written = .ok choice) :
    choice ≠ command [] := by
  rintro rfl
  unfold ofText wordsOf at h
  dsimp only at h
  split at h
  · simp at h
  · split at h
    · simp at h
    · split at h
      · simp [Except.map] at h
      · simp [Except.map] at h
      · rename_i hn _
        exact hn (command.inj (Except.ok.inj h))

end Choice

namespace Command

variable {launch : Launcher} {tree : FileTree} {cwd : Place} {codec : Codec} {source line : Text} {path : Path}

/-- What a command puts on record before it starts. -/
def startRecord (line : Text) (path : Path) : Record :=
  ⟨.debug, .compilers, "Running ".toList ++ line ++ " on ".toList ++ path.text⟩

theorem startRecord_inj {line' : Text} (h : startRecord line path = startRecord line' path) : line = line' := by
  obtain ⟨-, -, hmessage⟩ := Record.mk.inj h
  simpa using hmessage

/-- A fault that names no other line as that of the command that has ended. -/
def Shows (line : Text) (f : Fault) : Prop :=
  ∀ shown path status stderr, f = .compiler (.exited shown path status stderr) → shown = line

theorem compiler_of_no_directory {f : Fault} (h : directoryFor tree cwd path = .error f) :
    compiler launch tree cwd words codec source path = Run.fail f := by
  rw [compiler, h, Run.ofExcept_error_bind]

/-- All that a command does in its directory: one record, and a result from the source, the command and its
answer. -/
theorem compiler_of_directory {d : Place} (h : directoryFor tree cwd path = .ok d) :
    compiler launch tree cwd words codec source path =
      ⟨[.logged (startRecord (Words.join words) path)], do
        let input ← codec.encode source
        let done ← start launch d words input
        answer words codec path done⟩ := by
  rw [compiler, h, Run.ofExcept_ok_bind]
  simp only [Run.ofExcept_bind_ofExcept]
  rfl

theorem start_shows {input : Bytes} {directory : Place} : FailsOnly (Shows line) (start launch directory words input) := by
  unfold start
  split
  · exact .error (by simp [Shows])
  · split
    · exact .error (by simp [Shows])
    · split
      · exact .ok _
      · exact .error (by simp [Shows])
      · exact .error (by simp [Shows])

theorem mapError_shows {α : Type} (x : Except Encoding.Failure α) : FailsOnly (Shows line) (x.mapError .encoding) := by
  cases x with
  | ok a => exact .ok a
  | error e => exact .error (by simp [Shows])

theorem answer_shows {done : Finished} : FailsOnly (Shows (Words.join words)) (answer words codec path done) := by
  unfold answer
  split
  · exact mapError_shows _
  · split
    · rename_i he
      exact .error (mapError_shows _ _ he)
    · refine .error fun shown p status stderr hfault => ?_
      simp only [Fault.compiler.injEq, CompilerFault.exited.injEq] at hfault
      exact hfault.1.symm

theorem compiler_shows :
    FailsOnly (Shows (Words.join words)) (compiler launch tree cwd words codec source path).result := by
  cases hd : directoryFor tree cwd path with
  | error f =>
    obtain ⟨-, rfl⟩ := FileTree.ask_eq_error_iff.1 hd
    rw [compiler_of_no_directory hd]
    exact .error (by simp [Shows])
  | ok d =>
    rw [compiler_of_directory hd]
    exact (mapError_shows _).bind fun input _ => start_shows.bind fun done _ => answer_shows

/-- The line that the record and the complaint of a command show can be written into the settings in its place:
it is read as the same words, which are a command again, unless they are one of the two words that stand
for other compilers. There is no record only where the name of the stylesheet's directory is too long. -/
theorem shown_line_reads_back (h : words ≠ []) (launch : Launcher) (tree : FileTree) (cwd : Place)
    (codec : Codec) (source : Text) (path : Path) : ∃ line,
    (∀ f, directoryFor tree cwd path = .error f → compiler launch tree cwd words codec source path = Run.fail f) ∧
      (∀ d, directoryFor tree cwd path = .ok d →
        (compiler launch tree cwd words codec source path).events = [.logged (startRecord line path)]) ∧
      (∀ shown p status stderr, (compiler launch tree cwd words codec source path).result =
        .error (.compiler (.exited shown p status stderr)) → shown = line) ∧
      Choice.wordsOf line = .ok words ∧
      (Choice.ofText line = .ok (.command words) ↔
        words ≠ [Choice.identityWord] ∧ words ≠ [Choice.sassWord]) := by
  refine ⟨Words.join words, fun f hf => compiler_of_no_directory hf, fun d hd => ?_, ?_, Choice.wordsOf_join h, ?_⟩
  · rw [compiler_of_directory hd]
  · intro shown p status stderr hfault
    exact compiler_shows _ hfault shown p status stderr rfl
  · rw [Choice.ofText_join h, Except.ok.injEq]
    split
    · rename_i hidentity
      simp [hidentity]
    · split
      · rename_i hsass
        simp [hsass]
      · rename_i hidentity hsass
        simp [hidentity, hsass]

/-- An empty word, quotes of both kinds, a backslash, a line end, a wide space and a null character. The command
cannot be started for the last one, but its record shows the line. -/
theorem shown_line_reads_back_hard_words :
    let words : List Text := [['s', 'h'], [], ['\'', '"'], ['\\'], ['\n', 'b'], [Char.ofNat 0xA0, '\x00']]
    let line : Text := "sh '' ''\"'\"'\"' '\\' '\nb' '".toList ++ [Char.ofNat 0xA0, '\x00', '\'']
    let path : Path := .ofText "m.less".toList
    let run := compiler (fun _ _ _ => .error .notFound) ⟨[]⟩ [] words .utf8 ['a'] path
    words ≠ [] ∧ run.result = .error .nullCharacter ∧ run.events = [.logged (startRecord line path)] ∧
      Choice.wordsOf line = .ok words ∧ Choice.ofText line = .ok (.command words) := by
  intro words line path run
  have hne : words ≠ [] := List.cons_ne_nil _ _
  have hdirectory : directoryFor ⟨[]⟩ [] path = .ok [] := by cbv
  have hrun : run = _ := compiler_of_directory hdirectory
  have hline : Words.join words = line := by decide +kernel
  have hevents : run.events = [.logged (startRecord line path)] := by rw [hrun, hline]
  obtain ⟨shown, -, hshown, -, hwords, hcommand⟩ :=
    shown_line_reads_back hne (fun _ _ _ => .error .notFound) ⟨[]⟩ [] .utf8 ['a'] path
  obtain rfl : shown = line := startRecord_inj (by simpa using (hshown _ hdirectory).symm.trans hevents)
  exact ⟨hne, by rw [hrun]; rfl, hevents, hwords, hcommand.2 (by decide)⟩

end Command
end StyleShield.Compiler
