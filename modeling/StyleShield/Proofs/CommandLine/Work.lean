import StyleShield.Proofs.CommandLine.Planning
import StyleShield.Proofs.CommandLine.Trace
import StyleShield.Proofs.Compiler.Bundled
import StyleShield.Proofs.Shield.Limit

/-! Why the work of a run fails. An input is no text, its compiler fails, or what is compiled holds a rule with
too many digits (`process_eq_error_iff`); or its output cannot be written. The jobs before it are done, and
those after it are not begun (`performAll_eq_error_iff`). Of the faults that this makes, some are reported and
the others escape (`WorkFails.isWorkFault`). -/
namespace StyleShield

/-- Faults of the work that the command line does not report. -/
inductive EscapesWork : Fault → Prop
  | pattern {f : Fault} (h : Glob.IsPatternFault f) : EscapesWork f
  | missingOutput : EscapesWork .missingOutput
  | missingEngine : EscapesWork .missingEngine
  | undecodable : EscapesWork (.encoding .undecodable)
  | digitLimit {n : Nat} (h : Text.digitLimit < n) : EscapesWork (.digitLimit n)
  | nullCharacter : EscapesWork .nullCharacter
  | emptyName (path : Path) : EscapesWork (.emptyName path)

/-- Faults of the work that the command line reports. -/
def IsWorkFailure (f : Fault) : Prop := (∃ c, f = .compiler c) ∨ f.isSystem = true

def IsWorkFault (f : Fault) : Prop := IsWorkFailure f ∨ EscapesWork f

theorem EscapesWork.not_reported {f : Fault} (h : EscapesWork f) : (f.isOwn || f.isSystem) = false := by
  cases h with
  | pattern h => cases h <;> rfl
  | _ => rfl

theorem IsWorkFailure.reported {f : Fault} (h : IsWorkFailure f) : (f.isOwn || f.isSystem) = true := by
  rcases h with ⟨c, rfl⟩ | h
  · rfl
  · rw [h, Bool.or_true]

theorem IsWorkFault.ofSystem {f : Fault} (h : f.isSystem = true) : IsWorkFault f := .inl (.inr h)

/-- A write fails in the file system, or because its target has no name or none that can be. -/
theorem FileTree.isWorkFault_of_write {t t' : FileTree} {cwd : Place} {x : Path} {b : Bytes} {f : Fault}
    (h : t.write cwd x b = (t', some f)) : IsWorkFault f := by
  unfold write at h
  split at h
  · simp at h
  · split at h
    · exact Option.some.inj (Prod.mk.inj h).2 ▸ .inr (.emptyName x)
    · split at h
      · exact Option.some.inj (Prod.mk.inj h).2 ▸ .inr .nullCharacter
      · split at h
        rename_i t₁ failure he
        cases failure with
        | some e =>
          obtain rfl := Option.some.inj (Prod.mk.inj h).2
          exact .ofSystem (isSystem_of_ensureDirectories he)
        | none =>
          dsimp only at h
          split at h
          · exact Option.some.inj (Prod.mk.inj h).2 ▸ .ofSystem rfl
          · split at h
            · exact Option.some.inj (Prod.mk.inj h).2 ▸ .ofSystem rfl
            · split at h
              · simp at h
              · exact Option.some.inj (Prod.mk.inj h).2 ▸ .ofSystem rfl

namespace Compiler

theorem Command.FailsIn.isWorkFault {launch : Command.Launcher} {d : Place} {words : List Text} {source : Text}
    {path : Path} {f : Fault} (h : Command.FailsIn launch d words source path f) : IsWorkFault f := by
  cases h with
  | nullCharacter h => exact .inr .nullCharacter
  | notFound clean h => exact .inl (.inl ⟨_, rfl⟩)
  | notStarted clean h => exact .ofSystem rfl
  | exited clean h hstatus => exact .inl (.inl ⟨_, rfl⟩)
  | undecodable clean h hstatus hout => exact .inr .undecodable

end Compiler

theorem Toolbox.Fails.isWorkFault {tools : Toolbox} {cwd : Place} {tree : FileTree} {source : Text} {path : Path}
    {choice : Compiler.Choice} {f : Fault} (h : tools.Fails cwd tree source path choice f) : IsWorkFault f := by
  cases h with
  | noEngine h => exact .inr .missingEngine
  | engine he h => exact .inl (.inl ⟨_, rfl⟩)
  | command h =>
    cases h with
    | directory h => exact .ofSystem rfl
    | here hd h => exact h.isWorkFault

namespace CommandLine

variable {w : Workplace} {args : List Text} {cwd : Place} {p : Pipeline} {compilerOn : FileTree → Compiler}
  {t t₁ t' : FileTree} {f : StyleFile} {job : StyleFile × Target} {jobs before : List (StyleFile × Target)} {e : Fault}

/-- Why an input is not processed. -/
inductive ProcessFails (p : Pipeline) (f : StyleFile) : Fault → Prop
  | undecodable {b : Bytes} (contents : f.contents = .buffer b) (h : Encoding.utf8Text? b = none) :
      ProcessFails p f (.encoding .undecodable)
  | compiler {source : Text} {e : Fault} (read : f.text p.codecs = .ok source)
      (h : (p.compiler (Shield.extract p.ignoresImport source).text f.path).result = .error e) : ProcessFails p f e
  | overlong {source compiled : Text} {before after : List Placeholder} {q : Placeholder}
      (read : f.text p.codecs = .ok source)
      (compiles : (p.compiler (Shield.extract p.ignoresImport source).text f.path).result = .ok compiled)
      (tokens : Placeholder.lexeme.tokens compiled = before ++ q :: after)
      (short : ∀ r ∈ before, r.digits.length ≤ Text.digitLimit) (long : Text.digitLimit < q.digits.length) :
      ProcessFails p f (.digitLimit q.digits.length)

/-- Why an input is not put out. -/
inductive JobFails (cwd : Place) (p : Pipeline) (t : FileTree) : StyleFile × Target → Fault → Prop
  | processing {f : StyleFile} {target : Target} {e : Fault} (h : ProcessFails p f e) : JobFails cwd p t (f, target) e
  | writing {d : Delivery} {path : Path} {e : Fault} {t' : FileTree} (made : d.IsMade p)
      (target : d.target = some path) (h : t.write cwd path (Encoding.utf8Bytes d.text) = (t', some e)) :
      JobFails cwd p t d.job e

/-- Jobs that are done one after another, each with the compiler as it is on the tree at that time. -/
inductive Done (cwd : Place) (p : Pipeline) (compilerOn : FileTree → Compiler) :
    FileTree → List (StyleFile × Target) → FileTree → Prop
  | nil (t : FileTree) : Done cwd p compilerOn t [] t
  | cons {t t₁ t₂ : FileTree} {d : Delivery} {jobs : List (StyleFile × Target)}
      (made : d.IsMade (withTree p compilerOn t)) (lands : d.Lands cwd t t₁)
      (rest : Done cwd p compilerOn t₁ jobs t₂) : Done cwd p compilerOn t (d.job :: jobs) t₂

section Steps

theorem text_eq_error_iff (hf : IsInput p f) : f.text p.codecs = .error e ↔
    ∃ b, f.contents = .buffer b ∧ Encoding.utf8Text? b = none ∧ e = .encoding .undecodable := by
  obtain ⟨b, hb⟩ := StyleFile.exists_buffer_of_isBuffer hf.buffered
  simp only [StyleFile.text, hb, hf.encoding, Codecs.named_utf8, Codec.utf8, Codec.strict_decode_eq_error_iff,
    Contents.buffer.injEq, exists_eq_left']

theorem finish_eq_error_iff (hf : IsInput p f) {source : Text} : (p.finish f source).result = .error e ↔
    (p.compiler (Shield.extract p.ignoresImport source).text f.path).result = .error e ∨
    ∃ compiled, (p.compiler (Shield.extract p.ignoresImport source).text f.path).result = .ok compiled ∧
      (Shield.restore compiled (Shield.extract p.ignoresImport source).imports p.ext).result = .error e := by
  have hwrite (restored : Text) : (Run.ofExcept (f.withText p.codecs restored)).result ≠ .error e := by
    simp [Run.ofExcept, StyleFile.withText, hf.encoding]
  simp only [Pipeline.finish, Run.bind_result_eq, bind_eq_error_iff, hwrite, and_false, exists_false, or_false]

theorem process_eq_error_iff (hf : IsInput p f) : (p.process f).result = .error e ↔ ProcessFails p f e := by
  have hprocess : (p.process f).result = .error e ↔ f.text p.codecs = .error e ∨
      ∃ source, f.text p.codecs = .ok source ∧ (p.finish f source).result = .error e := by
    rw [Pipeline.process_of_isBuffer hf.buffered hf.wanted, Run.bind_result_eq, bind_eq_error_iff]
    have hmap (source : Text) : (Pipeline.Outcome.compiled <$> p.transform f source).result = .error e ↔
        (p.finish f source).result = .error e := by
      rw [Run.map_eq, Pipeline.transform_eq]
      cases (p.finish f source).result <;> simp [Except.map]
    simp only [hmap]
    rfl
  rw [hprocess]
  simp only [finish_eq_error_iff hf, text_eq_error_iff hf, Shield.restore_result_eq_error_iff]
  constructor
  · rintro (⟨b, hb, hnone, rfl⟩ | ⟨source, hs, hc | ⟨compiled, hc, before, q, after, htokens, hshort, hlong, rfl⟩⟩)
    · exact .undecodable hb hnone
    · exact .compiler hs hc
    · exact .overlong hs hc htokens hshort hlong
  · intro h
    cases h with
    | undecodable hb hnone => exact .inl ⟨_, hb, hnone, rfl⟩
    | compiler hs hc => exact .inr ⟨_, hs, .inl hc⟩
    | overlong hs hc htokens hshort hlong => exact .inr ⟨_, hs, .inr ⟨_, hc, _, _, _, htokens, hshort, hlong, rfl⟩⟩

theorem jobFails_iff (hf : IsInput p job.1) : JobFails cwd p t job e ↔ ∃ t', Fails cwd p t job e t' := by
  constructor
  · intro h
    cases h with
    | processing h => exact ⟨t, .processing ((process_eq_error_iff hf).2 h)⟩
    | writing made htarget h => exact ⟨_, .writing made htarget h⟩
  · rintro ⟨t', h⟩
    cases h with
    | processing h => exact .processing ((process_eq_error_iff hf).1 h)
    | writing made htarget h => exact .writing made htarget h

theorem IsInput.withTree (hf : IsInput p f) (compilerOn : FileTree → Compiler) (t : FileTree) :
    IsInput (withTree p compilerOn t) f := ⟨hf.buffered, hf.encoding, hf.wanted⟩

/-- A step sees no tree but the one before it. -/
theorem perform_withTree (cwd : Place) (p : Pipeline) (compilerOn : FileTree → Compiler) (t : FileTree)
    (job : StyleFile × Target) : perform cwd p compilerOn t job =
      perform cwd (withTree p compilerOn t) (fun _ => (withTree p compilerOn t).compiler) t job := by
  rw [perform, perform]
  rfl

theorem performAll_append (hf : ∀ job ∈ before, IsInput p job.1) (h : Done cwd p compilerOn t before t₁)
    (later : List (StyleFile × Target)) : (performAll cwd p compilerOn t (before ++ later)).2.result =
      (performAll cwd p compilerOn t₁ later).2.result := by
  -- The compiler of a job looks at the tree that the jobs before it left.
  induction h with
  | nil t => rfl
  | @cons t t₁ t₂ d jobs made lands rest ih =>
    rw [List.forall_mem_cons] at hf
    rw [List.cons_append, performAll, perform_withTree, perform_of_lands (hf.1.withTree compilerOn t) made lands]
    exact ih hf.2

theorem performAll_of_jobFails (hf : IsInput p job.1) (h : JobFails cwd (withTree p compilerOn t) t job e)
    (after : List (StyleFile × Target)) : (performAll cwd p compilerOn t (job :: after)).2.result = .error e := by
  obtain ⟨t', hfails⟩ := (jobFails_iff (hf.withTree compilerOn t)).1 h
  rw [performAll, perform_withTree, perform_of_fails (hf.withTree compilerOn t) hfails]

/-- Either all jobs are done or one of them fails when those before it are done. -/
theorem done_or_fails (hf : ∀ job ∈ jobs, IsInput p job.1) (cwd : Place) (compilerOn : FileTree → Compiler)
    (t : FileTree) : (∃ t', Done cwd p compilerOn t jobs t') ∨
      ∃ before job after t₁ e, jobs = before ++ job :: after ∧ Done cwd p compilerOn t before t₁ ∧
        JobFails cwd (withTree p compilerOn t₁) t₁ job e := by
  -- Each job leaves another tree to the next one, so the induction is over all trees.
  induction jobs generalizing t with
  | nil => exact .inl ⟨t, .nil t⟩
  | cons job jobs ih =>
    rw [List.forall_mem_cons] at hf
    have hinput := hf.1.withTree compilerOn t
    rcases lands_or_fails hinput cwd t with ⟨d, t₁, rfl, hmade, hlands⟩ | ⟨e, t', hfails⟩
    · rcases ih hf.2 t₁ with ⟨t', hdone⟩ | ⟨before, job, after, t₂, e, rfl, hdone, hjob⟩
      · exact .inl ⟨t', .cons hmade hlands hdone⟩
      · exact .inr ⟨d.job :: before, job, after, t₂, e, rfl, .cons hmade hlands hdone, hjob⟩
    · exact .inr ⟨[], job, jobs, t, e, rfl, .nil t, (jobFails_iff hinput).2 ⟨t', hfails⟩⟩

theorem performAll_of_done (hf : ∀ job ∈ jobs, IsInput p job.1) (h : Done cwd p compilerOn t jobs t') :
    (performAll cwd p compilerOn t jobs).2.result = .ok () := by
  have hall := performAll_append hf h []
  rw [List.append_nil] at hall
  exact hall

theorem performAll_of_fails {after : List (StyleFile × Target)}
    (hf : ∀ job' ∈ before ++ job :: after, IsInput p job'.1) (hdone : Done cwd p compilerOn t before t₁)
    (h : JobFails cwd (withTree p compilerOn t₁) t₁ job e) :
    (performAll cwd p compilerOn t (before ++ job :: after)).2.result = .error e := by
  rw [List.forall_mem_append, List.forall_mem_cons] at hf
  rw [performAll_append hf.1 hdone, performAll_of_jobFails hf.2.1 h]

theorem performAll_eq_ok_iff (hf : ∀ job ∈ jobs, IsInput p job.1) :
    (performAll cwd p compilerOn t jobs).2.result = .ok () ↔ ∃ t', Done cwd p compilerOn t jobs t' := by
  refine ⟨fun h => ?_, fun ⟨_, hdone⟩ => performAll_of_done hf hdone⟩
  rcases done_or_fails hf cwd compilerOn t with hdone | ⟨before, job, after, t₁, e, rfl, hdone, hjob⟩
  · exact hdone
  · simp [performAll_of_fails hf hdone hjob] at h

theorem performAll_eq_error_iff (hf : ∀ job ∈ jobs, IsInput p job.1) :
    (performAll cwd p compilerOn t jobs).2.result = .error e ↔
      ∃ before job after t₁, jobs = before ++ job :: after ∧ Done cwd p compilerOn t before t₁ ∧
        JobFails cwd (withTree p compilerOn t₁) t₁ job e := by
  constructor
  · intro h
    rcases done_or_fails hf cwd compilerOn t with ⟨t', hdone⟩ | ⟨before, job, after, t₁, e', rfl, hdone, hjob⟩
    · simp [performAll_of_done hf hdone] at h
    · obtain rfl := Except.error.inj ((performAll_of_fails hf hdone hjob).symm.trans h)
      exact ⟨before, job, after, t₁, rfl, hdone, hjob⟩
  · rintro ⟨before, job, after, t₁, rfl, hdone, hjob⟩
    exact performAll_of_fails hf hdone hjob

end Steps

section Runs

variable {o : Options} {choice : Compiler.Choice} {files : List StyleFile}

/-- A run refuses inputs that it can read. -/
inductive Refused (w : Workplace) (args : List Text) : Refusal → Prop
  | mk {o : Options} {choice : Compiler.Choice} {p : Pipeline} {files : List StyleFile} {r : Refusal}
      (ready : Ready w args o choice p) (read : AreInputs w o files)
      (planned : Planned o (wanted p files) (.ok (.error r))) : Refused w args r

/-- Why the work of a run that is set up fails. -/
inductive WorkFails (w : Workplace) (args : List Text) : Fault → Prop
  | inputs {o : Options} {choice : Compiler.Choice} {p : Pipeline} {f : Fault} (ready : Ready w args o choice p)
      (h : InputsFail w o f) : WorkFails w args f
  | targets {o : Options} {choice : Compiler.Choice} {p : Pipeline} {files : List StyleFile} {f : Fault}
      (ready : Ready w args o choice p) (read : AreInputs w o files) (h : Planned o (wanted p files) (.error f)) :
      WorkFails w args f
  | job {o : Options} {choice : Compiler.Choice} {p : Pipeline} {files : List StyleFile}
      {before after : List (StyleFile × Target)} {job : StyleFile × Target} {t : FileTree} {f : Fault}
      (ready : Ready w args o choice p) (read : AreInputs w o files)
      (planned : Planned o (wanted p files) (.ok (.ok (before ++ job :: after))))
      (done : Done w.cwd p (w.compilerFor choice) w.tree before t)
      (h : JobFails w.cwd (withTree p (w.compilerFor choice) t) t job f) : WorkFails w args f

/-- All that a run has planned is done. -/
inductive Succeeds (w : Workplace) (args : List Text) : Prop
  | mk {o : Options} {choice : Compiler.Choice} {p : Pipeline} {files : List StyleFile}
      {jobs : List (StyleFile × Target)} {t : FileTree} (ready : Ready w args o choice p) (read : AreInputs w o files)
      (planned : Planned o (wanted p files) (.ok (.ok jobs)))
      (done : Done w.cwd p (w.compilerFor choice) w.tree jobs t) : Succeeds w args

theorem plan_eq_error_iff : (plan w o p).result = .error e ↔
    InputsFail w o e ∨ ∃ files, AreInputs w o files ∧ Planned o (wanted p files) (.error e) := by
  rw [← readInputs_eq_error_iff]
  simp only [AreInputs, ← readInputs_eq_ok_iff, ← planFor_eq_iff]
  cases hread : readInputs w o with
  | error e' => simp [plan_of_error hread, Run.fail]
  | ok files => simp [plan_result hread]

theorem plan_eq_ok_iff {planned : Except Refusal (List (StyleFile × Target))} :
    (plan w o p).result = .ok planned ↔
      ∃ files, AreInputs w o files ∧ Planned o (wanted p files) (.ok planned) := by
  simp only [AreInputs, ← readInputs_eq_ok_iff, ← planFor_eq_iff]
  cases hread : readInputs w o with
  | error e' => simp [plan_of_error hread, Run.fail]
  | ok files => simp [plan_result hread]

theorem choice_of_ready (h : Ready w args o choice p) : choice ≠ .command [] := by
  cases h with
  | mk asks inForce named chosen globs given => exact Compiler.Choice.ne_command_nil chosen

theorem InputsFail.isWorkFault (h : InputsFail w o e) : IsWorkFault e := by
  cases h with
  | pattern paths h =>
    obtain ⟨-, line, -, -, -, hline⟩ := h
    exact .inr (.pattern (Glob.ofLine?_failsOnly line _ hline))
  | absent patterns paths there gone => exact .ofSystem (Discovery.isSystem_absence _ _ _)
  | unreadable h hread =>
    obtain ⟨-, x, -, -, -, hx⟩ := hread
    exact .ofSystem (isSystem_of_read_error hx)

theorem Planned.isWorkFault (h : Planned o files (.error e)) : IsWorkFault e := by
  cases h with
  | noOutput hdir hout => exact .inr .missingOutput
  | noName hdir hnamed h => exact .inr (.emptyName _)

theorem JobFails.isWorkFault (h : JobFails cwd p t job e)
    (hc : ∀ source path e, (p.compiler source path).result = .error e → IsWorkFault e) : IsWorkFault e := by
  cases h with
  | processing h =>
    cases h with
    | undecodable hb hnone => exact .inr .undecodable
    | compiler hs h => exact hc _ _ _ h
    | overlong hs h htokens hshort hlong => exact .inr (.digitLimit hlong)
  | writing made htarget h => exact FileTree.isWorkFault_of_write h

/-- With the bundled compilers the work fails for a compiler or the file system, or in one of a few other ways. -/
theorem WorkFails.isWorkFault {tools : Toolbox} (hw : w.compilerFor = tools.compilerFor w.cwd)
    (h : WorkFails w args e) : IsWorkFault e := by
  cases h with
  | inputs ready h => exact h.isWorkFault
  | targets ready read h => exact h.isWorkFault
  | @job o choice p files before after job t f ready read planned done h =>
    refine h.isWorkFault fun source path e' he => ?_
    have hcompiler : (tools.compilerFor w.cwd choice t source path).result = .error e' := hw ▸ he
    exact ((Toolbox.compilerFor_eq_error_iff (choice_of_ready ready)).1 hcompiler).isWorkFault

end Runs

end CommandLine
end StyleShield
