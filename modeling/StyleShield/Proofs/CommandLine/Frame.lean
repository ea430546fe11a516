import StyleShield.Proofs.CommandLine.Ending

/-! What a run leaves alone. Each step writes at most at its own target, a run writes at most at the
targets of its inputs, and a run that does not get to targets writes nothing. So on a tree without
links all files elsewhere are the same after a run, however it ends, and all directories are still
there (`run_frame`). -/
namespace StyleShield.CommandLine

open FileTree (Grows spot)

variable {w : Workplace} {args : List Text} {o o' : Options} {choice choice' : Compiler.Choice} {p p' : Pipeline}
  {cwd : Place} {t : FileTree} {compilerOn : FileTree → Compiler} {touched : Place → Prop}

section Steps

/-- The place of a target. -/
def IsPlaceOf (cwd : Place) (target : Target) (q : Place) : Prop := ∃ x, target = some x ∧ q = spot cwd x

/-- An output leaves the tree alone or is one write at its target. -/
theorem fst_putOut (cwd : Place) (codecs : Codecs) (t : FileTree) (f : StyleFile) (target : Target) :
    (putOut cwd codecs t f target).1 = t ∨
      ∃ x b, target = some x ∧ (putOut cwd codecs t f target).1 = (t.write cwd x b).1 := by
  cases target with
  | none =>
    left
    cases htext : f.text codecs <;> simp [putOut, htext]
  | some x =>
    cases hbytes : (f.text codecs).bind (codecs.named f.encoding).encode with
    | error e => exact .inl (by simp [putOut, hbytes])
    | ok b =>
      refine .inr ⟨x, b, rfl, ?_⟩
      cases hw : t.write cwd x b with
      | mk t' failure => cases failure <;> simp [putOut, hbytes, hw]

theorem fst_perform (cwd : Place) (p : Pipeline) (compilerOn : FileTree → Compiler) (t : FileTree)
    (job : StyleFile × Target) : (perform cwd p compilerOn t job).1 = t ∨
      ∃ x b, job.2 = some x ∧ (perform cwd p compilerOn t job).1 = (t.write cwd x b).1 := by
  cases hr : ((withTree p compilerOn t).process job.1).result with
  | error e => exact .inl (by simp [perform, hr])
  | ok outcome =>
    cases hf : outcome.file? job.1 with
    | none => exact .inl (by simp [perform, hr, hf])
    | some f => simpa [perform, hr, hf] using fst_putOut cwd p.codecs t f job.2

theorem perform_frame (cwd : Place) (p : Pipeline) (compilerOn : FileTree → Compiler) (ht : t.Regular)
    (job : StyleFile × Target) :
    (perform cwd p compilerOn t job).1.Regular ∧
      Grows (IsPlaceOf cwd job.2) t (perform cwd p compilerOn t job).1 := by
  rcases fst_perform cwd p compilerOn t job with hsame | ⟨x, b, hx, hwrite⟩
  · rw [hsame]
    exact ⟨ht, .refl _ t⟩
  · rw [hwrite]
    obtain ⟨hregular, hgrows⟩ := FileTree.write_frame ht cwd x b
    exact ⟨hregular, hgrows.mono fun q hq => ⟨x, hx, hq⟩⟩

/-- Nor does a run over all inputs change other files than their targets, whether or not it comes to
its end. -/
theorem performAll_frame (ht : t.Regular) {jobs : List (StyleFile × Target)}
    (hjobs : ∀ job ∈ jobs, ∀ q, IsPlaceOf cwd job.2 q → touched q) :
    (performAll cwd p compilerOn t jobs).1.Regular ∧ Grows touched t (performAll cwd p compilerOn t jobs).1 := by
  induction jobs generalizing t with
  | nil => exact ⟨ht, .refl _ t⟩
  | cons job jobs ih =>
    rw [List.forall_mem_cons] at hjobs
    have hfirst := perform_frame cwd p compilerOn ht job
    rw [performAll]
    cases hp : perform cwd p compilerOn t job with
    | mk t₁ r =>
      rw [hp] at hfirst
      have hgrows : Grows touched t t₁ := hfirst.2.mono hjobs.1
      obtain ⟨hregular, hrest⟩ := ih hfirst.1 hjobs.2
      -- A step that fails may have made directories all the same.
      cases hr : r.result with
      | error e => simpa only [hr] using And.intro hfirst.1 hgrows
      | ok u => simpa only [hr] using And.intro hregular (hgrows.trans hrest)

end Steps

theorem Starts.unique (h : Starts w args o choice p) (h' : Starts w args o' choice' p') :
    o = o' ∧ choice = choice' ∧ p = p' := by
  obtain ⟨typed, hargs, -, -, hconf, hbuild⟩ := h
  obtain ⟨typed', hargs', -, -, hconf', hbuild'⟩ := h'
  obtain rfl := Except.ok.inj (hargs.symm.trans hargs')
  obtain rfl := Except.ok.inj (hconf.symm.trans hconf')
  obtain ⟨rfl, rfl⟩ := Prod.mk.inj (Except.ok.inj (hbuild.symm.trans hbuild'))
  exact ⟨rfl, rfl, rfl⟩

theorem tree_of_takes {course : Course} (h : Takes w args course) : (run w args).tree = w.tree ∨
    ∃ o choice p jobs, Starts w args o choice p ∧ (plan w o p).result = .ok (.ok jobs) ∧
      (run w args).tree = (performAll w.cwd p (w.compilerFor choice) w.tree jobs).1 := by
  cases h with
  | stopped h => exact .inl (by simp [run, h])
  | versionShown h hversion => exact .inl (by simp [run, h, hversion])
  | nothingNamed h hversion hfiles => exact .inl (by simp [run, h, hversion, hfiles])
  | settings h hversion hfiles hconf => exact .inl (by simp [run, h, hversion, hfiles, hconf])
  | building h hversion hfiles hconf hbuild => exact .inl (by simp [run, h, hversion, hfiles, hconf, hbuild])
  | refused h hplan =>
    obtain ⟨es, -, -, -, htree⟩ := run_of_starts h
    exact .inl (by rw [htree, work_of_refusal hplan])
  | planning h hplan =>
    obtain ⟨es, -, -, -, htree⟩ := run_of_starts h
    exact .inl (by rw [htree, work_of_error hplan])
  | performing h hplan hperform =>
    obtain ⟨es, -, -, -, htree⟩ := run_of_starts h
    exact .inr ⟨_, _, _, _, h, hplan, by rw [htree, work_of_failure hplan rfl hperform]⟩
  | done h hplan hperform =>
    obtain ⟨es, -, -, -, htree⟩ := run_of_starts h
    exact .inr ⟨_, _, _, _, h, hplan, by rw [htree, work_of_performed hplan rfl hperform]⟩

/-- The places of the targets of a run, if it gets so far as to compute them. -/
def IsTargetPlace (w : Workplace) (args : List Text) (q : Place) : Prop :=
  ∃ o choice p files targets target, Starts w args o choice p ∧ readInputs w o = .ok files ∧
    targetsFor o (wanted p files) = .ok targets ∧ target ∈ targets ∧ IsPlaceOf w.cwd target q

theorem isTargetPlace_of_plan (hs : Starts w args o choice p) {jobs : List (StyleFile × Target)}
    (h : (plan w o p).result = .ok (.ok jobs)) :
    ∀ job ∈ jobs, ∀ q, IsPlaceOf w.cwd job.2 q → IsTargetPlace w args q := by
  obtain ⟨files, hfiles, hfst, htargets⟩ := plan_eq_ok h
  rw [hfst] at htargets
  intro job hjob q hq
  exact ⟨o, choice, p, files, _, job.2, hs, hfiles, htargets, List.mem_map_of_mem hjob, hq⟩

end StyleShield.CommandLine
