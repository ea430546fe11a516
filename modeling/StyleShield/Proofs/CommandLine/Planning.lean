import StyleShield.Proofs.CommandLine.Setup
import StyleShield.Proofs.Targets.Clash

/-! Which inputs a run has and what it plans for them. The inputs fail with a glob that is no pattern, with the
first name that is not there or with the first found file that cannot be read (`readInputs_eq_error_iff`). For
the inputs that are not ignored there is a plan, a refusal or a fault, and each for its own reasons
(`planFor_eq_iff`). -/
namespace StyleShield.CommandLine

variable {w : Workplace} {o : Options} {p : Pipeline} {files : List StyleFile} {f : Fault}

def includesInForce (o : Options) : List Text := Discovery.includesOf (o.includes.map (·.map Given.orEmpty))

/-- Why the inputs of a run cannot be read. -/
inductive InputsFail (w : Workplace) (o : Options) : Fault → Prop
  | pattern {f : Fault} (paths : pathsOf o ≠ []) (h : FailsFirst Glob.Pattern.ofLine? (includesInForce o) f) :
      InputsFail w o f
  | absent {before after : List Text} {raw : Text} (patterns : ∀ f, ¬ FailsFirst Glob.Pattern.ofLine? (includesInForce o) f)
      (paths : pathsOf o = before ++ raw :: after) (there : ∀ r ∈ before, Discovery.IsThere w.tree w.cwd r)
      (gone : ¬ Discovery.IsThere w.tree w.cwd raw) : InputsFail w o (Discovery.absence w.tree w.cwd raw)
  | unreadable {found : List Found} {f : Fault} (h : discovered w o = .ok found)
      (read : FailsFirst (fun x => w.tree.read [] x.path) found f) : InputsFail w o f

/-- The inputs of a run: the standard input if it is named, and what is read from the files that are found. -/
def AreInputs (w : Workplace) (o : Options) (files : List StyleFile) : Prop :=
  ∃ found read, discovered w o = .ok found ∧ List.Forall₂ (IsReadFrom w.tree) found read ∧
    files = standardInputs w o ++ read

theorem bufferAll_eq_error_iff {t : FileTree} {found : List Found} :
    bufferAll t found = .error f ↔ FailsFirst (fun x => t.read [] x.path) found f := by
  refine eq_error_iff_failsFirst (fun e => by simp [bufferAll]) fun x found e => ?_
  rw [bufferAll_cons]
  unfold bufferOf
  cases t.read [] x.path with
  | error e' => simp [Except.bind]
  | ok b => cases bufferAll t found <;> simp [Except.bind, Except.map]

theorem discovered_eq_error_iff : discovered w o = .error f ↔ pathsOf o ≠ [] ∧
    (FailsFirst Glob.Pattern.ofLine? (includesInForce o) f ∨
      (∀ e, ¬ FailsFirst Glob.Pattern.ofLine? (includesInForce o) e) ∧
        ∃ before raw after, pathsOf o = before ++ raw :: after ∧ (∀ r ∈ before, Discovery.IsThere w.tree w.cwd r) ∧
          ¬ Discovery.IsThere w.tree w.cwd raw ∧ f = Discovery.absence w.tree w.cwd raw) := by
  unfold discovered
  by_cases hp : pathsOf o = []
  · simp [hp]
  · rw [if_neg hp, Discovery.find]
    simp only [← Glob.patternsOf_eq_error_iff]
    change (Glob.patternsOf (includesInForce o) >>= _) = _ ↔ _
    cases Glob.patternsOf (includesInForce o) with
    | error e => simp [bind, Except.bind, hp]
    | ok patterns =>
      have hreach := @Discovery.reachAll_eq_error_iff w.tree w.cwd patterns (pathsOf o) f
      simp only [bind_eq_error_iff, Except.ok.injEq, reduceCtorEq, false_or, exists_eq_left', pure, Except.pure,
        and_false, exists_false, or_false, hreach]
      simp [hp]

theorem readInputs_eq_error_iff : readInputs w o = .error f ↔ InputsFail w o f := by
  have hread : readInputs w o = .error f ↔ discovered w o = .error f ∨
      ∃ found, discovered w o = .ok found ∧ bufferAll w.tree found = .error f := by
    rw [readInputs_eq]
    cases discovered w o with
    | error e => simp [Except.bind]
    | ok found => cases h : bufferAll w.tree found <;> simp [Except.bind, Except.map, h]
  rw [hread, discovered_eq_error_iff]
  simp only [bufferAll_eq_error_iff]
  constructor
  · rintro (⟨hp, h | ⟨hpatterns, before, raw, after, hpaths, hthere, hgone, rfl⟩⟩ | ⟨found, hfound, h⟩)
    · exact .pattern hp h
    · exact .absent hpatterns hpaths hthere hgone
    · exact .unreadable hfound h
  · intro h
    cases h with
    | pattern hp h => exact .inl ⟨hp, .inl h⟩
    | absent hpatterns hpaths hthere hgone =>
      exact .inl ⟨by simp [hpaths], .inr ⟨hpatterns, _, _, _, hpaths, hthere, hgone, rfl⟩⟩
    | unreadable h hread => exact .inr ⟨_, h, hread⟩

/-- What is planned for inputs that can be read and are not ignored: jobs, a refusal, or a fault. -/
inductive Planned (o : Options) :
    List StyleFile → Except Fault (Except Refusal (List (StyleFile × Target))) → Prop
  | several {files : List StyleFile} (directory : outputDirOf o = none) (output : o.output ≠ .text Options.standard)
      (h : 1 < files.length) : Planned o files (.ok (.error .severalInputs))
  | noOutput {f : StyleFile} (directory : outputDirOf o = none) (output : o.output = .nothing) :
      Planned o [f] (.error .missingOutput)
  | named {f : StyleFile} {name : Text} (directory : outputDirOf o = none) (output : o.output = .text name)
      (h : name ≠ Options.standard) : Planned o [f] (.ok (.ok [(f, some (.ofText name))]))
  | printed {files : List StyleFile} (directory : outputDirOf o = none)
      (h : o.output = .text Options.standard ∨ files = []) : Planned o files (.ok (.ok (files.map fun f => (f, none))))
  | noName {before after : List StyleFile} {f : StyleFile} {name : Text} (directory : outputDirOf o = some name)
      (named : ∀ g ∈ before, g.relative.names ≠ []) (h : f.relative.names = []) :
      Planned o (before ++ f :: after) (.error (.emptyName f.relative))
  | clash {files : List StyleFile} {name : Text} {xs : List Path} {c : Target.Clash}
      (directory : outputDirOf o = some name) (named : ∀ f ∈ files, f.relative.names ≠ [])
      (outputs : List.Forall₂ (Target.IsOutput (.ofText name)) files xs)
      (h : Target.IsFirstClash [] (files.zip xs) c) : Planned o files (.ok (.error (.clash c)))
  | below {files : List StyleFile} {name : Text} {xs : List Path} (directory : outputDirOf o = some name)
      (named : ∀ f ∈ files, f.relative.names ≠ [])
      (outputs : List.Forall₂ (Target.IsOutput (.ofText name)) files xs) (h : xs.Nodup) :
      Planned o files (.ok (.ok (files.zip (xs.map some))))

theorem planFor_of_targets (hseveral : ¬ (1 < files.length ∧ (outputDirOf o).isNone ∧ o.output ≠ .text Options.standard))
    {targets : List Target} (h : targetsFor o files = .ok targets) :
    planFor o files = .ok (match Target.clash? files targets with
      | some c => .error (.clash c)
      | none => .ok (files.zip targets)) := by
  rw [planFor, if_neg hseveral, h]
  cases hc : Target.clash? files targets <;> simp [bind, Except.bind, pure, Except.pure, hc]

theorem planFor_of_targets_error
    (hseveral : ¬ (1 < files.length ∧ (outputDirOf o).isNone ∧ o.output ≠ .text Options.standard))
    (h : targetsFor o files = .error f) : planFor o files = .error f := by
  rw [planFor, if_neg hseveral, h]
  rfl

theorem planFor_printed (hdir : outputDirOf o = none) (h : o.output = .text Options.standard ∨ files = []) :
    planFor o files = .ok (.ok (files.map fun f => (f, none))) := by
  have htargets : targetsFor o files = .ok (files.map fun _ => none) := by
    rcases h with hout | rfl
    · simp [targetsFor, hdir, hout, Target.assign, Options.standard]
    · cases hout : o.output <;> simp [targetsFor, hdir, hout, Target.assign]
  have hclash : Target.clash? files (files.map fun _ => none) = none := by
    rw [Target.clash?_eq_none_iff (by simp), List.pairwise_map]
    exact List.pairwise_of_forall fun _ _ p hp => by simp at hp
  have hzip : files.zip (files.map fun _ => none) = files.map fun f => (f, (none : Target)) := by
    have hmap := List.zip_map' (l := files) (f := id) (g := fun _ => (none : Target))
    simpa using hmap
  rw [planFor_of_targets ?_ htargets, hclash, hzip]
  rintro ⟨hmany, -, hout⟩
  rcases h with h | rfl
  · exact hout h
  · simp at hmany

theorem planFor_noOutput {f : StyleFile} (hdir : outputDirOf o = none) (hout : o.output = .nothing) :
    planFor o [f] = .error .missingOutput :=
  planFor_of_targets_error (by simp) (by simp [targetsFor, hdir, hout])

theorem planFor_named {f : StyleFile} {name : Text} (hdir : outputDirOf o = none) (hout : o.output = .text name)
    (h : name ≠ Options.standard) : planFor o [f] = .ok (.ok [(f, some (.ofText name))]) := by
  have htargets : targetsFor o [f] = .ok [some (.ofText name)] := by
    have hname : name ≠ ['-'] := h
    simp [targetsFor, hdir, hout, Target.assign, hname]
  rw [planFor_of_targets (by simp) htargets]
  rfl

theorem planFor_below {name : Text} {xs : List Path} (hdir : outputDirOf o = some name)
    (hnamed : ∀ f ∈ files, f.relative.names ≠ []) (houtputs : List.Forall₂ (Target.IsOutput (.ofText name)) files xs) :
    planFor o files = .ok (match Target.clash? files (xs.map some) with
      | some c => .error (.clash c)
      | none => .ok (files.zip (xs.map some))) := by
  refine planFor_of_targets (by simp [hdir]) ?_
  rw [targetsFor_of_outputDir hdir]
  exact Target.allBelow_eq_ok_iff.2 ⟨hnamed, xs, houtputs, rfl⟩

theorem planned_planFor (o : Options) (files : List StyleFile) : Planned o files (planFor o files) := by
  cases hdir : outputDirOf o with
  | some name =>
    cases hbelow : Target.allBelow (.ofText name) files with
    | error e =>
      rw [planFor_of_targets_error (by simp [hdir]) (targetsFor_of_outputDir hdir files ▸ hbelow)]
      obtain ⟨before, f, after, rfl, hnamed, hn, rfl⟩ := Target.allBelow_eq_error_iff.1 hbelow
      exact .noName hdir hnamed hn
    | ok targets =>
      obtain ⟨hnamed, xs, houtputs, rfl⟩ := Target.allBelow_eq_ok_iff.1 hbelow
      rw [planFor_below hdir hnamed houtputs]
      cases hc : Target.clash? files (xs.map some) with
      | some c => exact .clash hdir hnamed houtputs (Target.clash?_eq_some_iff_isFirstClash.1 hc)
      | none => exact .below hdir hnamed houtputs ((Target.clash?_eq_none_iff_nodup houtputs.length_eq.symm).1 hc)
  | none =>
    by_cases hstandard : o.output = .text Options.standard
    · rw [planFor_printed hdir (.inl hstandard)]
      exact .printed hdir (.inl hstandard)
    · match files with
      | [] =>
        rw [planFor_printed hdir (.inr rfl)]
        exact .printed hdir (.inr rfl)
      | [f] =>
        cases hout : o.output with
        | nothing =>
          rw [planFor_noOutput hdir hout]
          exact .noOutput hdir hout
        | text name =>
          have hname : name ≠ Options.standard := fun h => hstandard (h ▸ hout)
          rw [planFor_named hdir hout hname]
          exact .named hdir hout hname
      | f :: g :: files =>
        have hmany : 1 < (f :: g :: files).length := by simp
        rw [planFor_of_several hmany hdir hstandard]
        exact .several hdir hstandard hmany

/-- What is planned, and by which causes. -/
theorem planFor_eq_iff {r : Except Fault (Except Refusal (List (StyleFile × Target)))} :
    planFor o files = r ↔ Planned o files r := by
  constructor
  · rintro rfl
    exact planned_planFor o files
  · intro h
    cases h with
    | several hdir hout h => exact planFor_of_several h hdir hout
    | noOutput hdir hout => exact planFor_noOutput hdir hout
    | named hdir hout h => exact planFor_named hdir hout h
    | printed hdir h => exact planFor_printed hdir h
    | noName hdir hnamed h =>
      refine planFor_of_targets_error (by simp [hdir]) ?_
      rw [targetsFor_of_outputDir hdir]
      exact Target.allBelow_eq_error_iff.2 ⟨_, _, _, rfl, hnamed, h, rfl⟩
    | clash hdir hnamed houtputs h =>
      rw [planFor_below hdir hnamed houtputs, Target.clash?_eq_some_iff_isFirstClash.2 h]
    | below hdir hnamed houtputs h =>
      rw [planFor_below hdir hnamed houtputs, (Target.clash?_eq_none_iff_nodup houtputs.length_eq.symm).2 h]

end StyleShield.CommandLine
