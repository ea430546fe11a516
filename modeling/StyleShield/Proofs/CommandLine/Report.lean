import StyleShield.CommandLine.Report
import StyleShield.Proofs.CommandLine.Inputs

/-! Runs that fail early. A run that returns 1, or that cannot find or read an input, has called no
compiler, has printed nothing and leaves the tree as it was (`run_inert`). -/
namespace StyleShield.CommandLine

variable {w : Workplace} {args : List Text} {o : Options} {choice : Compiler.Choice} {p : Pipeline}

/-- Arguments, settings and compiler are accepted, so the run gets to its inputs. -/
def Starts (w : Workplace) (args : List Text) (o : Options) (choice : Compiler.Choice) (p : Pipeline) : Prop :=
  ∃ typed, Options.ofArguments args = .ok typed ∧ typed.options.version = false ∧ typed.options.files ≠ [] ∧
    (configure w typed).result = .ok o ∧ buildPipeline w o = .ok (choice, p)

/-- Nothing is compiled, printed or written. -/
structure Report.Inert (t : FileTree) (r : Report) : Prop where
  effects : Event.effects r.events = []
  printed : r.printed = []
  tree : r.tree = t

theorem quiet_configure (w : Workplace) (typed : Options.Typed) : (configure w typed).Quiet := by
  refine (Run.quiet_ofExcept _).bind fun found => ?_
  cases found with
  | none => exact Run.quiet_pure _
  | some q => exact (Run.quiet_log _ _ _).bind fun _ => (Run.quiet_ofExcept _).bind fun _ => Run.quiet_pure _

theorem effects_endSetup (o : Options) (e : Fault) : Event.effects (endSetup o e).2 = [] := by
  unfold endSetup
  split
  · split <;> rfl
  · rfl

theorem effects_endWork (e : Fault) : Event.effects (endWork e).2 = [] := by
  have hstderr : Event.effects (stderrOf e) = [] := by
    unfold stderrOf
    split
    · split <;> rfl
    · rfl
  unfold endWork
  split
  · simpa using hstderr
  · split <;> rfl

theorem ending_endWork (e : Fault) :
    (endWork e).1 = if e.isOwn || e.isSystem then .returned 2 else .escaped e := by
  unfold endWork
  cases e.isOwn <;> cases e.isSystem <;> rfl

theorem Report.printed_eq {r : Report} (hr : ∀ s, r.ending ≠ .stopped s) :
    r.printed = (Event.effects r.events).flatMap fun
      | .printed s => s
      | _ => [] := by
  unfold Report.printed
  split
  · rename_i s hs
    exact absurd hs (hr s)
  · refine (Event.flatMap_effects (fun e he => ?_) r.events).symm
    cases e <;> simp [Event.isEffect] at he ⊢

theorem Report.printed_of_effects {r : Report} (h : Event.effects r.events = [])
    (hr : ∀ s, r.ending ≠ .stopped s) : r.printed = [] := by
  rw [Report.printed_eq hr, h]
  rfl

theorem buildPipeline_eq_ok_iff : buildPipeline w o = .ok (choice, p) ↔
    ∃ name, namedCompiler o = some name ∧ Compiler.Choice.ofText name = .ok choice ∧
      Pipeline.build .usual (some (w.compilerFor choice w.tree)) (pipelineOptions o) = .ok p ∧ .nothing ∉ o.ignores := by
  unfold buildPipeline
  cases namedCompiler o with
  | none => simp
  | some name =>
    simp only [bind_eq_ok_iff, Option.some.injEq, exists_eq_left']
    constructor
    · rintro ⟨choice, hchoice, built, hbuilt, h⟩
      split at h
      · simp at h
      · rename_i hn
        obtain ⟨rfl, rfl⟩ := Prod.mk.inj (Except.ok.inj h)
        exact ⟨hchoice, hbuilt, hn⟩
    · rintro ⟨hchoice, hbuilt, hn⟩
      exact ⟨choice, hchoice, p, hbuilt, if_neg hn⟩

/-- What a run that starts adds to its work is not seen from outside. -/
theorem run_of_starts (h : Starts w args o choice p) : ∃ es, Event.effects es = [] ∧
    (run w args).ending = (work w o choice p).1 ∧ (run w args).events = es ++ (work w o choice p).2.1 ∧
    (run w args).tree = (work w o choice p).2.2 := by
  obtain ⟨typed, hargs, hversion, hfiles, hconf, hbuild⟩ := h
  refine ⟨(configure w typed).events, quiet_configure w typed, ?_⟩
  simp [run, hargs, hversion, hfiles, hconf, hbuild]

theorem effects_run_of_not_starts (h : ∀ o choice p, ¬ Starts w args o choice p)
    (hr : (run w args).ending = .returned 1) :
    Event.effects (run w args).events = [] ∧ (run w args).tree = w.tree := by
  unfold run at hr ⊢
  cases hargs : Options.ofArguments args with
  | error s => simp [hargs] at hr
  | ok typed =>
    simp only [hargs] at hr ⊢
    by_cases hversion : typed.options.version = true
    · simp [hversion] at hr
    · by_cases hfiles : typed.options.files = []
      · simp [hversion, hfiles]
      · have hquiet : Event.effects (configure w typed).events = [] := quiet_configure w typed
        simp only [hversion, hfiles, if_false, Bool.false_eq_true]
        cases hconf : (configure w typed).result with
        | error e => simp [hquiet, effects_endSetup]
        | ok o =>
          cases hbuild : buildPipeline w o with
          | error e => simp [hbuild, hquiet, effects_endSetup]
          | ok built => exact absurd ⟨typed, hargs, by simpa using hversion, hfiles, hconf, hbuild⟩ (h o _ _)

theorem work_of_error {e : Fault} (h : (plan w o p).result = .error e) : work w o choice p =
    ((endWork e).1, (plan w o p).events ++ (endWork e).2, w.tree) := by
  simp [work, h]

theorem work_of_refusal {refusal : Refusal} (h : (plan w o p).result = .ok (.error refusal)) :
    work w o choice p =
      (.returned 1, (plan w o p).events ++ [.complained (complaint refusal.text)], w.tree) := by
  simp [work, h]

theorem work_of_performed {jobs : List (StyleFile × Target)} {t : FileTree} {r : Run Unit}
    (h : (plan w o p).result = .ok (.ok jobs))
    (hp : performAll w.cwd p (w.compilerFor choice) w.tree jobs = (t, r)) (hr : r.result = .ok ()) :
    work w o choice p = (.returned 0, (plan w o p).events ++ r.events, t) := by
  simp [work, h, hp, hr]

theorem work_of_failure {jobs : List (StyleFile × Target)} {t : FileTree} {r : Run Unit} {e : Fault}
    (h : (plan w o p).result = .ok (.ok jobs))
    (hp : performAll w.cwd p (w.compilerFor choice) w.tree jobs = (t, r)) (hr : r.result = .error e) :
    work w o choice p = ((endWork e).1, (plan w o p).events ++ r.events ++ (endWork e).2, t) := by
  simp [work, h, hp, hr]

theorem run_of_refusal (hs : Starts w args o choice p) {refusal : Refusal}
    (h : (plan w o p).result = .ok (.error refusal)) :
    (run w args).Inert w.tree ∧ (run w args).ending = .returned 1 := by
  obtain ⟨es, hes, hending, hevents, htree⟩ := run_of_starts hs
  have hquiet : Event.effects (plan w o p).events = [] := quiet_plan w o p
  rw [work_of_refusal h] at hending hevents htree
  have heffects : Event.effects (run w args).events = [] := by simp [hevents, hes, hquiet]
  exact ⟨⟨heffects, Report.printed_of_effects heffects (by simp [hending]), htree⟩, hending⟩

theorem run_of_readInputs_error (hs : Starts w args o choice p) {e : Fault} (h : readInputs w o = .error e) :
    (run w args).Inert w.tree ∧
      (run w args).ending = if e.isOwn || e.isSystem then .returned 2 else .escaped e := by
  obtain ⟨es, hes, hending, hevents, htree⟩ := run_of_starts hs
  have hplan : (plan w o p).result = .error e := by rw [plan_of_error h]; rfl
  have hquiet : Event.effects (plan w o p).events = [] := quiet_plan w o p
  rw [work_of_error hplan] at hending hevents htree
  rw [ending_endWork] at hending
  have heffects : Event.effects (run w args).events = [] := by
    simp [hevents, hes, hquiet, effects_endWork]
  refine ⟨⟨heffects, Report.printed_of_effects heffects fun s => ?_, htree⟩, hending⟩
  rw [hending]
  split <;> simp

theorem work_cases (w : Workplace) (o : Options) (choice : Compiler.Choice) (p : Pipeline) :
    (∃ e, (work w o choice p).1 = (endWork e).1) ∨
    (∃ refusal, (plan w o p).result = .ok (.error refusal) ∧ (work w o choice p).1 = .returned 1) ∨
    ∃ jobs t r, (plan w o p).result = .ok (.ok jobs) ∧
      performAll w.cwd p (w.compilerFor choice) w.tree jobs = (t, r) ∧ r.result = .ok () ∧
      work w o choice p = (.returned 0, (plan w o p).events ++ r.events, t) := by
  cases hplan : (plan w o p).result with
  | error e => exact .inl ⟨e, by rw [work_of_error hplan]⟩
  | ok planned =>
    cases planned with
    | error refusal => exact .inr (.inl ⟨refusal, rfl, by rw [work_of_refusal hplan]⟩)
    | ok jobs =>
      cases hp : performAll w.cwd p (w.compilerFor choice) w.tree jobs with
      | mk t r =>
        cases hr : r.result with
        | ok _ => exact .inr (.inr ⟨jobs, t, r, rfl, hp, hr, work_of_performed hplan hp hr⟩)
        | error e => exact .inl ⟨e, by rw [work_of_failure hplan hp hr]⟩

theorem ending_endWork_ne (e : Fault) {code : Nat} (h : code ≠ 2) : (endWork e).1 ≠ .returned code := by
  rw [ending_endWork]
  split
  · simpa using h.symm
  · simp

theorem exists_refusal_of_returned_one (hs : Starts w args o choice p)
    (h : (run w args).ending = .returned 1) : ∃ refusal, (plan w o p).result = .ok (.error refusal) := by
  obtain ⟨es, -, hending, -, -⟩ := run_of_starts hs
  rw [h] at hending
  rcases work_cases w o choice p with ⟨e, he⟩ | ⟨refusal, hplan, -⟩ | ⟨jobs, t, r, -, -, -, hwork⟩
  · exact absurd (hending.trans he).symm (ending_endWork_ne e (by decide))
  · exact ⟨refusal, hplan⟩
  · simp [hwork] at hending

theorem exists_performed_of_returned_zero (hs : Starts w args o choice p)
    (h : (run w args).ending = .returned 0) : ∃ jobs t r, (plan w o p).result = .ok (.ok jobs) ∧
      performAll w.cwd p (w.compilerFor choice) w.tree jobs = (t, r) ∧ r.result = .ok () ∧
      work w o choice p = (.returned 0, (plan w o p).events ++ r.events, t) := by
  obtain ⟨es, -, hending, -, -⟩ := run_of_starts hs
  rw [h] at hending
  rcases work_cases w o choice p with ⟨e, he⟩ | ⟨refusal, -, hone⟩ | hdone
  · exact absurd (hending.trans he).symm (ending_endWork_ne e (by decide))
  · simp [hone] at hending
  · exact hdone

/-- A run that returns 1 has no effects. Neither has one that cannot read its inputs, wherever among
them there is a path that leads nowhere or a file that cannot be read; such a run returns 2, or
the fault escapes. Several inputs for one output, or for one file, are refused. -/
theorem run_inert (w : Workplace) (args : List Text) :
    ((run w args).ending = .returned 1 → (run w args).Inert w.tree) ∧
    ∀ o choice p, Starts w args o choice p →
      (∀ e, readInputs w o = .error e → (run w args).Inert w.tree ∧
        (run w args).ending = if e.isOwn || e.isSystem then .returned 2 else .escaped e) ∧
      (∀ raw ∈ pathsOf o, ¬ Discovery.IsThere w.tree w.cwd raw → (run w args).Inert w.tree ∧
        ((∃ patterns, Glob.patternsOf (Discovery.includesOf (o.includes.map (·.map Given.orEmpty))) =
          .ok patterns) → (run w args).ending = .returned 2)) ∧
      (∀ found, discovered w o = .ok found → (∃ x ∈ found, ∃ e, w.tree.read [] x.path = .error e) →
        (run w args).Inert w.tree ∧ (run w args).ending = .returned 2) ∧
      ∀ files, readInputs w o = .ok files →
        (1 < (wanted p files).length → outputDirOf o = none → o.output ≠ .text Options.standard →
          (run w args).Inert w.tree ∧ (run w args).ending = .returned 1) ∧
        ∀ targets, targetsFor o (wanted p files) = .ok targets →
          (∃ (i j : Nat) (path : Path), i < j ∧ targets[i]? = some (some path) ∧ targets[j]? = some (some path)) →
            (run w args).Inert w.tree ∧ (run w args).ending = .returned 1 := by
  refine ⟨fun hone => ?_, fun o choice p hs => ⟨fun e he => ?_, fun raw hraw hn => ?_, ?_, fun files hfiles => ?_⟩⟩
  · by_cases hs : ∃ o choice p, Starts w args o choice p
    · obtain ⟨o, choice, p, hs⟩ := hs
      obtain ⟨refusal, hrefusal⟩ := exists_refusal_of_returned_one hs hone
      exact (run_of_refusal hs hrefusal).1
    · simp only [not_exists] at hs
      obtain ⟨heffects, htree⟩ := effects_run_of_not_starts hs hone
      exact ⟨heffects, Report.printed_of_effects heffects (by simp [hone]), htree⟩
  · exact run_of_readInputs_error hs he
  · obtain ⟨e, he, hsystem⟩ := readInputs_of_not_isThere hraw hn
    obtain ⟨hinert, hending⟩ := run_of_readInputs_error hs he
    exact ⟨hinert, fun hp => by simp [hending, hsystem hp]⟩
  · rintro found hfound ⟨x, hx, e, hread⟩
    obtain ⟨e', he, hsystem⟩ := readInputs_of_unreadable hfound hx hread
    obtain ⟨hinert, hending⟩ := run_of_readInputs_error hs he
    exact ⟨hinert, by simp [hending, hsystem]⟩
  · have hplan := plan_result (p := p) hfiles
    refine ⟨fun hl hd ho => ?_, ?_⟩
    · exact run_of_refusal hs (hplan.trans (planFor_of_several hl hd ho))
    · rintro targets htargets ⟨i, j, path, hij, hi, hj⟩
      obtain ⟨refusal, hrefusal⟩ := planFor_of_same_target htargets hij hi hj
      exact run_of_refusal hs (hplan.trans hrefusal)

/-- A path that leads nowhere between two good ones, and two files whose targets are one. -/
theorem run_inert_gone_or_shared :
    let w : Workplace := ⟨⟨[(["a.less".toList], .file [120]), (["d".toList], .directory),
      (["d".toList, "a.less".toList], .file [121])]⟩, [], [], Toml.usualRoom, fun _ _ => Compiler.identity⟩
    let gone := ["--compiler", "identity", "a.less", "b.less", "d"].map String.toList
    let shared := ["--compiler", "identity", "--output-dir", "out", "a.less", "d"].map String.toList
    (run w gone).Inert w.tree ∧ (run w gone).ending = .returned 2 ∧
      (run w shared).Inert w.tree ∧ (run w shared).ending = .returned 1 := by
  intro w gone shared
  let p : Pipeline := ⟨.usual, Compiler.identity, [⟨"**/*".toList, [⟨false, .someChar⟩]⟩], false, true, []⟩
  have hgone : ∃ o, Starts w gone o .identity p ∧ "b.less".toList ∈ pathsOf o ∧ o.includes = none := by
    let typed : Options.Typed := { Options.Typed.nothing with
      files := ["a.less".toList, "b.less".toList, "d".toList], compiler := some (.text "identity".toList) }
    have hargs : Options.ofArguments gone = .ok typed := by decide +kernel
    have hconf : (configure w typed).result = .ok typed.options := by cbv
    exact ⟨typed.options, ⟨typed, hargs, rfl, List.cons_ne_nil _ _, hconf, rfl⟩, by decide +kernel, rfl⟩
  have hshared : ∃ o files targets, Starts w shared o .identity p ∧ readInputs w o = .ok files ∧
      targetsFor o (wanted p files) = .ok targets ∧ targets[0]? = some (some (.ofText "out/a.css".toList)) ∧
      targets[1]? = some (some (.ofText "out/a.css".toList)) := by
    let typed : Options.Typed := { Options.Typed.nothing with
      files := ["a.less".toList, "d".toList], outputDir := some (.text "out".toList),
      compiler := some (.text "identity".toList) }
    have hargs : Options.ofArguments shared = .ok typed := by decide +kernel
    have hconf : (configure w typed).result = .ok typed.options := by cbv
    have hread : readInputs w typed.options = .ok
        [⟨FileTree.pathOf ["a.less".toList], .buffer [120], Codec.utf8Name, some (FileTree.pathOf [])⟩,
          ⟨FileTree.pathOf ["d".toList, "a.less".toList], .buffer [121], Codec.utf8Name,
            some (FileTree.pathOf ["d".toList])⟩] := by cbv
    refine ⟨typed.options, _, _, ⟨typed, hargs, rfl, List.cons_ne_nil _ _, hconf, rfl⟩, hread, rfl, ?_, ?_⟩
    · decide +kernel
    · decide +kernel
  have hlocate : w.tree.locate w.cwd (.ofText "b.less".toList) = .error .noEntry := by cbv
  have hnone := Discovery.not_isThere_of_locate hlocate
  obtain ⟨o, hstarts, hraw, hincludes⟩ := hgone
  obtain ⟨o', files, targets, hstarts', hfiles, htargets, hfirst, hsecond⟩ := hshared
  obtain ⟨hinert, hending⟩ := ((run_inert w gone).2 o .identity p hstarts).2.1 _ hraw hnone
  have hpatterns := Discovery.patternsOf_usual
  refine ⟨hinert, hending ⟨_, by rw [hincludes]; exact hpatterns⟩, ?_⟩
  exact (((run_inert w shared).2 o' .identity p hstarts').2.2.2 files hfiles).2 targets htargets
    ⟨0, 1, _, Nat.zero_lt_one, hfirst, hsecond⟩

end StyleShield.CommandLine
