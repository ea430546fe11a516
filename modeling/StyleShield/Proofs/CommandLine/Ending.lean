import StyleShield.Proofs.CommandLine.Work
import StyleShield.Proofs.Settings.Nearest

/-! How a run ends. A run takes one of several courses, by where it stops, and the course decides the ending
(`ending_of_takes`). What makes it take a course are its arguments, the settings and options in force, the
inputs, and the jobs (`takes_iff_causes`). So with the bundled compilers it is known for which causes each of
the three codes is given and which faults escape (`ending_iff`). -/
namespace StyleShield.CommandLine

variable {w : Workplace} {args : List Text} {o : Options} {choice : Compiler.Choice} {p : Pipeline}

/-- Where a run stops, and why. -/
inductive Course where
  | stopped (cause : Options.Stop)
  | versionShown
  | nothingNamed
  | setupFailed (fault : Fault)
  | refused (cause : Refusal)
  | workFailed (fault : Fault)
  | done

/-- The course of a run, by the results of its parts. -/
inductive Takes (w : Workplace) (args : List Text) : Course → Prop
  | stopped {s : Options.Stop} (h : Options.ofArguments args = .error s) : Takes w args (.stopped s)
  | versionShown {typed : Options.Typed} (h : Options.ofArguments args = .ok typed)
      (hversion : typed.options.version = true) : Takes w args .versionShown
  | nothingNamed {typed : Options.Typed} (h : Options.ofArguments args = .ok typed)
      (hversion : typed.options.version = false) (hfiles : typed.options.files = []) : Takes w args .nothingNamed
  | settings {typed : Options.Typed} {f : Fault} (h : Options.ofArguments args = .ok typed)
      (hversion : typed.options.version = false) (hfiles : typed.options.files ≠ [])
      (hconf : (configure w typed).result = .error f) : Takes w args (.setupFailed f)
  | building {typed : Options.Typed} {o : Options} {f : Fault} (h : Options.ofArguments args = .ok typed)
      (hversion : typed.options.version = false) (hfiles : typed.options.files ≠ [])
      (hconf : (configure w typed).result = .ok o) (hbuild : buildPipeline w o = .error f) :
      Takes w args (.setupFailed f)
  | refused {o : Options} {choice : Compiler.Choice} {p : Pipeline} {r : Refusal} (h : Starts w args o choice p)
      (hplan : (plan w o p).result = .ok (.error r)) : Takes w args (.refused r)
  | planning {o : Options} {choice : Compiler.Choice} {p : Pipeline} {f : Fault} (h : Starts w args o choice p)
      (hplan : (plan w o p).result = .error f) : Takes w args (.workFailed f)
  | performing {o : Options} {choice : Compiler.Choice} {p : Pipeline} {jobs : List (StyleFile × Target)}
      {f : Fault} (h : Starts w args o choice p) (hplan : (plan w o p).result = .ok (.ok jobs))
      (hperform : (performAll w.cwd p (w.compilerFor choice) w.tree jobs).2.result = .error f) :
      Takes w args (.workFailed f)
  | done {o : Options} {choice : Compiler.Choice} {p : Pipeline} {jobs : List (StyleFile × Target)}
      (h : Starts w args o choice p) (hplan : (plan w o p).result = .ok (.ok jobs))
      (hperform : (performAll w.cwd p (w.compilerFor choice) w.tree jobs).2.result = .ok ()) : Takes w args .done

/-- How a course ends. -/
def Course.ending : Course → Ending
  | stopped s => .stopped s
  | versionShown => .returned 0
  | nothingNamed => .returned 1
  | setupFailed (.settings _) => .returned 1
  | setupFailed f => .escaped f
  | refused _ => .returned 1
  | workFailed f => if f.isOwn || f.isSystem then .returned 2 else .escaped f
  | done => .returned 0

theorem endSetup_ending (o : Options) (f : Fault) : (endSetup o f).1 = (Course.setupFailed f).ending := by
  cases f <;> rfl

theorem exists_takes (w : Workplace) (args : List Text) : ∃ course, Takes w args course := by
  cases hargs : Options.ofArguments args with
  | error s => exact ⟨_, .stopped hargs⟩
  | ok typed =>
    by_cases hversion : typed.options.version = true
    · exact ⟨_, .versionShown hargs hversion⟩
    · rw [Bool.not_eq_true] at hversion
      by_cases hfiles : typed.options.files = []
      · exact ⟨_, .nothingNamed hargs hversion hfiles⟩
      · cases hconf : (configure w typed).result with
        | error f => exact ⟨_, .settings hargs hversion hfiles hconf⟩
        | ok o =>
          cases hbuild : buildPipeline w o with
          | error f => exact ⟨_, .building hargs hversion hfiles hconf hbuild⟩
          | ok built =>
            have hs : Starts w args o built.1 built.2 := ⟨typed, hargs, hversion, hfiles, hconf, hbuild⟩
            cases hplan : (plan w o built.2).result with
            | error f => exact ⟨_, .planning hs hplan⟩
            | ok planned =>
              cases planned with
              | error r => exact ⟨_, .refused hs hplan⟩
              | ok jobs =>
                cases hperform : (performAll w.cwd built.2 (w.compilerFor built.1) w.tree jobs).2.result with
                | error f => exact ⟨_, .performing hs hplan hperform⟩
                | ok u => exact ⟨_, .done hs hplan hperform⟩

theorem ending_of_takes {course : Course} (h : Takes w args course) : (run w args).ending = course.ending := by
  cases h with
  | stopped h => simp [run, h, Course.ending]
  | versionShown h hversion => simp [run, h, hversion, Course.ending]
  | nothingNamed h hversion hfiles => simp [run, h, hversion, hfiles, Course.ending]
  | settings h hversion hfiles hconf => simp [run, h, hversion, hfiles, hconf, endSetup_ending]
  | building h hversion hfiles hconf hbuild => simp [run, h, hversion, hfiles, hconf, hbuild, endSetup_ending]
  | refused h hplan => exact (run_of_refusal h hplan).2
  | planning h hplan =>
    obtain ⟨es, -, hending, -⟩ := run_of_starts h
    rw [hending, work_of_error hplan]
    exact ending_endWork _
  | performing h hplan hperform =>
    obtain ⟨es, -, hending, -⟩ := run_of_starts h
    rw [hending, work_of_failure hplan rfl hperform]
    exact ending_endWork _
  | done h hplan hperform =>
    obtain ⟨es, -, hending, -⟩ := run_of_starts h
    rw [hending, work_of_performed hplan rfl hperform]
    rfl

def ShowsVersion (args : List Text) : Prop :=
  ∃ typed, Options.ofArguments args = .ok typed ∧ typed.options.version = true

def NamesNothing (args : List Text) : Prop :=
  ∃ typed, Options.ofArguments args = .ok typed ∧ typed.options.version = false ∧ typed.options.files = []

/-- What makes a run take a course. -/
def Causes (w : Workplace) (args : List Text) : Course → Prop
  | .stopped s => Options.ofArguments args = .error s
  | .versionShown => ShowsVersion args
  | .nothingNamed => NamesNothing args
  | .setupFailed f => SetupFails w args f
  | .refused r => Refused w args r
  | .workFailed f => WorkFails w args f
  | .done => Succeeds w args

theorem causes_of_takes {course : Course} (h : Takes w args course) : Causes w args course := by
  cases h with
  | stopped h => exact h
  | versionShown h hversion => exact ⟨_, h, hversion⟩
  | nothingNamed h hversion hfiles => exact ⟨_, h, hversion, hfiles⟩
  | settings h hversion hfiles hconf => exact .settings ⟨h, hversion, hfiles⟩ (configure_eq_error_iff.1 hconf)
  | building h hversion hfiles hconf hbuild =>
    exact .options ⟨h, hversion, hfiles⟩ (configure_eq_ok_iff.1 hconf) (buildPipeline_eq_error_iff.1 hbuild)
  | refused h hplan =>
    obtain ⟨files, hread, hplanned⟩ := plan_eq_ok_iff.1 hplan
    exact .mk (starts_iff_ready.1 h) hread hplanned
  | planning h hplan =>
    rcases plan_eq_error_iff.1 hplan with hinputs | ⟨files, hread, hplanned⟩
    · exact .inputs (starts_iff_ready.1 h) hinputs
    · exact .targets (starts_iff_ready.1 h) hread hplanned
  | performing h hplan hperform =>
    obtain ⟨files, hread, hplanned⟩ := plan_eq_ok_iff.1 hplan
    obtain ⟨before, job, after, t, rfl, hdone, hjob⟩ := (performAll_eq_error_iff (isInput_of_plan hplan)).1 hperform
    exact .job (starts_iff_ready.1 h) hread hplanned hdone hjob
  | done h hplan hperform =>
    obtain ⟨files, hread, hplanned⟩ := plan_eq_ok_iff.1 hplan
    obtain ⟨t, hdone⟩ := (performAll_eq_ok_iff (isInput_of_plan hplan)).1 hperform
    exact .mk (starts_iff_ready.1 h) hread hplanned hdone

theorem takes_of_causes {course : Course} (h : Causes w args course) : Takes w args course := by
  cases course with
  | stopped s => exact .stopped h
  | versionShown =>
    obtain ⟨typed, hargs, hversion⟩ := h
    exact .versionShown hargs hversion
  | nothingNamed =>
    obtain ⟨typed, hargs, hversion, hfiles⟩ := h
    exact .nothingNamed hargs hversion hfiles
  | setupFailed f =>
    cases h with
    | settings asks h => exact .settings asks.read asks.version asks.files (configure_eq_error_iff.2 h)
    | options asks inForce h =>
      exact .building asks.read asks.version asks.files (configure_eq_ok_iff.2 inForce) (buildPipeline_eq_error_iff.2 h)
  | refused r =>
    obtain ⟨ready, read, planned⟩ := h
    exact .refused (starts_iff_ready.2 ready) (plan_eq_ok_iff.2 ⟨_, read, planned⟩)
  | workFailed f =>
    cases h with
    | inputs ready h => exact .planning (starts_iff_ready.2 ready) (plan_eq_error_iff.2 (.inl h))
    | targets ready read h => exact .planning (starts_iff_ready.2 ready) (plan_eq_error_iff.2 (.inr ⟨_, read, h⟩))
    | job ready read planned done h =>
      have hplan := plan_eq_ok_iff.2 ⟨_, read, planned⟩
      exact .performing (starts_iff_ready.2 ready) hplan
        ((performAll_eq_error_iff (isInput_of_plan hplan)).2 ⟨_, _, _, _, rfl, done, h⟩)
  | done =>
    obtain ⟨ready, read, planned, done⟩ := h
    have hplan := plan_eq_ok_iff.2 ⟨_, read, planned⟩
    exact .done (starts_iff_ready.2 ready) hplan ((performAll_eq_ok_iff (isInput_of_plan hplan)).2 ⟨_, done⟩)

theorem takes_iff_causes {course : Course} : Takes w args course ↔ Causes w args course :=
  ⟨causes_of_takes, takes_of_causes⟩

theorem ending_of_causes {course : Course} (h : Causes w args course) : (run w args).ending = course.ending :=
  ending_of_takes (takes_iff_causes.2 h)

theorem Course.ending_setupFailed {f : Fault} (h : EscapesSetup f) : (setupFailed f).ending = .escaped f := by
  have hn := h.ne_settings
  cases f with
  | settings c => exact absurd rfl (hn c)
  | _ => rfl

theorem Course.ending_workFailed {f : Fault} (h : IsWorkFailure f) : (workFailed f).ending = .returned 2 :=
  if_pos h.reported

theorem Course.ending_workFailed_of_escapes {f : Fault} (h : EscapesWork f) : (workFailed f).ending = .escaped f :=
  if_neg (by simp [h.not_reported])

/-- The causes for which each of the codes is returned, and those for which a fault escapes. -/
def Returns (w : Workplace) (args : List Text) : (code : Nat) → Prop
  | 0 => ShowsVersion args ∨ Succeeds w args
  | 1 => NamesNothing args ∨ (∃ r, Refused w args r) ∨ ∃ c, SetupFails w args (.settings c)
  | 2 => ∃ f, WorkFails w args f ∧ IsWorkFailure f
  | _ => False

def Escapes (w : Workplace) (args : List Text) (f : Fault) : Prop :=
  (SetupFails w args f ∧ EscapesSetup f) ∨ (WorkFails w args f ∧ EscapesWork f)

theorem ending_of_returns {code : Nat} (h : Returns w args code) : (run w args).ending = .returned code := by
  match code, h with
  | 0, .inl h => exact ending_of_causes (show Causes w args .versionShown from h)
  | 0, .inr h => exact ending_of_causes (show Causes w args .done from h)
  | 1, .inl h => exact ending_of_causes (show Causes w args .nothingNamed from h)
  | 1, .inr (.inl ⟨r, h⟩) => exact ending_of_causes (show Causes w args (.refused r) from h)
  | 1, .inr (.inr ⟨c, h⟩) => exact ending_of_causes (show Causes w args (.setupFailed (.settings c)) from h)
  | 2, ⟨f, h, hf⟩ => exact (ending_of_causes (show Causes w args (.workFailed f) from h)).trans (Course.ending_workFailed hf)

theorem ending_of_escapes {f : Fault} (h : Escapes w args f) : (run w args).ending = .escaped f := by
  rcases h with ⟨h, hf⟩ | ⟨h, hf⟩
  · exact (ending_of_causes (show Causes w args (.setupFailed f) from h)).trans (Course.ending_setupFailed hf)
  · exact (ending_of_causes (show Causes w args (.workFailed f) from h)).trans (Course.ending_workFailed_of_escapes hf)

theorem run_cases {tools : Toolbox} (hw : w.compilerFor = tools.compilerFor w.cwd) (args : List Text) :
    (∃ s, Options.ofArguments args = .error s) ∨ (∃ code, Returns w args code) ∨ ∃ f, Escapes w args f := by
  obtain ⟨course, h⟩ := exists_takes w args
  have hcauses := takes_iff_causes.1 h
  cases course with
  | stopped s => exact .inl ⟨s, hcauses⟩
  | versionShown => exact .inr (.inl ⟨0, .inl hcauses⟩)
  | nothingNamed => exact .inr (.inl ⟨1, .inl hcauses⟩)
  | setupFailed f =>
    rcases SetupFails.isFault hcauses with ⟨c, rfl⟩ | hf
    · exact .inr (.inl ⟨1, .inr (.inr ⟨c, hcauses⟩)⟩)
    · exact .inr (.inr ⟨f, .inl ⟨hcauses, hf⟩⟩)
  | refused r => exact .inr (.inl ⟨1, .inr (.inl ⟨r, hcauses⟩)⟩)
  | workFailed f =>
    rcases WorkFails.isWorkFault hw hcauses with hf | hf
    · exact .inr (.inl ⟨2, f, hcauses, hf⟩)
    · exact .inr (.inr ⟨f, .inr ⟨hcauses, hf⟩⟩)
  | done => exact .inr (.inl ⟨0, .inr hcauses⟩)

/-- A settings file under the second of the three names, with an equals sign and nothing else. -/
def malformedTree : FileTree := ⟨[(["lightcss.toml".toList], .file [61])]⟩

theorem find_malformed (room : Nat) : Settings.find room malformedTree [] = .ok (some (.ofText "/lightcss.toml".toList)) ∧
    Settings.load room malformedTree (.ofText "/lightcss.toml".toList) = .error .malformedToml := by
  have hread : malformedTree.read [] (Settings.Site.path ⟨[], "lightcss.toml".toList⟩) = .ok [61] := by cbv
  have hfirst : Settings.Site.verdict room malformedTree ⟨[], ".lightcss.toml".toList⟩ = .ok false := by cbv
  have hsecond : Settings.Site.verdict room malformedTree ⟨[], "lightcss.toml".toList⟩ = .ok true :=
    (Settings.verdict_of_file hread).trans (if_neg (by decide))
  have hmalformed : Toml.readBytes room [61] = .error .malformedToml := by cbv
  constructor
  · rw [Settings.find_eq_search, Settings.sites_nil, Settings.search, hfirst]
    rw [Settings.search, hsecond]
    rfl
  · refine bind_eq_error_iff.2 (.inr ⟨[61], hread, bind_eq_error_iff.2 (.inl hmalformed)⟩)

theorem configure_of_find_error {typed : Options.Typed} {f : Fault} (h : Settings.find w.room w.tree w.cwd = .error f) :
    (configure w typed).result = .error f := by
  rw [configure_result, h]
  rfl

end StyleShield.CommandLine
