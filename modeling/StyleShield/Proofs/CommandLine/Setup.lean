import StyleShield.Proofs.CommandLine.Report
import StyleShield.Proofs.Compiler.Command
import StyleShield.Proofs.Ignore.Refusal
import StyleShield.Proofs.Pipeline.Process
import StyleShield.Proofs.Settings.Unusable

/-! Why a run is not set up. Its settings cannot be used (`configure_eq_error_iff`), or the options that are
then in force (`configure_eq_ok_iff`) name no compiler, a command line without words or a glob that is none
(`buildPipeline_eq_error_iff`). Faults of settings are reported, and all others escape
(`SetupFails.isFault`). -/
namespace StyleShield.CommandLine

variable {w : Workplace} {args : List Text} {typed : Options.Typed} {o : Options} {f : Fault} {c : Compiler}

/-- The options of a run: what was typed, and for the rest what the settings give that are in force. -/
inductive InForce (w : Workplace) (typed : Options.Typed) : Options → Prop
  | typed (h : ∀ s : Settings.Site, s.Serves w.cwd →
      ¬ Settings.Counts w.room w.tree s ∧ ∀ f, ¬ Settings.Halts w.room w.tree s f) : InForce w typed typed.options
  | filled {s : Settings.Site} {b : Bytes} {data : List (Text × Toml.Value)} {settings : Settings}
      (chosen : Settings.Chosen w.room w.tree w.cwd s) (hread : w.tree.read [] s.path = .ok b)
      (table : Settings.TableOf (w.room + 1) s.name b data)
      (fits : ∀ field k v, ¬ Settings.Misfit (Settings.entries data) field k v)
      (gives : ∀ field, Settings.Gives (Settings.entries data) field (settings.value? field)) :
      InForce w typed (typed.options.fill settings typed.fields)

/-- Why no pipeline can be made with some options. -/
inductive BadOptions (o : Options) : Fault → Prop
  | noCompiler (h : namedCompiler o = none) : BadOptions o (.settings .noCompiler)
  | line {name : Text} {f : Fault} (named : namedCompiler o = some name)
      (other : Text.strip name ∉ Compiler.Choice.reserved) (h : Words.split (Text.strip name) = .error f) :
      BadOptions o f
  | noWords {name : Text} (named : namedCompiler o = some name)
      (other : Text.strip name ∉ Compiler.Choice.reserved) (h : Words.split (Text.strip name) = .ok []) :
      BadOptions o (.settings .emptyCommand)
  | glob {name : Text} {choice : Compiler.Choice} {f : Fault} (named : namedCompiler o = some name)
      (chosen : Compiler.Choice.ofText name = .ok choice)
      (h : FailsFirst Matcher.compile (Matcher.counted (Given.leading o.ignores)) f) : BadOptions o f
  | missingPattern {name : Text} {choice : Compiler.Choice} (named : namedCompiler o = some name)
      (chosen : Compiler.Choice.ofText name = .ok choice)
      (globs : ∀ f, ¬ FailsFirst Matcher.compile (Matcher.counted (Given.leading o.ignores)) f)
      (h : .nothing ∈ o.ignores) : BadOptions o .missingPattern

theorem configure_result (w : Workplace) (typed : Options.Typed) : (configure w typed).result =
    (Settings.find w.room w.tree w.cwd).bind fun
      | none => .ok typed.options
      | some p => (Settings.load (w.room + 1) w.tree p).map fun s => typed.options.fill s typed.fields := by
  rw [configure]
  cases Settings.find w.room w.tree w.cwd with
  | error e => rfl
  | ok found =>
    cases found with
    | none => rfl
    | some p =>
      rw [Run.ofExcept_ok_bind]
      dsimp only [Except.bind]
      cases Settings.load (w.room + 1) w.tree p <;> rfl

theorem configure_eq_error_iff :
    (configure w typed).result = .error f ↔ Settings.Unusable w.room w.tree w.cwd f := by
  rw [configure_result]
  constructor
  · intro h
    cases hfind : Settings.find w.room w.tree w.cwd with
    | error e =>
      rw [hfind] at h
      obtain rfl : e = f := Except.error.inj h
      obtain ⟨s, hfirst, hhalts⟩ := Settings.find_eq_error_iff_halts.1 hfind
      exact .search hfirst hhalts
    | ok found =>
      rw [hfind] at h
      cases found with
      | none => simp [Except.bind] at h
      | some p =>
        obtain ⟨s, hs, rfl⟩ := Settings.find_eq_some_iff_chosen.1 hfind
        obtain ⟨b, hb⟩ := FileTree.isFile_iff_read.1 hs.counts.1
        refine .file hs hb ((Settings.load_eq_error_iff hs.counts hb).1 ?_)
        cases hload : Settings.load (w.room + 1) w.tree s.path with
        | error e => simpa [Except.bind, Except.map, hload] using h
        | ok settings => simp [Except.bind, Except.map, hload] at h
  · intro h
    cases h with
    | search first h => rw [Settings.find_eq_error_iff_halts.2 ⟨_, first, h⟩]; rfl
    | file chosen hread h =>
      rw [Settings.find_eq_some_iff_chosen.2 ⟨_, chosen, rfl⟩]
      simp [Except.bind, Except.map, (Settings.load_eq_error_iff chosen.counts hread).2 h]

theorem configure_eq_ok_iff : (configure w typed).result = .ok o ↔ InForce w typed o := by
  rw [configure_result]
  constructor
  · intro h
    cases hfind : Settings.find w.room w.tree w.cwd with
    | error e => simp [hfind, Except.bind] at h
    | ok found =>
      rw [hfind] at h
      cases found with
      | none =>
        obtain rfl : typed.options = o := Except.ok.inj h
        exact .typed (Settings.find_eq_none_iff_passed.1 hfind)
      | some p =>
        obtain ⟨s, hs, rfl⟩ := Settings.find_eq_some_iff_chosen.1 hfind
        obtain ⟨b, hb⟩ := FileTree.isFile_iff_read.1 hs.counts.1
        cases hload : Settings.load (w.room + 1) w.tree s.path with
        | error e => simp [Except.bind, Except.map, hload] at h
        | ok settings =>
          obtain ⟨data, table, fits, gives⟩ := (Settings.load_eq_ok_iff hs.counts hb).1 hload
          obtain rfl : typed.options.fill settings typed.fields = o := by
            simpa [Except.bind, Except.map, hload] using h
          exact .filled hs hb table fits gives
  · intro h
    cases h with
    | typed h => rw [Settings.find_eq_none_iff_passed.2 h]; rfl
    | filled chosen hread table fits gives =>
      rw [Settings.find_eq_some_iff_chosen.2 ⟨_, chosen, rfl⟩]
      simp [Except.bind, Except.map, (Settings.load_eq_ok_iff chosen.counts hread).2 ⟨_, table, fits, gives⟩]

theorem build_eq_error_iff : Pipeline.build .usual (some c) (pipelineOptions o) = .error f ↔
    FailsFirst Matcher.compile (Matcher.counted (Given.leading o.ignores)) f := by
  rw [← Matcher.compileAll_eq_error_iff]
  change (Matcher.compileAll (Given.leading o.ignores)).map _ = .error f ↔ _
  cases Matcher.compileAll (Given.leading o.ignores) <;> simp [Except.map]

theorem buildPipeline_eq_error_iff : buildPipeline w o = .error f ↔ BadOptions o f := by
  constructor
  · intro h
    unfold buildPipeline at h
    split at h
    · rename_i hname
      obtain rfl := Except.error.inj h
      exact .noCompiler hname
    · rename_i name hname
      rcases bind_eq_error_iff.1 h with h | ⟨choice, hchoice, h⟩
      · obtain ⟨hother, hsplit | ⟨hsplit, rfl⟩⟩ := Compiler.Choice.ofText_eq_error_iff.1 h
        · exact .line hname hother hsplit
        · exact .noWords hname hother hsplit
      · rcases bind_eq_error_iff.1 h with h | ⟨p, hp, h⟩
        · exact .glob hname hchoice (build_eq_error_iff.1 h)
        · split at h
          · rename_i hmissing
            obtain rfl := Except.error.inj h
            refine .missingPattern hname hchoice (fun e he => ?_) hmissing
            simp [build_eq_error_iff.2 he] at hp
          · simp [pure, Except.pure] at h
  · intro h
    cases h with
    | noCompiler h => simp [buildPipeline, h]
    | line named other h =>
      simp only [buildPipeline, named]
      exact bind_eq_error_iff.2 (.inl (Compiler.Choice.ofText_eq_error_iff.2 ⟨other, .inl h⟩))
    | noWords named other h =>
      simp only [buildPipeline, named]
      exact bind_eq_error_iff.2 (.inl (Compiler.Choice.ofText_eq_error_iff.2 ⟨other, .inr ⟨h, rfl⟩⟩))
    | glob named chosen h =>
      simp only [buildPipeline, named]
      exact bind_eq_error_iff.2 (.inr ⟨_, chosen, bind_eq_error_iff.2 (.inl (build_eq_error_iff.2 h))⟩)
    | @missingPattern name choice named chosen globs h =>
      simp only [buildPipeline, named]
      refine bind_eq_error_iff.2 (.inr ⟨_, chosen, bind_eq_error_iff.2 (.inr ?_)⟩)
      cases hp : Pipeline.build .usual (some (w.compilerFor choice w.tree)) (pipelineOptions o) with
      | error e => exact absurd (build_eq_error_iff.1 hp) (globs e)
      | ok p => exact ⟨p, rfl, if_pos h⟩

/-- Faults of the setup that the command line does not report. -/
inductive EscapesSetup : Fault → Prop
  | longName (place : Text) : EscapesSetup (.system .nameTooLong place)
  | file {f : Fault} (h : Settings.IsFileFault f) : EscapesSetup f
  | line {f : Fault} (h : Words.IsLineFault f) : EscapesSetup f
  | pattern {f : Fault} (h : Glob.IsPatternFault f) : EscapesSetup f
  | missingPattern : EscapesSetup .missingPattern

theorem EscapesSetup.ne_settings (h : EscapesSetup f) (c : SettingsFault) : f ≠ .settings c := by
  rintro rfl
  cases h with
  | file h => cases h
  | line h => cases h
  | pattern h => cases h

theorem BadOptions.isFault (h : BadOptions o f) : (∃ c, f = .settings c) ∨ EscapesSetup f := by
  cases h with
  | noCompiler h => exact .inl ⟨_, rfl⟩
  | line named other h => exact .inr (.line (Words.splitFrom_failsOnly _ _ _ _ h))
  | noWords named other h => exact .inl ⟨_, rfl⟩
  | glob named chosen h =>
    obtain ⟨-, glob, -, -, -, hglob⟩ := h
    exact (Matcher.compile_eq_error_iff.1 hglob).isFault.imp_right .pattern
  | missingPattern named chosen globs h => exact .inr .missingPattern

/-- The arguments ask for work. -/
structure Asks (args : List Text) (typed : Options.Typed) : Prop where
  read : Options.ofArguments args = .ok typed
  version : typed.options.version = false
  files : typed.options.files ≠ []

/-- All that has to be in order before a run gets to its inputs. -/
inductive Ready (w : Workplace) (args : List Text) : Options → Compiler.Choice → Pipeline → Prop
  | mk {typed : Options.Typed} {o : Options} {name : Text} {choice : Compiler.Choice} {ms : List Matcher}
      (asks : Asks args typed) (inForce : InForce w typed o) (named : namedCompiler o = some name)
      (chosen : Compiler.Choice.ofText name = .ok choice)
      (globs : List.Forall₂ (fun g m => Matcher.compile g = .ok m) (Matcher.counted (Given.leading o.ignores)) ms)
      (given : .nothing ∉ o.ignores) :
      Ready w args o choice ⟨.usual, w.compilerFor choice w.tree, ms, o.passIgnored, o.ignorePackages, o.ext⟩

theorem starts_iff_ready {choice : Compiler.Choice} {p : Pipeline} :
    Starts w args o choice p ↔ Ready w args o choice p := by
  constructor
  · rintro ⟨typed, hargs, hversion, hfiles, hconf, hbuild⟩
    obtain ⟨name, hname, hchoice, hbuilt, hgiven⟩ := buildPipeline_eq_ok_iff.1 hbuild
    obtain ⟨ms, hms, rfl⟩ := Pipeline.build_some_eq_ok_iff.1 hbuilt
    exact .mk ⟨hargs, hversion, hfiles⟩ (configure_eq_ok_iff.1 hconf) hname hchoice
      (Matcher.compileAll_eq_ok_iff.1 hms) hgiven
  · rintro ⟨asks, hconf, hname, hchoice, hms, hgiven⟩
    refine ⟨_, asks.read, asks.version, asks.files, configure_eq_ok_iff.2 hconf, ?_⟩
    refine buildPipeline_eq_ok_iff.2 ⟨_, hname, hchoice, Pipeline.build_some_eq_ok_iff.2 ⟨_, ?_, rfl⟩, hgiven⟩
    exact Matcher.compileAll_eq_ok_iff.2 hms

/-- Why the settings or the options of a run do not do. -/
inductive SetupFails (w : Workplace) (args : List Text) : Fault → Prop
  | settings {typed : Options.Typed} {f : Fault} (asks : Asks args typed)
      (h : Settings.Unusable w.room w.tree w.cwd f) : SetupFails w args f
  | options {typed : Options.Typed} {o : Options} {f : Fault} (asks : Asks args typed) (inForce : InForce w typed o)
      (h : BadOptions o f) : SetupFails w args f

theorem SetupFails.isFault (h : SetupFails w args f) : (∃ c, f = .settings c) ∨ EscapesSetup f := by
  cases h with
  | settings asks h =>
    rcases h.isFault with h | ⟨place, rfl⟩ | h
    · exact .inr (.file h)
    · exact .inr (.longName place)
    · exact .inl h
  | options asks inForce h => exact h.isFault

end StyleShield.CommandLine
