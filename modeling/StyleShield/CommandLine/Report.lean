import StyleShield.CommandLine.Emission
import StyleShield.CommandLine.Inputs
import StyleShield.Options.Arguments
import StyleShield.Settings.File

/-! The command line as a whole. It reads arguments and settings, plans, and carries the
plan out. It returns 0 when all went well, 1 when nothing could be started, 2 when the
work failed; other faults escape. -/
namespace StyleShield.CommandLine

inductive Ending where
  | returned (code : Nat)
  | stopped (cause : Options.Stop)
  | escaped (fault : Fault)
  deriving DecidableEq

structure Report where
  ending : Ending
  verbosity : Int
  events : List Event
  tree : FileTree

namespace Report

def printed (r : Report) : Text :=
  match r.ending with
  | .stopped s => s.output
  | _ => r.events.flatMap fun
    | .printed s => s
    | _ => []

/-- Complaints, and the log records that the verbosity lets through, in order. -/
def complaints (r : Report) : Text :=
  match r.ending with
  | .stopped s => s.complaint
  | _ => r.events.flatMap fun
    | .complained s => s
    | .logged record => if Log.isShown r.verbosity record.level then record.line else []
    | _ => []

end Report

def versionText : Text := "v0.1.0\n".toList

def complaint (message : Text) : Text := "Error: ".toList ++ message ++ ['\n']

def noInput : Text :=
  complaint ("No input specified. Provide files, directories, or '-' for stdin." ++
    " Use --help for more options.").toList

def noCompilerHint : Text := "Pass --compiler or set `compiler` in config.\n".toList

/-- The options with the settings that are in force. -/
def configure (w : Workplace) (typed : Options.Typed) : Run Options := do
  let found ← Run.ofExcept (Settings.find w.room w.tree w.cwd)
  match found with
  | none => return typed.options
  | some p =>
    Run.log .commandLine .info ("Using config ".toList ++ p.text)
    -- The search reads from one call further in.
    let s ← Run.ofExcept (Settings.load (w.room + 1) w.tree p)
    return typed.options.fill s typed.fields

def pipelineOptions (o : Options) : Pipeline.Options := ⟨Given.leading o.ignores, o.passIgnored, o.ignorePackages, o.ext⟩

def namedCompiler (o : Options) : Option Text :=
  match o.compiler with
  | some (.text (c :: cs)) => some (c :: cs)
  | _ => none

/-- The chosen compiler and the pipeline around it. Ignore patterns are judged in order; one that
is not there at all is a fault when its turn comes. -/
def buildPipeline (w : Workplace) (o : Options) : Except Fault (Compiler.Choice × Pipeline) :=
  match namedCompiler o with
  | none => .error (.settings .noCompiler)
  | some name => do
    let choice ← Compiler.Choice.ofText name
    let p ← Pipeline.build .usual (some (w.compilerFor choice w.tree)) (pipelineOptions o)
    if .nothing ∈ o.ignores then .error .missingPattern else return (choice, p)

/-- How a fault before the work ends the run. -/
def endSetup (o : Options) (f : Fault) : Ending × List Event :=
  match f with
  | .settings _ => (.returned 1, .complained (complaint f.message) ::
      if (namedCompiler o).isNone then [.complained noCompilerHint] else [])
  | _ => (.escaped f, [])

def stderrOf : Fault → List Event
  | .compiler c => if c.stderr = [] then [] else
      [.complained (Text.trimEnd Text.isBlank c.stderr ++ ['\n'])]
  | _ => []

/-- How a fault in the work ends the run. -/
def endWork (f : Fault) : Ending × List Event :=
  if f.isOwn then (.returned 2, .complained (complaint f.message) :: stderrOf f)
  else if f.isSystem then (.returned 2, [.complained (complaint f.message)])
  else (.escaped f, [])

def work (w : Workplace) (o : Options) (choice : Compiler.Choice) (p : Pipeline) :
    Ending × List Event × FileTree :=
  let planned := plan w o p
  match planned.result with
  | .error f => let (e, es) := endWork f; (e, planned.events ++ es, w.tree)
  | .ok (.error refusal) =>
    (.returned 1, planned.events ++ [.complained (complaint refusal.text)], w.tree)
  | .ok (.ok jobs) =>
    let (t, r) := performAll w.cwd p (w.compilerFor choice) w.tree jobs
    match r.result with
    | .error f => let (e, es) := endWork f; (e, planned.events ++ r.events ++ es, t)
    | .ok () => (.returned 0, planned.events ++ r.events, t)

def run (w : Workplace) (args : List Text) : Report :=
  match Options.ofArguments args with
  | .error s => ⟨.stopped s, 0, [], w.tree⟩
  | .ok typed =>
    let o := typed.options
    if o.version then ⟨.returned 0, o.verbosity, [.printed versionText], w.tree⟩
    else if o.files = [] then ⟨.returned 1, o.verbosity, [.complained noInput], w.tree⟩
    else
      let configured := configure w typed
      match configured.result with
      | .error f =>
        let (e, es) := endSetup o f
        ⟨e, o.verbosity, configured.events ++ es, w.tree⟩
      | .ok full => match buildPipeline w full with
        | .error f =>
          let (e, es) := endSetup full f
          ⟨e, o.verbosity, configured.events ++ es, w.tree⟩
        | .ok (choice, p) =>
          let (e, es, t) := work w full choice p
          ⟨e, o.verbosity, configured.events ++ es, t⟩

end StyleShield.CommandLine
