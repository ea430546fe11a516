import StyleShield.CommandLine.Workplace
import StyleShield.Discovery
import StyleShield.Options.Basic
import StyleShield.Pipeline
import StyleShield.Targets

/-! The inputs of a run and their targets. Everything is read before anything is written:
a missing path, an unreadable file, two inputs for one output or a clash of targets
ends the run while the tree is still as it was. -/
namespace StyleShield.CommandLine

def bufferOf (t : FileTree) (found : Found) : Except Fault StyleFile :=
  match t.read [] found.path with
  | .ok b => .ok ⟨found.path, .buffer b, Codec.utf8Name, some found.base⟩
  | .error e => .error e

def bufferAll (t : FileTree) : List Found → Except Fault (List StyleFile)
  | [] => .ok []
  | found :: rest => do
    let f ← bufferOf t found
    let fs ← bufferAll t rest
    return f :: fs

/-- The standard input as a stylesheet of the current directory. -/
def standardInput (w : Workplace) : StyleFile :=
  ⟨w.cwdPath.child "stdin".toList, .buffer w.input, Codec.utf8Name, some w.cwdPath⟩

/-- The standard input first, if it is named at all, then all files that are found. -/
def readInputs (w : Workplace) (o : Options) : Except Fault (List StyleFile) :=
  let first := if Options.standard ∈ o.files then [standardInput w] else []
  let paths := o.files.filter (· ≠ Options.standard)
  if paths = [] then .ok first
  else do
    let found ← Discovery.find w.tree w.cwd paths (o.includes.map (·.map Given.orEmpty))
    let files ← bufferAll w.tree found
    return first ++ files

/-- The inputs that are not ignored; each ignored one is reported. -/
def keepWanted (p : Pipeline) : List StyleFile → Run (List StyleFile)
  | [] => pure []
  | f :: fs =>
    if p.ignoresFile f then do
      Run.log .commandLine .info ("Not packing ignored file ".toList ++ f.path.text)
      keepWanted p fs
    else (f :: ·) <$> keepWanted p fs

/-- Why inputs that can be read are refused all the same. -/
inductive Refusal where
  | severalInputs
  | clash (c : Target.Clash)
  deriving DecidableEq

def Refusal.text : Refusal → Text
  | severalInputs => "--output takes a single input; use --output-dir".toList
  | clash c => c.text

/-- The output directory, if one is named; an empty name counts as none. -/
def outputDirOf (o : Options) : Option Text :=
  match o.outputDir with
  | some (.text (c :: d)) => some (c :: d)
  | _ => none

/-- The targets of the inputs. A single input cannot go to an output without a name. -/
def targetsFor (o : Options) (files : List StyleFile) : Except Fault (List Target) :=
  match o.output with
  | .text name => Target.assign name (outputDirOf o) files
  | .nothing =>
    if (outputDirOf o).isNone ∧ files.length = 1 then .error .missingOutput
    else Target.assign Options.standard (outputDirOf o) files

/-- The inputs with their targets, or why there is no such plan. -/
def planFor (o : Options) (files : List StyleFile) : Except Fault (Except Refusal (List (StyleFile × Target))) :=
  if 1 < files.length ∧ (outputDirOf o).isNone ∧ o.output ≠ .text Options.standard then .ok (.error .severalInputs)
  else do
    let targets ← targetsFor o files
    match Target.clash? files targets with
    | some c => return .error (.clash c)
    | none => return .ok (files.zip targets)

def plan (w : Workplace) (o : Options) (p : Pipeline) : Run (Except Refusal (List (StyleFile × Target))) := do
  let files ← Run.ofExcept (readInputs w o)
  let wanted ← keepWanted p files
  Run.ofExcept (planFor o wanted)

end StyleShield.CommandLine
