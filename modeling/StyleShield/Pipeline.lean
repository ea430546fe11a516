import StyleShield.Compiler.Basic
import StyleShield.Ignore
import StyleShield.Shield
import StyleShield.StyleFile

/-! The pipeline takes one stylesheet at a time through shielding, a compiler and
restoring. Its matchers are made once; nothing else outlives a file. -/
namespace StyleShield

structure Pipeline.Options where
  ignores : List Text
  /-- Pass files through whose own path is ignored. -/
  passIgnored : Bool
  ignorePackages : Bool
  ext : Text
  deriving DecidableEq

def Pipeline.Options.default : Pipeline.Options := ⟨Ignore.matchAll, false, true, []⟩

structure Pipeline where
  codecs : Codecs
  compiler : Compiler
  matchers : List Matcher
  passIgnored : Bool
  ignorePackages : Bool
  ext : Text

namespace Pipeline

def build (codecs : Codecs) (compiler : Option Compiler) (o : Options) : Except Fault Pipeline :=
  match compiler with
  | none => .error (.settings .noCompiler)
  | some c => (Matcher.compileAll o.ignores).map fun ms =>
    ⟨codecs, c, ms, o.passIgnored, o.ignorePackages, o.ext⟩

inductive Outcome where
  | skipped
  | passed
  | compiled (file : StyleFile)
  deriving DecidableEq

def Outcome.file? (f : StyleFile) : Outcome → Option StyleFile
  | skipped => none
  | passed => some f
  | compiled g => some g

def ignoresImport (p : Pipeline) (target : Text) : Bool :=
  Ignore.ignores p.matchers p.ignorePackages target

/-- A file is judged by its path below its base and is never a package. -/
def ignoresFile (p : Pipeline) (f : StyleFile) : Bool :=
  p.passIgnored && Ignore.ignores p.matchers false f.relative.text

/-- Shield, compile and restore the text of a file. -/
def transform (p : Pipeline) (f : StyleFile) (source : Text) : Run StyleFile := do
  let s := Shield.extract p.ignoresImport source
  Run.log .pipeline .debug ("Shielded ".toList ++ Text.ofNat s.imports.length ++ " import(s) in ".toList ++
    f.path.text)
  Run.emit (.compiled s.text f.path)
  let compiled ← p.compiler s.text f.path
  let restored ← Shield.restore compiled s.imports p.ext
  Run.ofExcept (f.withText p.codecs restored)

def process (p : Pipeline) (f : StyleFile) : Run Outcome :=
  if f.isNull then do
    Run.log .pipeline .debug ("Skipping empty file ".toList ++ f.path.text)
    return .skipped
  else if p.ignoresFile f then do
    Run.log .pipeline .debug ("Passing through ignored file ".toList ++ f.path.text)
    return .passed
  else if f.isStream then Run.fail (.input .streaming)
  else do
    let source ← Run.ofExcept (f.text p.codecs)
    .compiled <$> p.transform f source

/-- Files processed in turn: what was emitted, what happened, and the fault that ended it. -/
structure Batch where
  emitted : List StyleFile
  events : List Event
  failure : Option Fault

def processAll (p : Pipeline) : List StyleFile → Batch
  | [] => ⟨[], [], none⟩
  | f :: fs =>
    let r := p.process f
    match r.result with
    | .error e => ⟨[], r.events, some e⟩
    | .ok o =>
      let rest := processAll p fs
      ⟨(o.file? f).toList ++ rest.emitted, r.events ++ rest.events, rest.failure⟩

end Pipeline
end StyleShield
