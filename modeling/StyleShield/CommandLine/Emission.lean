import StyleShield.CommandLine.Workplace
import StyleShield.FileTree.Write
import StyleShield.Pipeline
import StyleShield.Targets

/-! Compiling the planned inputs in turn and putting out each result before the next input
is compiled. The tree changes on the way; the first fault ends the work. -/
namespace StyleShield.CommandLine

def putOut (cwd : Place) (codecs : Codecs) (t : FileTree) (f : StyleFile) : Target → FileTree × Run Unit
  | none =>
    match f.text codecs with
    | .ok s => (t, Run.emit (.printed s))
    | .error e => (t, Run.fail e)
  | some target =>
    match (f.text codecs).bind (codecs.named f.encoding).encode with
    | .error e => (t, Run.fail e)
    | .ok bytes =>
      let (t', failure) := t.write cwd target bytes
      match failure with
      | some e => (t', Run.fail e)
      | none => (t', do
          Run.emit (.wrote target bytes)
          Run.log .commandLine .info ("Wrote ".toList ++ target.text))

def withTree (p : Pipeline) (compilerOn : FileTree → Compiler) (t : FileTree) : Pipeline :=
  { p with compiler := compilerOn t }

def perform (cwd : Place) (p : Pipeline) (compilerOn : FileTree → Compiler) (t : FileTree)
    (job : StyleFile × Target) : FileTree × Run Unit :=
  let r := (withTree p compilerOn t).process job.1
  match r.result with
  | .error e => (t, ⟨r.events, .error e⟩)
  | .ok outcome => match outcome.file? job.1 with
    | none => (t, ⟨r.events, .ok ()⟩)
    | some f =>
      let (t', put) := putOut cwd p.codecs t f job.2
      (t', ⟨r.events ++ put.events, put.result⟩)

def performAll (cwd : Place) (p : Pipeline) (compilerOn : FileTree → Compiler) :
    FileTree → List (StyleFile × Target) → FileTree × Run Unit
  | t, [] => (t, pure ())
  | t, job :: jobs =>
    let (t₁, r) := perform cwd p compilerOn t job
    match r.result with
    | .error e => (t₁, ⟨r.events, .error e⟩)
    | .ok () =>
      let (t₂, rest) := performAll cwd p compilerOn t₁ jobs
      (t₂, ⟨r.events ++ rest.events, rest.result⟩)

end StyleShield.CommandLine
