import StyleShield.CommandLine.Report
import StyleShield.Shell.Run

/-! The program. What the arguments name is read into a tree, the run is made on that tree, and
its events are carried out one by one. No Sass engine is linked, and commands are started
by the library's own shell. -/
namespace StyleShield.CommandLine

/-- A tree with a file, or with a directory and what a search of it can reach. -/
partial def survey (t : FileTree) (p : Path) : IO FileTree := do
  let here ← IO.currentDir
  let entry := here / String.ofList p.text
  if ← entry.isDir then
    let t := t.plant p.names .directory
    (← entry.readDir).foldlM (fun t e =>
      let name := e.fileName.toList
      if name ∈ Discovery.excluded then pure t else survey t (p.child name)) t
  else if ← entry.pathExists then
    return t.plant p.names (.file (← IO.FS.readBinFile entry).toList)
  else return t

/-- What the words name, what lies where settings are sought, and the current directory. -/
def surveyAll (cwd : Place) (words : List Text) : IO FileTree := do
  let settings := (Settings.ancestors cwd).flatMap fun d =>
    Settings.fileNames.map fun n => FileTree.pathOf (d ++ [n])
  let named := (words.filter (· ≠ [])).map fun w =>
    FileTree.pathOf (FileTree.collapse (FileTree.pathOf cwd ++ Path.ofText w).names)
  (settings ++ named).foldlM survey (FileTree.plant ⟨[]⟩ cwd .directory)

/-- One event carried out. A file is written beside its target and then takes its place. -/
def carryOut (verbosity : Int) : Event → IO Unit
  | .printed s => do (← IO.getStdout).putStr (String.ofList s)
  | .complained s => IO.eprint (String.ofList s)
  | .logged r => if Log.isShown verbosity r.level then IO.eprint (String.ofList r.line) else pure ()
  | .wrote target bytes => do
    let name := String.ofList target.text
    IO.FS.createDirAll (String.ofList target.parent.text)
    let beside := String.ofList (FileTree.besideName target.text)
    IO.FS.writeBinFile beside bytes.toByteArray
    IO.FS.rename beside name
  | .compiled _ _ => pure ()

def conclude : Ending → IO UInt32
  | .returned code => pure code.toUInt32
  | .stopped s => do
    (← IO.getStdout).putStr (String.ofList s.output)
    IO.eprint (String.ofList s.complaint)
    return s.code.toUInt32
  | .escaped f => do
    IO.eprintln (String.ofList f.message)
    return 1

def inputFor (words : List Text) : IO Bytes := do
  if Options.standard ∈ words then return (← (← IO.getStdin).readBinToEnd).toList else return []

end StyleShield.CommandLine

open StyleShield CommandLine in
def main (args : List String) : IO UInt32 := do
  let words := args.map String.toList
  let cwd := (Path.ofText (← IO.currentDir).toString.toList).names
  let tree ← surveyAll cwd words
  let tools : Toolbox := ⟨none, Shell.launcher⟩
  let report := run ⟨tree, cwd, ← inputFor words, Toml.usualRoom, tools.compilerFor cwd⟩ words
  report.events.forM (carryOut report.verbosity)
  conclude report.ending
