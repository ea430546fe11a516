import StyleShield.FileTree.Basic
import StyleShield.Settings.Basic
import StyleShield.Toml.Document

/-! Settings files. The nearest directory that has one decides, and in a directory the
first of three names; a project file counts only if it has a section for this
program. -/
namespace StyleShield.Settings

def projectFile : Text := "pyproject.toml".toList

/-- The names of settings files, the preferred one first. -/
def fileNames : List Text := [".lightcss.toml".toList, "lightcss.toml".toList, projectFile]

def toolKey : Text := "tool".toList

def occursIn (part : Text) : Text → Bool
  | [] => part = []
  | c :: s => part.isPrefixOf (c :: s) || occursIn part s

/-- Whether a value mentions the program: a text as a part, a list as an item, a table as a
key. Nothing can be sought in other values. -/
def mentions : Toml.Value → Except Fault Bool
  | .string s => .ok (occursIn pluginName s)
  | .array items => .ok (items.any fun v => v.string? = some pluginName)
  | .table entries => .ok ((Table.find? entries pluginName).isSome)
  | _ => .error .notSearchable

def hasSection (room : Nat) (b : Bytes) : Except Fault Bool :=
  match Toml.readBytes room b with
  | .error .malformedToml => .ok false
  | .error e => .error e
  | .ok data => match Table.find? data toolKey with
    | none => .ok false
    | some tool => mentions tool

/-- The table that the value of a key holds, empty if the key is missing. -/
def sectionAt (key : Text) (data : List (Text × Toml.Value)) : Except Fault (List (Text × Toml.Value)) :=
  match Table.find? data key with
  | none => .ok []
  | some (.table inner) => .ok inner
  | some _ => .error .notTable

def ofFile (room : Nat) (name : Text) (b : Bytes) : Except Fault Settings := do
  let data ← Toml.readBytes room b
  if name = projectFile then
    let tool ← sectionAt toolKey data
    let own ← sectionAt pluginName tool
    ofTable own
  else ofTable data

def counts (room : Nat) (t : FileTree) (directory : Place) (name : Text) : Except Fault Bool :=
  let p := FileTree.pathOf (directory ++ [name])
  match t.ask [] p (t.isFile [] p) with
  | .error e => .error e
  | .ok false => .ok false
  | .ok true =>
    if name = projectFile then
      match t.read [] p with
      | .ok b => hasSection room b
      | .error _ => .ok false
    else .ok true

def firstIn (room : Nat) (t : FileTree) (directory : Place) : (names : List Text) → Except Fault (Option Path)
  | [] => .ok none
  | n :: ns => match counts room t directory n with
    | .error e => .error e
    | .ok true => .ok (some (FileTree.pathOf (directory ++ [n])))
    | .ok false => firstIn room t directory ns

def ancestors (p : Place) : List Place :=
  (List.range (p.length + 1)).map fun i => p.take (p.length - i)

def firstAmong (room : Nat) (t : FileTree) : List Place → Except Fault (Option Path)
  | [] => .ok none
  | d :: ds => match firstIn room t d fileNames with
    | .error e => .error e
    | .ok (some p) => .ok (some p)
    | .ok none => firstAmong room t ds

def find (room : Nat) (t : FileTree) (start : Place) : Except Fault (Option Path) :=
  firstAmong room t (ancestors start)

def load (room : Nat) (t : FileTree) (p : Path) : Except Fault Settings := do
  let b ← t.read [] p
  ofFile room p.name b

end StyleShield.Settings
