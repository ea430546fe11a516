import StyleShield.FileTree.Basic
import StyleShield.Glob.Parser

/-! Finding stylesheets. A named file is always taken, with its own directory as base. A
named directory is searched for files whose name the include patterns match, except
below directories that hold other people's or built files, and is the base of what
is found. The first name that reaches a file sets its base. -/
namespace StyleShield

structure Found where
  path : Path
  base : Path
  deriving DecidableEq

namespace Discovery

def defaultIncludes : List Text := ["*.less".toList, "*.scss".toList, "*.css".toList]

/-- Directories that are never entered. -/
def excluded : List Text :=
  [".git".toList, "node_modules".toList, "bower_components".toList, "dist".toList, "build".toList]

/-- The patterns that are in force; an empty list stands for the usual ones. -/
def includesOf (includes : Option (List Text)) : List Text :=
  match includes with
  | none => defaultIncludes
  | some [] => defaultIncludes
  | some gs => gs

/-- Whether an entry is listed as a file: all but directories and links that lead to one. -/
def isListed (t : FileTree) (p : Place) : Entry → Bool
  | .file _ => true
  | .directory => false
  | .link _ => !t.isDirectory [] (FileTree.pathOf p)

/-- The files with names that match, in a directory and in those below it that are entered,
down to a depth. -/
def walkDown (t : FileTree) (patterns : List Glob.Pattern) : (depth : Nat) → (directory : Place) → List Place
  | 0, _ => []
  | depth + 1, directory => (t.children directory).flatMap fun (n, e) =>
    if isListed t (directory ++ [n]) e then
      if Glob.matchPath patterns n then [directory ++ [n]] else []
    else if e = .directory ∧ n ∉ excluded then walkDown t patterns depth (directory ++ [n])
    else []

def walk (t : FileTree) (patterns : List Glob.Pattern) (directory : Place) : List Place :=
  walkDown t patterns t.height directory

/-- What one name on the command line reaches. A path with a null character is never looked up. -/
def reach (t : FileTree) (cwd : Place) (patterns : List Glob.Pattern) (raw : Text) :
    Except Fault (List Found) :=
  let p := Path.ofText raw
  match t.locate cwd p with
  | .error .nameTooLong =>
    if '\x00' ∈ raw then .error (.pathNotFound raw) else .error (.system .nameTooLong p.text)
  | .error _ => .error (.pathNotFound raw)
  | .ok place => match t.entryAt? place with
    | some (.file _) => .ok [⟨FileTree.pathOf place, FileTree.pathOf place.dropLast⟩]
    | some .directory => .ok ((walk t patterns place).map fun q => ⟨FileTree.pathOf q, FileTree.pathOf place⟩)
    | _ => .error (.pathNotFound raw)

def reachAll (t : FileTree) (cwd : Place) (patterns : List Glob.Pattern) :
    List Text → Except Fault (List Found)
  | [] => .ok []
  | raw :: rest => do
    let first ← reach t cwd patterns raw
    let later ← reachAll t cwd patterns rest
    return first ++ later

/-- Only the first of several findings of one path. -/
def distinct : List Found → List Found
  | [] => []
  | f :: fs => f :: (distinct fs).filter fun g => g.path ≠ f.path

def inOrder (fs : List Found) : List Found := fs.mergeSort fun f g => Path.le f.path g.path

def find (t : FileTree) (cwd : Place) (paths : List Text) (includes : Option (List Text)) :
    Except Fault (List Found) := do
  let patterns ← Glob.patternsOf (includesOf includes)
  let reached ← reachAll t cwd patterns paths
  return inOrder (distinct reached)

end Discovery

def Found.relative? (f : Found) : Option Path := f.base.below? f.path

end StyleShield
