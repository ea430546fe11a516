import StyleShield.Fault
import StyleShield.Table

/-! A file tree maps places, the names from the root down, to files, directories and
symbolic links. Looking up a path follows links name by name, at most forty in all;
a double dot leads to the directory above the one reached so far, and a single dot stays
there. Names and paths have a greatest length. -/
namespace StyleShield

inductive Entry where
  | file (contents : Bytes)
  | directory
  | link (target : Text)
  deriving DecidableEq

/-- Names from the root down. -/
abbrev Place := List Text

structure FileTree where
  entries : Table Place Entry
  deriving DecidableEq

namespace FileTree

def dot : Text := ['.']
def dotDot : Text := ['.', '.']

/-- The most bytes in a name, and in a path. -/
def nameLimit : Nat := 255
def pathLimit : Nat := 4095

def isLong (limit : Nat) (s : Text) : Bool := limit < (Encoding.utf8Bytes s).length

/-- The entry at a place; the root is a directory. -/
def entryAt? (t : FileTree) (p : Place) : Option Entry :=
  if p = [] then some .directory else Table.find? t.entries p

def put (t : FileTree) (p : Place) (e : Entry) : FileTree := ⟨Table.put t.entries p e⟩

theorem entryAt?_put {t : FileTree} {p : Place} (h : p ≠ []) (e : Entry) (q : Place) :
    (t.put p e).entryAt? q = if p = q then some e else t.entryAt? q := by
  by_cases hq : q = []
  · have hp : p ≠ q := fun hpq => h (hpq.trans hq)
    simp [entryAt?, hq, h]
  · simp [entryAt?, hq, put, Table.find?_put]

def children (t : FileTree) (directory : Place) : List (Text × Entry) :=
  t.entries.filterMap fun (p, e) => match p.getLast? with
    | some n => if p = directory ++ [n] then some (n, e) else none
    | none => none

theorem mem_children {t : FileTree} {directory : Place} {n : Text} {e : Entry} :
    (n, e) ∈ t.children directory ↔ (directory ++ [n], e) ∈ t.entries := by
  rw [children, List.mem_filterMap]
  constructor
  · rintro ⟨⟨p, e'⟩, hm, h⟩
    cases hp : p.getLast? with
    | none => simp [hp] at h
    | some n' =>
      simp only [hp, Option.ite_none_right_eq_some, Option.some.injEq, Prod.mk.injEq] at h
      obtain ⟨rfl, rfl, rfl⟩ := h
      exact hm
  · intro hm
    exact ⟨_, hm, by simp⟩

def height (t : FileTree) : Nat := t.entries.foldr (fun e h => max e.1.length h) 0

theorem length_le_height {t : FileTree} {p : Place} {e : Entry} (h : (p, e) ∈ t.entries) :
    p.length ≤ t.height := by
  obtain ⟨es⟩ := t
  change p.length ≤ es.foldr (fun e h => max e.1.length h) 0
  induction es with
  | nil => simp at h
  | cons x es ih =>
    rw [List.foldr_cons]
    rcases List.mem_cons.1 h with rfl | h
    · exact Nat.le_max_left _ _
    · exact Nat.le_trans (ih h) (Nat.le_max_right _ _)

def asksForDirectory (target : Text) : Bool :=
  match (Text.splitOn '/' target).getLast? with
  | some n => n = [] ∨ n = dot
  | none => false

/-- Where a link's target is looked up from, and the names of the target. A target that asks for
a directory ends in a dot. -/
def followFrom (directory : Place) (target : Text) : Place × List Text :=
  let p := Path.ofText target
  (if p.isAbsolute then [] else directory, p.names ++ if asksForDirectory target then [dot] else [])

/-- Look up `names` from the directory `cur`, following at most `links` links. The last name is
followed only if `last` says so. -/
def lookup (t : FileTree) (last : Bool) : (links : Nat) → (cur : Place) → (names : List Text) →
    Except SystemError Place
  | _, cur, [] => .ok cur
  | links, cur, n :: rest =>
    match t.entryAt? cur with
    | some .directory =>
      if n = dotDot then lookup t last links cur.dropLast rest
      else if n = dot then lookup t last links cur rest
      else if isLong nameLimit n then .error .nameTooLong
      else match t.entryAt? (cur ++ [n]) with
        | none => .error .noEntry
        | some (.link target) =>
          if rest = [] ∧ last = false then .ok (cur ++ [n])
          else match links with
            | 0 => .error .tooManyLinks
            | links + 1 =>
              let (start, names) := followFrom cur target
              lookup t last links start (names ++ rest)
        | some _ => lookup t last links (cur ++ [n]) rest
    | none => .error .noEntry
    | some _ => .error .notDirectory
termination_by links _ names => (links, names.length)

def linkLimit : Nat := 40

def startOf (cwd : Place) (p : Path) : Place := if p.isAbsolute then [] else cwd

def locate (t : FileTree) (cwd : Place) (p : Path) : Except SystemError Place :=
  if isLong pathLimit p.text then .error .nameTooLong else lookup t true linkLimit (startOf cwd p) p.names

/-- The place of the path itself, which may be a link. -/
def locateSelf (t : FileTree) (cwd : Place) (p : Path) : Except SystemError Place :=
  if isLong pathLimit p.text then .error .nameTooLong else lookup t false linkLimit (startOf cwd p) p.names

def find (t : FileTree) (cwd : Place) (p : Path) : Except SystemError Entry :=
  match t.locate cwd p with
  | .error e => .error e
  | .ok place => match t.entryAt? place with
    | some e => .ok e
    | none => .error .noEntry

def directoryAt? (t : FileTree) (cwd : Place) (p : Path) : Option Place :=
  match t.locate cwd p with
  | .ok place => if t.entryAt? place = some .directory then some place else none
  | .error _ => none

def fileAt? (t : FileTree) (cwd : Place) (p : Path) : Option Place :=
  match t.locate cwd p with
  | .ok place => match t.entryAt? place with
    | some (.file _) => some place
    | _ => none
  | .error _ => none

def isFile (t : FileTree) (cwd : Place) (p : Path) : Bool := (t.fileAt? cwd p).isSome

def isDirectory (t : FileTree) (cwd : Place) (p : Path) : Bool := (t.directoryAt? cwd p).isSome

/-- What is known about a path. Too long a name on the way is a fault; a path that cannot be
looked up for another reason just leads to nothing. -/
def ask {α : Type} (t : FileTree) (cwd : Place) (p : Path) (answer : α) : Except Fault α :=
  match t.locate cwd p with
  | .error .nameTooLong => .error (.system .nameTooLong p.text)
  | _ => .ok answer

def read (t : FileTree) (cwd : Place) (p : Path) : Except Fault Bytes :=
  match t.find cwd p with
  | .ok (.file b) => .ok b
  | .ok _ => .error (.system .isDirectory p.text)
  | .error e => .error (.system e p.text)

/-- An absolute path for a place. -/
def pathOf (p : Place) : Path := ⟨.slash, p⟩

/-- Double dots taken against the name before them. -/
def collapse (names : List Text) : Place :=
  names.foldl (fun done n => if n = dotDot then done.dropLast else if n = dot then done else done ++ [n]) []

/-- How far names led: to a place, whether by a link or path from the root, and whether all
names were used up. -/
structure Trail where
  place : Place
  fromRoot : Bool
  complete : Bool

/-- Names with all links followed as far as the tree goes; beyond, names stand as they are.
`active` holds the links being followed; a link met from the root is told apart from the same
link met along a relative path. Meeting one again ends the search, and so does the end of
`depth`, which counts the links that may be inside one another. -/
def real (t : FileTree) : (depth : Nat) → (active : List (Bool × Place)) → (fromRoot : Bool) →
    (cur : Place) → (names : List Text) → Trail
  | _, _, fromRoot, cur, [] => ⟨cur, fromRoot, true⟩
  | depth, active, fromRoot, cur, n :: rest =>
    if n = dotDot then real t depth active fromRoot cur.dropLast rest
    else if n = dot then real t depth active fromRoot cur rest
    else match t.entryAt? (cur ++ [n]) with
      | some (.link target) =>
        match depth with
        | 0 => ⟨cur ++ n :: rest, fromRoot, false⟩
        | depth + 1 =>
          if (fromRoot, cur ++ [n]) ∈ active then ⟨cur ++ n :: rest, fromRoot, false⟩
          else
            let (start, names) := followFrom cur target
            let inner := real t depth ((fromRoot, cur ++ [n]) :: active)
              (fromRoot || (Path.ofText target).isAbsolute) start names
            if inner.complete then real t (depth + 1) active inner.fromRoot inner.place rest
            else { inner with place := inner.place ++ rest }
      | _ => real t depth active fromRoot (cur ++ [n]) rest
termination_by depth _ _ _ names => (depth, names.length)

/-- The place that a path stands for, whether or not anything is there. -/
def resolve (t : FileTree) (cwd : Place) (p : Path) : Except Fault Place :=
  let place := collapse (t.real (2 * t.entries.length + 1) [] p.isAbsolute (startOf cwd p) p.names).place
  match t.locate [] (pathOf place) with
  | .error .tooManyLinks => .error (.linkLoop (pathOf place))
  | _ => .ok place

end FileTree
end StyleShield
