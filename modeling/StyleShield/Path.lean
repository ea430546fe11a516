import StyleShield.Text.Basic

/-! File paths. A path is an anchor and a list of names; empty names and single dots
are dropped when a text is read, double dots stay. Two leading slashes are an anchor
of their own, three or more count as one. -/
namespace StyleShield

inductive Anchor where
  | none | slash | doubleSlash
  deriving DecidableEq, Repr

def Anchor.text : Anchor → Text
  | .none => []
  | .slash => ['/']
  | .doubleSlash => ['/', '/']

structure Path where
  anchor : Anchor
  names : List Text
  deriving DecidableEq, Repr

namespace Path

/-- The anchor that a run of leading slashes stands for. -/
def anchorOf : Text → Anchor
  | '/' :: '/' :: '/' :: _ => .slash
  | '/' :: '/' :: _ => .doubleSlash
  | '/' :: _ => .slash
  | _ => .none

def namesOf (s : Text) : List Text :=
  (Text.splitOn '/' s).filter fun n => n ≠ [] ∧ n ≠ ['.']

def ofText (s : Text) : Path := ⟨anchorOf s, namesOf s⟩

/-- The written path; the empty relative path is a dot. -/
def text (p : Path) : Text :=
  match p.anchor, p.names with
  | .none, [] => ['.']
  | a, ns => a.text ++ Text.join ['/'] ns

def isAbsolute (p : Path) : Bool := p.anchor ≠ .none

def name (p : Path) : Text := p.names.getLast?.getD []

def bareName (p : Path) : Path := ⟨.none, p.names.getLast?.toList⟩

/-- The path without its last name; a path without names is its own parent. -/
def parent (p : Path) : Path := { p with names := p.names.dropLast }

/-- `q` below `p`; an anchored `q` stands for itself. -/
def append (p q : Path) : Path :=
  if q.anchor = .none then { p with names := p.names ++ q.names } else q

instance : Append Path := ⟨append⟩

def child (p : Path) (n : Text) : Path := { p with names := p.names ++ [n] }

theorem append_of_relative {p q : Path} (h : q.anchor = .none) :
    p ++ q = ⟨p.anchor, p.names ++ q.names⟩ := by
  change append p q = _
  simp [append, h]

def below? (base p : Path) : Option Path :=
  if base.anchor = p.anchor ∧ base.names.isPrefixOf p.names then
    some ⟨.none, p.names.drop base.names.length⟩
  else none

theorem below?_append {base r : Path} (h : r.anchor = .none) : below? base (base ++ r) = some r := by
  cases r
  simp_all [below?, append_of_relative]

/-- Where the extension of a name starts: its last dot, if that is neither its first nor
its last character. -/
def extensionStart? (n : Text) : Option Nat :=
  let after := n.reverse.takeWhile (· ≠ '.')
  let start := n.length - after.length
  if start ≤ 1 ∨ after = [] then none else some (start - 1)

def nameWithExtension (ext n : Text) : Text :=
  match extensionStart? n with
  | some i => n.take i ++ ext
  | none => n ++ ext

def withExtension? (ext : Text) (p : Path) : Option Path :=
  match p.names.getLast? with
  | none => none
  | some n => some { p with names := p.names.dropLast ++ [nameWithExtension ext n] }

def compareText : Text → Text → Ordering
  | [], [] => .eq
  | [], _ :: _ => .lt
  | _ :: _, [] => .gt
  | a :: s, b :: t => (compare a.toNat b.toNat).then (compareText s t)

/-- Order of name lists: name by name, a shorter list before its extensions. -/
def compareNames : List Text → List Text → Ordering
  | [], [] => .eq
  | [], _ :: _ => .lt
  | _ :: _, [] => .gt
  | a :: s, b :: t => (compareText a b).then (compareNames s t)

def le (p q : Path) : Bool := compareNames p.names q.names ≠ .gt

end Path
end StyleShield
