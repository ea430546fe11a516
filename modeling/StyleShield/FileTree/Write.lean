import StyleShield.FileTree.Basic

/-! Writing. A file is written beside its target and then takes its place, so a link at
the target is replaced and not followed. Missing parent directories are made first. -/
namespace StyleShield.FileTree

def makeDirectory (t : FileTree) (cwd : Place) (p : Path) : Except SystemError FileTree :=
  match p.names.getLast? with
  | none => .error .alreadyThere
  | some n =>
    match t.locate cwd p.parent with
    | .error e => .error e
    | .ok above =>
      if n = dotDot then
        if t.entryAt? above = some .directory then .error .alreadyThere else .error .notDirectory
      else match t.entryAt? above with
        | some .directory =>
          if isLong nameLimit n then .error .nameTooLong
          else if (t.entryAt? (above ++ [n])).isSome then .error .alreadyThere
          else .ok (t.put (above ++ [n]) .directory)
        | _ => .error .notDirectory

def ensureDirectory (t : FileTree) (cwd : Place) (p : Path) : Except Fault FileTree :=
  match t.makeDirectory cwd p with
  | .ok t' => .ok t'
  | .error e => if t.isDirectory cwd p then .ok t else .error (.system e p.text)

/-- A directory and all those above it that are missing. A failure keeps the directories made
before it. -/
def ensureDirectories (t : FileTree) (cwd : Place) (p : Path) : FileTree × Option Fault :=
  match t.makeDirectory cwd p with
  | .ok t' => (t', none)
  | .error .noEntry =>
    if _h : p.names = [] then (t, some (.system .noEntry p.text))
    else
      let (t₁, failure) := ensureDirectories t cwd p.parent
      match failure with
      | some f => (t₁, some f)
      | none => match t₁.ensureDirectory cwd p with
        | .ok t₂ => (t₂, none)
        | .error f => (t₁, some f)
  | .error e => if t.isDirectory cwd p then (t, none) else (t, some (.system e p.text))
termination_by p.names.length
decreasing_by
  simp only [Path.parent, List.length_dropLast]
  have := List.length_pos_iff.2 _h
  omega

/-- The place that swallows whatever is written to it. -/
def nullDevice : Path := Path.ofText "/dev/null".toList

/-- The file that is written first. -/
def besideName (name : Text) : Text := name ++ ['.', 'p', 'a', 'r', 't', 'i', 'a', 'l']

/-- The tree after a write, and the fault that stopped it, if any. The directories that a write
needs stay even if it fails. -/
def write (t : FileTree) (cwd : Place) (target : Path) (contents : Bytes) : FileTree × Option Fault :=
  if target = nullDevice then (t, none)
  else match target.names.getLast? with
    | none => (t, some (.emptyName target))
    | some n =>
      if target.names.any (·.contains '\x00') then (t, some .nullCharacter)
      else
        let (t₁, failure) := t.ensureDirectories cwd target.parent
        match failure with
        | some f => (t₁, some f)
        | none =>
          if t₁.isDirectory cwd target then (t₁, some (.targetIsDirectory target))
          else if isLong nameLimit (besideName n) ∨ isLong pathLimit (besideName target.text) then
            (t₁, some (.system .nameTooLong target.text))
          else match t₁.locate cwd target.parent with
            | .ok above => (t₁.put (above ++ [n]) (.file contents), none)
            | .error e => (t₁, some (.system e target.text))

def plantDirectories (t : FileTree) (above : Place) : (names : List Text) → FileTree
  | [] => t
  | n :: ns =>
    let p := above ++ [n]
    plantDirectories (if (t.entryAt? p).isSome then t else t.put p .directory) p ns

/-- The tree with a place filled, and with the directories above it. -/
def plant (t : FileTree) (p : Place) (e : Entry) : FileTree :=
  (t.plantDirectories [] p.dropLast).put p e

end StyleShield.FileTree
