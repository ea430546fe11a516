import StyleShield.StyleFile

/-! Where compiled files go: below an output directory under their relative path, to one
output file, or to the standard output. Two files with one target are a clash. -/
namespace StyleShield

/-- The target of a file; none is the standard output. -/
abbrev Target := Option Path

namespace Target

def compiledExt : Text := ['.', 'c', 's', 's']

def below (directory : Path) (f : StyleFile) : Except Fault Target :=
  match f.relative.withExtension? compiledExt with
  | none => .error (.emptyName f.relative)
  | some r => .ok (some (directory ++ r))

def allBelow (directory : Path) : List StyleFile → Except Fault (List Target)
  | [] => .ok []
  | f :: fs => do
    let t ← below directory f
    let ts ← allBelow directory fs
    return t :: ts

/-- The targets of all files. An empty directory name counts as none. -/
def assign (output : Text) (outputDir : Option Text) (files : List StyleFile) : Except Fault (List Target) :=
  match outputDir with
  | some (c :: d) => allBelow (Path.ofText (c :: d)) files
  | _ =>
    if files.length = 1 ∧ output ≠ ['-'] then .ok [some (Path.ofText output)]
    else .ok (files.map fun _ => none)

structure Clash where
  first : Path
  second : Path
  target : Path
  deriving DecidableEq

def Clash.text (c : Clash) : Text :=
  c.first.text ++ " and ".toList ++ c.second.text ++ " would both be written to ".toList ++ c.target.text

/-- The first file whose target was taken before, given the targets taken so far. -/
def clashAfter (claimed : List (Path × StyleFile)) : List (StyleFile × Target) → Option Clash
  | [] => none
  | (_, none) :: rest => clashAfter claimed rest
  | (f, some t) :: rest =>
    match claimed.find? fun c => c.1 = t with
    | some c => some ⟨c.2.path, f.path, t⟩
    | none => clashAfter ((t, f) :: claimed) rest

def clash? (files : List StyleFile) (targets : List Target) : Option Clash :=
  clashAfter [] (files.zip targets)

end Target
end StyleShield
