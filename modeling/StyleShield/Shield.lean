import StyleShield.Import
import StyleShield.Placeholder
import StyleShield.Run

/-! Shielding takes import statements out of a stylesheet and leaves numbered
placeholders; restoring puts the statements back where their placeholders are now.
Both read the text once, piece by piece, so what is put in is never read again. -/
namespace StyleShield

namespace Statement

/-- A file extension: a dot, some ASCII letters or digits, and then a quote. -/
def isExtension (s : Text) : Bool :=
  !(s.takeWhile Char.isAlphanum).isEmpty &&
    match s.dropWhile Char.isAlphanum with
    | q :: _ => isQuote q
    | [] => false

def replaceExtension (ext : Text) : Text → Text
  | [] => []
  | c :: s =>
    if c = '.' ∧ isExtension s then ext ++ s.dropWhile Char.isAlphanum
    else c :: replaceExtension ext s

end Statement

/-- A text whose imports have been taken out, and the imports by placeholder index. -/
structure Shielded where
  text : Text
  imports : List Text
  deriving DecidableEq

namespace Shield

def imports (ignored : Text → Bool) : List (Piece Statement) → List Text
  | [] => []
  | .char _ :: ps => imports ignored ps
  | .token s :: ps => if ignored s.path then imports ignored ps else s.written :: imports ignored ps

/-- The text with a placeholder for each statement that is not ignored, numbered from `n`. -/
def mask (ignored : Text → Bool) : (n : Nat) → List (Piece Statement) → Text
  | _, [] => []
  | n, .char c :: ps => c :: mask ignored n ps
  | n, .token s :: ps =>
    if ignored s.path then s.written ++ mask ignored n ps
    else Placeholder.tight n ++ mask ignored (n + 1) ps

def extract (ignored : Text → Bool) (content : Text) : Shielded :=
  let ps := Statement.lexeme.pieces content
  ⟨mask ignored 0 ps, imports ignored ps⟩

theorem imports_of_all {ignored : Text → Bool} (h : ∀ c, ignored c = true) (ps : List (Piece Statement)) :
    imports ignored ps = [] := by
  induction ps with
  | nil => rfl
  | cons p ps ih => cases p <;> simp [imports, h, ih]

theorem mask_of_all {ignored : Text → Bool} (h : ∀ c, ignored c = true) (n : Nat)
    (ps : List (Piece Statement)) : mask ignored n ps = Statement.lexeme.render ps := by
  induction ps with
  | nil => rfl
  | cons p ps ih => cases p <;> simp [mask, h, ih, Lexeme.renderPiece, Statement.lexeme]

theorem extract_of_all {ignored : Text → Bool} (h : ∀ c, ignored c = true) (content : Text) :
    extract ignored content = ⟨content, []⟩ := by
  simp [extract, imports_of_all h, mask_of_all h, Lexeme.render_pieces]

def unresolved (p : Placeholder) (count : Nat) : Text :=
  "Unresolved import placeholder ".toList ++ Text.quoted p.written ++ ": index ".toList ++
    Text.ofNat p.index ++ " but only ".toList ++ Text.ofNat count ++ " imports recorded".toList

/-- What stands for a placeholder: its import, or itself with a warning if it has none. An
empty extension means that extensions stay. -/
def resolve (imports : List Text) (ext : Text) (p : Placeholder) : Run Text :=
  if Text.digitLimit < p.digits.length then Run.fail (.digitLimit p.digits.length)
  else match imports[p.index]? with
    | some s => pure (if ext = [] then s else Statement.replaceExtension ext s)
    | none => do
      Run.log .importShield .warning (unresolved p imports.length)
      return p.written

def restorePieces (imports : List Text) (ext : Text) : List (Piece Placeholder) → Run Text
  | [] => pure []
  | .char c :: ps => (c :: ·) <$> restorePieces imports ext ps
  | .token p :: ps => do
    let s ← resolve imports ext p
    let rest ← restorePieces imports ext ps
    return s ++ rest

def restore (content : Text) (imports : List Text) (ext : Text) : Run Text :=
  restorePieces imports ext (Placeholder.lexeme.pieces content)

end Shield
end StyleShield
