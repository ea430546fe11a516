import StyleShield.Text.Basic

/-! A lexeme is a kind of token with a way to write it and a way to read one at the
start of a text. `pieces` reads a text from left to right: wherever a token starts it
is taken whole, anything else passes as single characters. Nothing is lost:
`render_pieces` says that the pieces write the text they were read from. -/
namespace StyleShield

structure Lexeme (τ : Type) where
  written : τ → Text
  read : Text → Option (τ × Text)
  written_ne_nil : ∀ t, written t ≠ []
  eq_of_read : ∀ {s t r}, read s = some (t, r) → s = written t ++ r

inductive Piece (τ : Type) where
  | char (c : Char)
  | token (t : τ)
  deriving DecidableEq

namespace Lexeme

variable {τ : Type} (L : Lexeme τ)

theorem length_lt_of_read {s r : Text} {t : τ} (h : L.read s = some (t, r)) :
    r.length < s.length := by
  have h₁ := congrArg List.length (L.eq_of_read h)
  have h₂ := List.length_pos_iff.2 (L.written_ne_nil t)
  simp only [List.length_append] at h₁
  omega

/-- The greedy reading of a text. -/
def pieces : Text → List (Piece τ)
  | [] => []
  | c :: cs =>
    match _h : L.read (c :: cs) with
    | some (t, r) => .token t :: pieces r
    | none => .char c :: pieces cs
termination_by s => s.length
decreasing_by
  · exact L.length_lt_of_read _h
  · simp

@[simp] theorem pieces_nil : L.pieces [] = [] := by rw [pieces]

theorem pieces_of_read {s r : Text} {t : τ} (h : L.read s = some (t, r)) :
    L.pieces s = .token t :: L.pieces r := by
  cases s with
  | nil => have := L.length_lt_of_read h; simp at this
  | cons c cs => rw [pieces]; split <;> simp_all

theorem pieces_of_read_none {c : Char} {cs : Text} (h : L.read (c :: cs) = none) :
    L.pieces (c :: cs) = .char c :: L.pieces cs := by
  rw [pieces]; split <;> simp_all

def renderPiece : Piece τ → Text
  | .char c => [c]
  | .token t => L.written t

def render (ps : List (Piece τ)) : Text := ps.flatMap L.renderPiece

@[simp] theorem render_nil : L.render [] = [] := rfl
@[simp] theorem render_cons (p : Piece τ) (ps : List (Piece τ)) :
    L.render (p :: ps) = L.renderPiece p ++ L.render ps := rfl
@[simp] theorem render_append (ps qs : List (Piece τ)) :
    L.render (ps ++ qs) = L.render ps ++ L.render qs := by simp [render]

theorem render_pieces (s : Text) : L.render (L.pieces s) = s := by
  fun_induction pieces L s with
  | case1 => rfl
  | case2 c cs t r h ih => simp [renderPiece, ih, L.eq_of_read h]
  | case3 c cs h ih => simp [renderPiece, ih]

def tokens (s : Text) : List τ :=
  (L.pieces s).filterMap fun
    | .char _ => none
    | .token t => some t

end Lexeme
end StyleShield
