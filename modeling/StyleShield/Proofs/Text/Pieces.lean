import StyleShield.Text.Lexeme

/-! How the greedy reading goes on over joined texts. Where no token reaches from one text
into the next, the pieces of the joined text are the pieces of the two (`pieces_append`),
and every token that is found can be read where it stands. -/
namespace StyleShield

def Piece.token? {τ : Type} : Piece τ → Option τ
  | .char _ => none
  | .token t => some t

def Piece.map {τ σ : Type} (f : τ → σ) : Piece τ → Piece σ
  | .char c => .char c
  | .token t => .token (f t)

namespace Lexeme

variable {τ σ : Type} (L : Lexeme τ)

def tokensOf (ps : List (Piece τ)) : List τ := ps.filterMap Piece.token?

@[simp] theorem tokensOf_nil : tokensOf ([] : List (Piece τ)) = [] := rfl
@[simp] theorem tokensOf_char (c : Char) (ps : List (Piece τ)) :
    tokensOf (.char c :: ps) = tokensOf ps := rfl
@[simp] theorem tokensOf_token (t : τ) (ps : List (Piece τ)) :
    tokensOf (.token t :: ps) = t :: tokensOf ps := rfl
@[simp] theorem tokensOf_append (ps qs : List (Piece τ)) :
    tokensOf (ps ++ qs) = tokensOf ps ++ tokensOf qs := by simp [tokensOf]

theorem tokens_eq (s : Text) : L.tokens s = tokensOf (L.pieces s) := rfl

theorem mem_tokensOf {t : τ} {ps : List (Piece τ)} : t ∈ tokensOf ps ↔ .token t ∈ ps := by
  induction ps with
  | nil => simp
  | cons p ps ih => cases p <;> simp [ih]

theorem tokensOf_map (f : τ → σ) (ps : List (Piece τ)) :
    tokensOf (ps.map (Piece.map f)) = (tokensOf ps).map f := by
  induction ps with
  | nil => rfl
  | cons p ps ih => cases p <;> simp [Piece.map, ih]

theorem infix_render_of_mem_tokensOf {t : τ} {ps : List (Piece τ)} (h : t ∈ tokensOf ps) :
    L.written t <:+: L.render ps := by
  obtain ⟨ps, qs, rfl⟩ := List.append_of_mem (mem_tokensOf.1 h)
  exact ⟨L.render ps, L.render qs, by simp [renderPiece]⟩

/-- No token that starts before the text reaches into it. -/
def StandsApart (b : Text) : Prop :=
  ∀ a, a ≠ [] → L.read (a ++ b) = (L.read a).map fun p => (p.1, p.2 ++ b)

variable {L} in
theorem pieces_append {b : Text} (hb : L.StandsApart b) (a : Text) :
    L.pieces (a ++ b) = L.pieces a ++ L.pieces b := by
  fun_induction pieces L a with
  | case1 => simp
  | case2 c cs t r h ih =>
    have hr := hb (c :: cs) (by simp)
    rw [h, Option.map_some] at hr
    rw [L.pieces_of_read hr, ih, List.cons_append]
  | case3 c cs h ih =>
    have hr := hb (c :: cs) (by simp)
    rw [h, Option.map_none] at hr
    rw [List.cons_append] at hr ⊢
    rw [L.pieces_of_read_none hr, ih, List.cons_append]

theorem exists_of_mem_tokens {s : Text} {t : τ} (h : t ∈ L.tokens s) :
    ∃ a r, s = a ++ (L.written t ++ r) ∧ L.read (L.written t ++ r) = some (t, r) := by
  rw [tokens_eq] at h
  fun_induction pieces L s with
  | case1 => simp at h
  | case2 c cs t' r hr ih =>
    rcases List.mem_cons.1 (tokensOf_token t' _ ▸ h) with rfl | h
    · exact ⟨[], r, L.eq_of_read hr, L.eq_of_read hr ▸ hr⟩
    · obtain ⟨a, u, rfl, hu⟩ := ih h
      exact ⟨L.written t' ++ a, u, by simp [L.eq_of_read hr], hu⟩
  | case3 c cs hr ih =>
    obtain ⟨a, u, rfl, hu⟩ := ih h
    exact ⟨c :: a, u, rfl, hu⟩

theorem tokens_of_read {s r : Text} {t : τ} (h : L.read s = some (t, r)) :
    L.tokens s = t :: L.tokens r := by
  simp [tokens_eq, L.pieces_of_read h]

theorem tokens_append {b : Text} (hb : L.StandsApart b) (a : Text) :
    L.tokens (a ++ b) = L.tokens a ++ L.tokens b := by
  simp [tokens_eq, pieces_append hb]

/-- Pieces written out with a text of one's own for each token. -/
def fill (f : τ → Text) : List (Piece τ) → Text
  | [] => []
  | .char c :: ps => c :: fill f ps
  | .token t :: ps => f t ++ fill f ps

@[simp] theorem fill_nil (f : τ → Text) : fill f [] = [] := rfl
@[simp] theorem fill_char (f : τ → Text) (c : Char) (ps : List (Piece τ)) :
    fill f (.char c :: ps) = c :: fill f ps := rfl
@[simp] theorem fill_token (f : τ → Text) (t : τ) (ps : List (Piece τ)) :
    fill f (.token t :: ps) = f t ++ fill f ps := rfl

@[simp] theorem fill_append (f : τ → Text) (ps qs : List (Piece τ)) :
    fill f (ps ++ qs) = fill f ps ++ fill f qs := by
  induction ps with
  | nil => rfl
  | cons p ps ih => cases p <;> simp [ih]

theorem fill_map (f : σ → Text) (g : τ → σ) (ps : List (Piece τ)) :
    fill f (ps.map (Piece.map g)) = fill (f ∘ g) ps := by
  induction ps with
  | nil => rfl
  | cons p ps ih => cases p <;> simp [Piece.map, ih]

theorem fill_written (ps : List (Piece τ)) : fill L.written ps = L.render ps := by
  induction ps with
  | nil => rfl
  | cons p ps ih => cases p <;> simp [ih, renderPiece]

theorem fill_congr {f g : τ → Text} {ps : List (Piece τ)} (h : ∀ t ∈ tokensOf ps, f t = g t) :
    fill f ps = fill g ps := by
  induction ps with
  | nil => rfl
  | cons p ps ih => cases p <;> simp_all

/-- Where every token is written as it was, the text is as it was. -/
theorem fill_pieces_eq_self {f : τ → Text} {s : Text} (h : ∀ t ∈ L.tokens s, f t = L.written t) :
    fill f (L.pieces s) = s := by
  rw [fill_congr h, fill_written, render_pieces]

end Lexeme
end StyleShield
