import StyleShield.Proofs.Text.Pieces

/-! Where tokens stand. A span is a token with the position of its first character. A stretch of
text that shares no character with a token is made of single characters, so the pieces can be parted
before and behind it (`exists_pieces_of_apart`). -/
namespace StyleShield.Lexeme

variable {τ : Type} (L : Lexeme τ)

/-- The tokens among some pieces that begin at a position, each with its own position. -/
def spans : (n : Nat) → List (Piece τ) → List (Nat × τ)
  | _, [] => []
  | n, .char _ :: ps => spans (n + 1) ps
  | n, .token t :: ps => (n, t) :: spans (n + (L.written t).length) ps

@[simp] theorem spans_nil (n : Nat) : L.spans n [] = [] := rfl
@[simp] theorem spans_char (n : Nat) (c : Char) (ps : List (Piece τ)) :
    L.spans n (.char c :: ps) = L.spans (n + 1) ps := rfl
@[simp] theorem spans_token (n : Nat) (t : τ) (ps : List (Piece τ)) :
    L.spans n (.token t :: ps) = (n, t) :: L.spans (n + (L.written t).length) ps := rfl

theorem map_snd_spans (n : Nat) (ps : List (Piece τ)) : (L.spans n ps).map Prod.snd = tokensOf ps := by
  induction ps generalizing n with
  | nil => rfl
  | cons p ps ih => cases p <;> simp [ih]

/-- No token of the pieces from `n` on shares a character with the `length` characters from `i` on. -/
def Apart (n : Nat) (ps : List (Piece τ)) (i length : Nat) : Prop :=
  ∀ m ∈ L.spans n ps, m.1 + (L.written m.2).length ≤ i ∨ i + length ≤ m.1

variable {L} {n : Nat} {ps : List (Piece τ)} {a x z : Text}

/-- What shares no character with a token and stands in front is made of single characters. -/
theorem exists_pieces_of_apart_front (h : L.render ps = x ++ z) (hx : L.Apart n ps n x.length) :
    ∃ ps₂, ps = x.map .char ++ ps₂ ∧ L.render ps₂ = z := by
  induction x generalizing n ps with
  | nil => exact ⟨ps, rfl, h⟩
  | cons c x ih =>
    rcases ps with _ | ⟨_ | t, ps⟩
    · simp at h
    · obtain ⟨rfl, hps⟩ := List.cons.inj h
      have hrest : L.Apart (n + 1) ps (n + 1) x.length := by
        intro m hm
        have hor := hx m hm
        simp only [List.length_cons] at hor
        omega
      obtain ⟨ps₂, hsplit, hafter⟩ := ih hps hrest
      exact ⟨ps₂, congrArg _ hsplit, hafter⟩
    · have hor := hx (n, t) List.mem_cons_self
      have hpos := List.length_pos_iff.2 (L.written_ne_nil t)
      simp only [List.length_cons] at hor
      omega

theorem exists_pieces_of_apart (h : L.render ps = a ++ x ++ z) (hx : L.Apart n ps (n + a.length) x.length) :
    ∃ ps₁ ps₂, ps = ps₁ ++ x.map .char ++ ps₂ ∧ L.render ps₁ = a ∧ L.render ps₂ = z := by
  induction ps generalizing n a with
  | nil =>
    obtain ⟨rfl, rfl, rfl⟩ : a = [] ∧ x = [] ∧ z = [] := by simpa using h
    exact ⟨[], [], rfl, rfl, rfl⟩
  | cons p ps ih =>
    by_cases ha : a = []
    · subst ha
      obtain ⟨ps₂, hsplit, hafter⟩ := exists_pieces_of_apart_front h hx
      exact ⟨[], ps₂, hsplit, rfl, hafter⟩
    -- The first piece lies before the stretch.
    obtain ⟨a', ha', hps⟩ : ∃ a', a = L.renderPiece p ++ a' ∧ L.render ps = a' ++ x ++ z := by
      cases p with
      | char c =>
        obtain ⟨d, a', rfl⟩ := List.exists_cons_of_ne_nil ha
        obtain ⟨rfl, hps⟩ := List.cons.inj h
        exact ⟨a', rfl, hps⟩
      | token t =>
        have hle : (L.written t).length ≤ a.length := by
          have hor := hx (n, t) List.mem_cons_self
          have hpos := List.length_pos_iff.2 ha
          simp only at hor
          omega
        rw [List.append_assoc] at h
        obtain ⟨a', rfl⟩ := List.prefix_of_prefix_length_le ⟨_, h⟩ (List.prefix_append a (x ++ z)) hle
        rw [List.append_assoc, render_cons] at h
        exact ⟨a', rfl, by rw [List.append_assoc]; exact List.append_cancel_left h⟩
    have hrest : L.Apart (n + (L.renderPiece p).length) ps (n + (L.renderPiece p).length + a'.length) x.length := by
      intro m hm
      have hmem : m ∈ L.spans n (p :: ps) := by
        cases p with
        | char c => exact hm
        | token t => exact List.mem_cons_of_mem _ hm
      have hor := hx m hmem
      rw [ha', List.length_append, ← Nat.add_assoc] at hor
      exact hor
    obtain ⟨ps₁, ps₂, hsplit, hbefore, hafter⟩ := ih hps hrest
    exact ⟨p :: ps₁, ps₂, by simp [hsplit], by rw [render_cons, hbefore, ha'], hafter⟩

end StyleShield.Lexeme
