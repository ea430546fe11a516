import StyleShield.Proofs.Toml

/-! How much room the reading of a document takes. A document that is read within some room, or fails within it
for a reason of its own, has the same result in all larger rooms (`readBytes_of_le`): room is only taken from
the values inside a value, and what is read inside does not depend on it. -/
namespace StyleShield.Toml

variable {α β : Type} {x y : Except Fault α}

/-- What is had for want of room on the left is anything on the right, and else the same. -/
def Yields (x y : Except Fault α) : Prop := x = .error .tooDeep ∨ y = x

namespace Yields

theorem refl (x : Except Fault α) : Yields x x := .inr rfl

theorem bind {f g : α → Except Fault β} (h : Yields x y) (hf : ∀ a, Yields (f a) (g a)) :
    Yields (x >>= f) (y >>= g) := by
  rcases h with rfl | rfl
  · exact .inl rfl
  · cases y with
    | error e => exact refl _
    | ok a => exact hf a

theorem map (h : Yields x y) (f : α → β) : Yields (x.map f) (y.map f) := by
  rcases h with rfl | rfl
  · exact .inl rfl
  · exact refl _

theorem enter {calls room room' : Nat} {inside inside' : Nat → Except Fault α} (hle : room ≤ room')
    (h : ∀ r r', r ≤ r' → Yields (inside r) (inside' r')) :
    Yields (Toml.enter calls room inside) (Toml.enter calls room' inside') := by
  by_cases hroom : room < calls
  · exact .inl (if_pos hroom)
  · have hroom' : ¬ room' < calls := fun hlt => hroom (Nat.lt_of_le_of_lt hle hlt)
    rw [Toml.enter, Toml.enter, if_neg hroom, if_neg hroom']
    exact h _ _ (Nat.sub_le_sub_right hle calls)

theorem eq_of_ne (h : Yields x y) (hx : x ≠ .error .tooDeep) : y = x := h.resolve_left hx

end Yields

/-- The readers that call one another, with less fuel and no more room than before. -/
structure YieldsAt (fuel : Nat) : Prop where
  value : ∀ {room room'}, room ≤ room' → ∀ s, Yields (readValue fuel room s) (readValue fuel room' s)
  items : ∀ {room room'}, room ≤ room' → ∀ done s,
    Yields (readItems fuel room done s) (readItems fuel room' done s)
  pair : ∀ {room room'}, room ≤ room' → ∀ s, Yields (readPair fuel room s) (readPair fuel room' s)
  inline : ∀ {room room'}, room ≤ room' → ∀ done marks s,
    Yields (readInline fuel room done marks s) (readInline fuel room' done marks s)

theorem yieldsAt_succ {fuel : Nat} (ih : YieldsAt fuel) : YieldsAt (fuel + 1) where
  value hle s := by
    unfold readValue
    split
    · refine .enter hle fun _ _ hle => .bind (.refl _) fun a => ?_
      dsimp only
      split
      · exact .refl _
      · exact ih.items hle _ _
    · split
      · exact .refl _
      · exact .enter hle fun _ _ hle => ih.inline hle _ _ _
    · exact .refl _
  items hle done s := by
    unfold readItems
    refine (ih.value hle s).bind fun a => .bind (.refl _) fun b => ?_
    dsimp only
    split
    · exact .refl _
    · refine .bind (.refl _) fun c => ?_
      split
      · exact .refl _
      · exact ih.items hle _ _
    · exact .refl _
  pair hle s := by
    unfold readPair
    refine .bind (.refl _) fun a => ?_
    dsimp only
    split
    · exact (ih.value hle _).bind fun _ => .refl _
    · exact .refl _
  inline hle done marks s := by
    unfold readInline
    refine (ih.pair hle s).bind fun a => ?_
    dsimp only
    split
    · exact .refl _
    · refine .bind (.refl _) fun done => ?_
      split
      · exact .refl _
      · exact ih.inline hle _ _ _
      · exact .refl _

theorem yieldsAt (fuel : Nat) : YieldsAt fuel := by
  induction fuel with
  | zero =>
    refine ⟨fun _ s => ?_, fun _ done s => ?_, fun _ s => ?_, fun _ done marks s => ?_⟩
    · rw [readValue, readValue]
      exact .refl _
    · rw [readItems, readItems]
      exact .refl _
    · rw [readPair, readPair]
      exact .refl _
    · rw [readInline, readInline]
      exact .refl _
  | succ fuel ih => exact yieldsAt_succ ih

variable {room room' : Nat}

theorem yields_readStatement (hle : room ≤ room') (d : Draft) (s : Text) :
    Yields (d.readStatement room s) (d.readStatement room' s) := by
  unfold Draft.readStatement
  split
  · exact .refl _
  · exact .refl _
  · exact ((yieldsAt _).pair hle _).bind fun _ => .refl _

theorem yields_readAll (hle : room ≤ room') (fuel : Nat) (d : Draft) (s : Text) :
    Yields (Draft.readAll room fuel d s) (Draft.readAll room' fuel d s) := by
  induction fuel generalizing d s with
  | zero => exact .refl _
  | succ fuel ih =>
    unfold Draft.readAll
    split
    · exact .refl _
    · exact ih _ _
    · exact .bind (.refl _) fun _ => ih _ _
    · refine (yields_readStatement hle d _).bind fun a => .bind (.refl _) fun b => ?_
      dsimp only
      split
      · exact .refl _
      · exact ih _ _
      · exact .refl _

/-- A larger room changes nothing but that there was too little. -/
theorem readBytes_of_le (hle : room ≤ room') {b : Bytes} (h : readBytes room b ≠ .error .tooDeep) :
    readBytes room' b = readBytes room b := by
  unfold readBytes at h ⊢
  split
  · rfl
  · rename_i s hs
    rw [hs] at h
    exact ((yields_readAll hle _ _ _).map Draft.table).eq_of_ne h

end StyleShield.Toml
