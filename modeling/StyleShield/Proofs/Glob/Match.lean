import StyleShield.Glob.Pattern

/-! What the parts of a pattern take. What a token or a part leaves is the text behind a stretch that it takes,
and which stretches it takes does not hang on what follows, the two kinds of ends apart. So a pattern fits
if its parts take stretches one after another from the start of the text (`matchParts_append_iff`). -/
namespace StyleShield.Glob

variable {s r : Text} {t : Token} {ts : List Token} {p : Part} {ps : List Part}

section Tokens

theorem mem_runs {allowed : Char → Bool} : r ∈ runs allowed s ↔ ∃ u, s = u ++ r ∧ ∀ c ∈ u, allowed c = true := by
  induction s with
  | nil =>
    rw [runs, List.mem_singleton]
    constructor
    · rintro rfl
      exact ⟨[], rfl, by simp⟩
    · rintro ⟨u, hu, -⟩
      exact (List.append_eq_nil_iff.1 hu.symm).2
  | cons c s ih =>
    rw [runs, List.mem_cons]
    constructor
    · rintro (rfl | h)
      · exact ⟨[], rfl, by simp⟩
      · split at h
        · rename_i hc
          obtain ⟨u, rfl, hall⟩ := ih.1 h
          exact ⟨c :: u, rfl, List.forall_mem_cons.2 ⟨hc, hall⟩⟩
        · simp at h
    · rintro ⟨u, hu, hall⟩
      cases u with
      | nil => exact .inl hu.symm
      | cons d u =>
        obtain ⟨rfl, hs⟩ := List.cons.inj hu
        rw [List.forall_mem_cons] at hall
        rw [if_pos hall.1]
        exact .inr (ih.2 ⟨u, hs, hall.2⟩)

def Token.allows : Token → Char → Bool
  | exactly x, c => c = x
  | anyOne, c => notSlash c
  | anyRun, c => notSlash c
  | oneOf set, c => set.has c

/-- The stretches that a token takes. -/
inductive Token.Takes : Token → Text → Prop
  | run {u : Text} (h : ∀ c ∈ u, notSlash c = true) : Takes .anyRun u
  | one {t : Token} {c : Char} (single : t ≠ .anyRun) (h : t.allows c = true) : Takes t [c]

theorem Token.takes_anyRun_iff {u : Text} : anyRun.Takes u ↔ ∀ c ∈ u, notSlash c = true := by
  constructor
  · intro h
    cases h with
    | run h => exact h
    | one single _ => exact absurd rfl single
  · exact .run

theorem Token.takes_iff_of_ne {u : Text} (h : t ≠ .anyRun) : t.Takes u ↔ ∃ c, u = [c] ∧ t.allows c = true := by
  constructor
  · intro hu
    cases hu with
    | run _ => exact absurd rfl h
    | @one _ c _ hc => exact ⟨c, rfl, hc⟩
  · rintro ⟨c, rfl, hc⟩
    exact .one h hc

theorem Token.rests_nil (h : t ≠ .anyRun) : t.rests [] = [] := by
  cases t <;> first | rfl | exact absurd rfl h

theorem Token.rests_cons (h : t ≠ .anyRun) (c : Char) (s : Text) :
    t.rests (c :: s) = if t.allows c then [s] else [] := by
  cases t with
  | anyRun => exact absurd rfl h
  | exactly x => simp [rests, allows]
  | anyOne => rfl
  | oneOf set => rfl

theorem Token.mem_rests : r ∈ t.rests s ↔ ∃ u, s = u ++ r ∧ t.Takes u := by
  by_cases ht : t = .anyRun
  · subst ht
    simp only [rests, mem_runs, takes_anyRun_iff]
  · simp only [takes_iff_of_ne ht]
    cases s with
    | nil => simp [rests_nil ht]
    | cons c s =>
      rw [rests_cons ht, List.mem_ite_nil_right, List.mem_singleton]
      constructor
      · rintro ⟨hc, rfl⟩
        exact ⟨[c], rfl, c, rfl, hc⟩
      · rintro ⟨u, hs, d, rfl, hd⟩
        obtain ⟨rfl, rfl⟩ := List.cons.inj hs
        exact ⟨hd, rfl⟩

/-- The stretches that tokens take one after another. -/
inductive TakesAll : List Token → Text → Prop
  | nil : TakesAll [] []
  | cons {t : Token} {ts : List Token} {u v : Text} (first : t.Takes u) (rest : TakesAll ts v) :
      TakesAll (t :: ts) (u ++ v)

theorem mem_restsAll : r ∈ restsAll ts s ↔ ∃ u, s = u ++ r ∧ TakesAll ts u := by
  induction ts generalizing s with
  | nil =>
    rw [restsAll, List.mem_singleton]
    constructor
    · rintro rfl
      exact ⟨[], rfl, .nil⟩
    · rintro ⟨u, rfl, hu⟩
      cases hu
      rfl
  | cons t ts ih =>
    rw [restsAll, List.mem_flatMap]
    constructor
    · rintro ⟨q, hq, hr⟩
      obtain ⟨u, rfl, hu⟩ := Token.mem_rests.1 hq
      obtain ⟨v, rfl, hv⟩ := ih.1 hr
      exact ⟨u ++ v, by simp, .cons hu hv⟩
    · rintro ⟨w, rfl, hw⟩
      cases hw with
      | @cons _ _ u v hu hv =>
        exact ⟨v ++ r, Token.mem_rests.2 ⟨u, by simp, hu⟩, ih.2 ⟨v, rfl, hv⟩⟩

theorem takesAll_concat {u : Text} (h : TakesAll (ts ++ [t]) u) : ∃ v w, u = v ++ w ∧ TakesAll ts v ∧ t.Takes w := by
  induction ts generalizing u with
  | nil =>
    obtain _ | ⟨first, ⟨⟩⟩ := h
    exact ⟨[], _, by simp, .nil, first⟩
  | cons t' ts ih =>
    cases h with
    | @cons _ _ x y first rest =>
      obtain ⟨v, w, rfl, hv, hw⟩ := ih rest
      exact ⟨x ++ v, w, by simp, .cons first hv, hw⟩

end Tokens

section Parts

theorem mem_afterSlash : r ∈ afterSlash s ↔ ∃ u, s = u ++ '/' :: r ∧ '\n' ∉ u := by
  induction s with
  | nil => simp [afterSlash]
  | cons c s ih =>
    have hbehind : (∃ u, c :: s = u ++ '/' :: r ∧ '\n' ∉ u) ↔
        (c = '/' ∧ r = s) ∨ (c ≠ '\n' ∧ ∃ u, s = u ++ '/' :: r ∧ '\n' ∉ u) := by
      constructor
      · rintro ⟨u, hu, hline⟩
        cases u with
        | nil => exact .inl ⟨(List.cons.inj hu).1, (List.cons.inj hu).2.symm⟩
        | cons d u =>
          obtain ⟨rfl, hs⟩ := List.cons.inj hu
          rw [List.mem_cons, not_or] at hline
          exact .inr ⟨Ne.symm hline.1, u, hs, hline.2⟩
      · rintro (⟨rfl, rfl⟩ | ⟨hc, u, rfl, hline⟩)
        · exact ⟨[], rfl, by simp⟩
        · exact ⟨c :: u, rfl, by simp [Ne.symm hc, hline]⟩
    rw [hbehind, ← ih, afterSlash]
    split
    · rename_i hc
      subst hc
      simp
    · split
      · rename_i hslash hc
        simp [hc]
      · rename_i hslash hc
        simp [hslash, hc]

def IsLine (u : Text) : Prop := u ≠ [] ∧ '\n' ∉ u

theorem isLine_cons_iff {c : Char} {u : Text} : IsLine (c :: u) ↔ notNewline c = true ∧ '\n' ∉ u := by
  simp only [IsLine, notNewline, List.mem_cons, not_or, decide_eq_true_eq, ne_eq, reduceCtorEq, not_false_eq_true, true_and]
  exact and_congr_left' ne_comm

/-- The stretches that a part takes. The two kinds of ends take none by themselves. -/
inductive Part.Takes : Part → Text → Prop
  | noneAbove : Takes .anyAbove []
  | above {u : Text} (h : IsLine u) : Takes .anyAbove (u ++ ['/'])
  | noneBetween : Takes .anyBetween []
  | between {u : Text} (h : IsLine u) : Takes .anyBetween ('/' :: u)
  | slash : Takes .slash ['/']
  | segment {ts : List Token} {u : Text} (h : TakesAll ts u) : Takes (.segment ts) u
  | anySegment {u : Text} (hne : u ≠ []) (h : ∀ c ∈ u, notSlash c = true) : Takes .anySegment u

theorem mem_rests_anyAbove : r ∈ Part.anyAbove.rests s ↔ ∃ u, s = u ++ r ∧ Part.anyAbove.Takes u := by
  constructor
  · intro h
    rcases List.mem_cons.1 h with rfl | h
    · exact ⟨[], rfl, .noneAbove⟩
    · cases s with
      | nil => simp at h
      | cons c s =>
        obtain ⟨hc, hr⟩ := List.mem_ite_nil_right.1 h
        obtain ⟨u, rfl, hu⟩ := mem_afterSlash.1 hr
        exact ⟨c :: u ++ ['/'], by simp, .above (isLine_cons_iff.2 ⟨hc, hu⟩)⟩
  · rintro ⟨u, rfl, hu⟩
    cases hu with
    | noneAbove => exact List.mem_cons_self
    | @above u hu =>
      obtain ⟨c, u, rfl⟩ := List.exists_cons_of_ne_nil hu.1
      obtain ⟨hc, hline⟩ := isLine_cons_iff.1 hu
      refine List.mem_cons_of_mem _ (List.mem_ite_nil_right.2 ⟨hc, mem_afterSlash.2 ⟨u, ?_, hline⟩⟩)
      simp

theorem mem_rests_anyBetween : r ∈ Part.anyBetween.rests s ↔ ∃ u, s = u ++ r ∧ Part.anyBetween.Takes u := by
  have hline {u : Text} : (∀ c ∈ u, notNewline c = true) ↔ '\n' ∉ u := by
    simp only [notNewline, decide_eq_true_eq]
    exact ⟨fun h hmem => h _ hmem rfl, fun h c hc he => h (he ▸ hc)⟩
  constructor
  · intro h
    rcases List.mem_cons.1 h with rfl | h
    · exact ⟨[], rfl, .noneBetween⟩
    · split at h
      · obtain ⟨hc, hr⟩ := List.mem_ite_nil_right.1 h
        obtain ⟨u, rfl, hu⟩ := mem_runs.1 hr
        exact ⟨'/' :: _ :: u, rfl, .between (isLine_cons_iff.2 ⟨hc, hline.1 hu⟩)⟩
      · simp at h
  · rintro ⟨u, rfl, hu⟩
    cases hu with
    | noneBetween => exact List.mem_cons_self
    | @between u hu =>
      obtain ⟨c, u, rfl⟩ := List.exists_cons_of_ne_nil hu.1
      obtain ⟨hc, hu⟩ := isLine_cons_iff.1 hu
      exact List.mem_cons_of_mem _ (List.mem_ite_nil_right.2 ⟨hc, mem_runs.2 ⟨u, rfl, hline.2 hu⟩⟩)

/-- Whether a text starts with a slash is all that a slash asks. -/
theorem rests_slash_of_ne (h : ∀ r, s ≠ '/' :: r) : Part.slash.rests s = [] := by
  rw [Part.rests]
  exact h

theorem mem_rests_slash : r ∈ Part.slash.rests s ↔ ∃ u, s = u ++ r ∧ Part.slash.Takes u := by
  constructor
  · intro h
    by_cases hs : ∃ q, s = '/' :: q
    · obtain ⟨q, rfl⟩ := hs
      obtain rfl := List.mem_singleton.1 h
      exact ⟨['/'], rfl, .slash⟩
    · simp [rests_slash_of_ne fun q hq => hs ⟨q, hq⟩] at h
  · rintro ⟨u, rfl, hu⟩
    cases hu
    exact List.mem_singleton.2 rfl

theorem mem_rests_anySegment : r ∈ Part.anySegment.rests s ↔ ∃ u, s = u ++ r ∧ Part.anySegment.Takes u := by
  constructor
  · intro h
    cases s with
    | nil => simp [Part.rests] at h
    | cons c s =>
      obtain ⟨hc, hr⟩ := List.mem_ite_nil_right.1 h
      obtain ⟨u, rfl, hu⟩ := mem_runs.1 hr
      exact ⟨c :: u, rfl, .anySegment (List.cons_ne_nil c u) (List.forall_mem_cons.2 ⟨hc, hu⟩)⟩
  · rintro ⟨u, rfl, hu⟩
    cases hu with
    | anySegment hne hall =>
      obtain ⟨c, u, rfl⟩ := List.exists_cons_of_ne_nil hne
      rw [List.forall_mem_cons] at hall
      exact List.mem_ite_nil_right.2 ⟨hall.1, mem_runs.2 ⟨u, rfl, hall.2⟩⟩

/-- Parts that do not look for the end of the path. -/
def Part.IsInner (p : Part) : Prop := p ≠ .close ∧ p ≠ .boundary

theorem Part.mem_rests (h : p.IsInner) : r ∈ p.rests s ↔ ∃ u, s = u ++ r ∧ p.Takes u := by
  cases p with
  | anyAbove => exact mem_rests_anyAbove
  | anyBetween => exact mem_rests_anyBetween
  | slash => exact mem_rests_slash
  | anySegment => exact mem_rests_anySegment
  | close => exact absurd rfl h.1
  | boundary => exact absurd rfl h.2
  | segment ts =>
    rw [rests, mem_restsAll]
    constructor
    · rintro ⟨u, hs, hu⟩
      exact ⟨u, hs, .segment hu⟩
    · rintro ⟨u, hs, hu⟩
      cases hu with
      | segment hu => exact ⟨u, hs, hu⟩

/-- The stretches that parts take one after another. -/
inductive Part.TakeAll : List Part → Text → Prop
  | nil : TakeAll [] []
  | cons {p : Part} {ps : List Part} {u v : Text} (first : p.Takes u) (rest : TakeAll ps v) :
      TakeAll (p :: ps) (u ++ v)

/-- Inner parts take a stretch and leave the rest to the parts behind them. -/
theorem matchParts_append_iff {qs : List Part} (h : ∀ p ∈ ps, p.IsInner) :
    matchParts (ps ++ qs) s = true ↔ ∃ u r, s = u ++ r ∧ Part.TakeAll ps u ∧ matchParts qs r = true := by
  induction ps generalizing s with
  | nil =>
    constructor
    · intro hs
      exact ⟨[], s, rfl, .nil, hs⟩
    · rintro ⟨u, r, rfl, hu, hr⟩
      cases hu
      exact hr
  | cons p ps ih =>
    rw [List.forall_mem_cons] at h
    rw [List.cons_append, matchParts_cons, List.any_eq_true]
    constructor
    · rintro ⟨q, hq, hs⟩
      obtain ⟨u, rfl, hu⟩ := (Part.mem_rests h.1).1 hq
      obtain ⟨v, r, rfl, hv, hr⟩ := (ih h.2).1 hs
      exact ⟨u ++ v, r, by simp, .cons hu hv, hr⟩
    · rintro ⟨w, r, rfl, hw, hr⟩
      cases hw with
      | @cons _ _ u v hu hv =>
        exact ⟨v ++ r, (Part.mem_rests h.1).2 ⟨u, by simp, hu⟩, (ih h.2).2 ⟨v, r, rfl, hv, hr⟩⟩

theorem matchParts_boundary_iff : matchParts [.boundary] s = true ↔ atEnd s = true ∨ ∃ r, s = '/' :: r := by
  by_cases hs : ∃ q, s = '/' :: q
  · obtain ⟨q, rfl⟩ := hs
    exact iff_of_true rfl (.inr ⟨q, rfl⟩)
  · have hrests : Part.boundary.rests s = if atEnd s then [[]] else [] := by
      cases s with
      | nil => rfl
      | cons c s =>
        have hc : c ≠ '/' := fun hc => hs ⟨s, by rw [hc]⟩
        simp [Part.rests, hc]
    rw [matchParts_cons, hrests]
    by_cases hend : atEnd s = true
    · simp [hend]
    · simp [hend, hs]

end Parts

end StyleShield.Glob
