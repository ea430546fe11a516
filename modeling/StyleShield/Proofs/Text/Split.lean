import StyleShield.Text.Basic

/-! Texts split at a character. A part is a stretch without the character that reaches from an occurrence of
it, or the start, to the next one, or the end (`mem_splitOn_iff`). Parts without the character that have been
joined by it come apart again (`splitOn_join`). -/
namespace StyleShield.Text

variable {c x : Char} {s v : Text} {ps qs : List Text}

@[simp] theorem splitOn_cons_self (c : Char) (s : Text) : splitOn c (c :: s) = [] :: splitOn c s := by
  rw [splitOn, if_pos rfl]

theorem splitOn_cons_of_ne (h : x ≠ c) : splitOn c (x :: s) = (splitOn c s).modifyHead (x :: ·) := by
  obtain ⟨p, ps, hs⟩ := List.exists_cons_of_ne_nil (splitOn_ne_nil c s)
  rw [splitOn, if_neg h, hs]
  rfl

theorem splitOn_append_cons (c : Char) (u s : Text) : splitOn c (u ++ c :: s) = splitOn c u ++ splitOn c s := by
  induction u with
  | nil => simp
  | cons x u ih =>
    by_cases hx : x = c
    · simp [hx, ih]
    · obtain ⟨p, ps, hu⟩ := List.exists_cons_of_ne_nil (splitOn_ne_nil c u)
      simp [splitOn_cons_of_ne hx, ih, hu]

theorem splitOn_of_notMem (h : c ∉ s) : splitOn c s = [s] := by
  induction s with
  | nil => rfl
  | cons x s ih =>
    rw [List.mem_cons, not_or] at h
    simp [splitOn_cons_of_ne (Ne.symm h.1), ih h.2]

/-- What is put behind a text without the character only makes its last part longer. -/
theorem splitOn_append_of_notMem (c : Char) (u : Text) :
    ∃ ps p, ∀ v, c ∉ v → splitOn c (u ++ v) = ps ++ [p ++ v] := by
  induction u with
  | nil => exact ⟨[], [], fun v hv => splitOn_of_notMem hv⟩
  | cons x u ih =>
    obtain ⟨ps, p, h⟩ := ih
    by_cases hx : x = c
    · refine ⟨[] :: ps, p, fun v hv => ?_⟩
      rw [List.cons_append, hx, splitOn_cons_self, h v hv, List.cons_append]
    · cases ps with
      | nil => exact ⟨[], x :: p, fun v hv => by simp [splitOn_cons_of_ne hx, h v hv]⟩
      | cons q ps => exact ⟨(x :: q) :: ps, p, fun v hv => by simp [splitOn_cons_of_ne hx, h v hv]⟩

theorem notMem_of_mem_splitOn (h : v ∈ splitOn c s) : c ∉ v := by
  induction s generalizing v with
  | nil => simp_all
  | cons x s ih =>
    by_cases hx : x = c
    · subst hx
      rcases List.mem_cons.1 (splitOn_cons_self x s ▸ h) with rfl | hmem
      · simp
      · exact ih hmem
    · obtain ⟨p, ps, hs⟩ := List.exists_cons_of_ne_nil (splitOn_ne_nil c s)
      rw [splitOn_cons_of_ne hx, hs, List.modifyHead_cons] at h
      rcases List.mem_cons.1 h with rfl | hmem
      · simpa [Ne.symm hx] using ih (by simp [hs])
      · exact ih (by simp [hs, hmem])

theorem join_append (sep : Text) (hp : ps ≠ []) (hq : qs ≠ []) :
    join sep (ps ++ qs) = join sep ps ++ sep ++ join sep qs := by
  induction ps with
  | nil => exact absurd rfl hp
  | cons p ps ih =>
    obtain ⟨q, qs, rfl⟩ := List.exists_cons_of_ne_nil hq
    cases ps with
    | nil => rfl
    | cons p' ps =>
      have hrest := ih (List.cons_ne_nil p' ps)
      simp only [List.cons_append, join_cons_cons] at hrest ⊢
      rw [hrest]
      simp only [List.append_assoc]

theorem notMem_join {sep : Text} (hsep : x ∉ sep) (h : ∀ p ∈ ps, x ∉ p) : x ∉ join sep ps := by
  induction ps with
  | nil => exact List.not_mem_nil
  | cons p ps ih =>
    rw [List.forall_mem_cons] at h
    cases ps with
    | nil => exact h.1
    | cons q ps =>
      rw [join_cons_cons, List.mem_append, List.mem_append, not_or, not_or]
      exact ⟨⟨h.1, hsep⟩, ih h.2⟩

theorem splitOn_join (hp : ps ≠ []) (h : ∀ p ∈ ps, c ∉ p) : splitOn c (join [c] ps) = ps := by
  induction ps with
  | nil => exact absurd rfl hp
  | cons p ps ih =>
    rw [List.forall_mem_cons] at h
    cases ps with
    | nil => exact splitOn_of_notMem h.1
    | cons q ps =>
      have hline : join [c] (p :: q :: ps) = p ++ c :: join [c] (q :: ps) := by simp
      rw [hline, splitOn_append_cons, splitOn_of_notMem h.1, ih (List.cons_ne_nil q ps) h.2]
      rfl

def StopsBefore (c : Char) (u : Text) : Prop := u = [] ∨ ∃ u', u = u' ++ [c]

def StopsBehind (c : Char) (r : Text) : Prop := r = [] ∨ ∃ r', r = c :: r'

theorem mem_splitOn_iff : v ∈ splitOn c s ↔
    c ∉ v ∧ ∃ u r, s = u ++ v ++ r ∧ StopsBefore c u ∧ StopsBehind c r := by
  constructor
  · intro h
    obtain ⟨before, behind, hsplit⟩ := List.append_of_mem h
    have hs : s = join [c] (before ++ v :: behind) := by rw [← hsplit, join_splitOn]
    have hbehind : ∃ r, join [c] (v :: behind) = v ++ r ∧ StopsBehind c r := by
      cases behind with
      | nil => exact ⟨[], by simp, .inl rfl⟩
      | cons q qs => exact ⟨c :: join [c] (q :: qs), by simp, .inr ⟨_, rfl⟩⟩
    obtain ⟨r, hr, hstop⟩ := hbehind
    refine ⟨notMem_of_mem_splitOn h, ?_⟩
    by_cases hb : before = []
    · exact ⟨[], r, by rw [hs, hb]; exact hr, .inl rfl, hstop⟩
    · refine ⟨join [c] before ++ [c], r, ?_, .inr ⟨_, rfl⟩, hstop⟩
      rw [hs, join_append [c] hb (List.cons_ne_nil v behind), hr]
      simp
  · rintro ⟨hv, u, r, rfl, hu, hr⟩
    have hmem : v ∈ splitOn c (v ++ r) := by
      rcases hr with rfl | ⟨r', rfl⟩
      · simp [splitOn_of_notMem hv]
      · simp [splitOn_append_cons, splitOn_of_notMem hv]
    rcases hu with rfl | ⟨u', rfl⟩
    · exact hmem
    · have hline : u' ++ [c] ++ v ++ r = u' ++ c :: (v ++ r) := by simp
      rw [hline, splitOn_append_cons]
      exact List.mem_append_right _ hmem

end StyleShield.Text
