import StyleShield.Text.Basic

/-! Lists woven from gaps and parts: a gap, a part, a gap, and so on up to a last gap.
A text with some of its tokens replaced is such a list, so what is known of single gaps
and parts is carried here to the whole. There is always one gap more than parts. -/
namespace StyleShield

variable {α β : Type}

/-- Gaps and parts in turn, beginning and ending with a gap. -/
def weave : (gaps parts : List (List α)) → List α
  | g :: gs, p :: ps => g ++ p ++ weave gs ps
  | gs, _ => gs.flatten

@[simp] theorem weave_nil (ps : List (List α)) : weave [] ps = [] := rfl
@[simp] theorem weave_singleton (g : List α) : weave [g] [] = g := by simp [weave]
@[simp] theorem weave_cons_cons (g p : List α) (gs ps : List (List α)) :
    weave (g :: gs) (p :: ps) = g ++ p ++ weave gs ps := rfl

/-- Induction on gaps and parts together: a last gap, or a gap and a part before the rest. -/
theorem weave_induction {γ : Type}
    {motive : (gs : List (List α)) → (ps : List γ) → gs.length = ps.length + 1 → Prop}
    (last : ∀ g, motive [g] [] rfl)
    (step : ∀ g p gs ps (h : gs.length = ps.length + 1), motive gs ps h →
      motive (g :: gs) (p :: ps) (congrArg (· + 1) h))
    (gs : List (List α)) (ps : List γ) (h : gs.length = ps.length + 1) : motive gs ps h := by
  induction ps generalizing gs with
  | nil =>
    obtain ⟨g, rfl⟩ := List.length_eq_one_iff.1 h
    exact last g
  | cons p ps ih =>
    cases gs with
    | nil => simp at h
    | cons g gs =>
      have hl : gs.length = ps.length + 1 := by simpa using h
      exact step g p gs ps hl (ih gs hl)

theorem weave_map_modifyHead (f : List α → List β) (hf : ∀ xs ys, f (xs ++ ys) = f xs ++ f ys)
    (x : α) {gs : List (List α)} (h : gs ≠ []) (ps : List (List β)) :
    weave ((gs.modifyHead (x :: ·)).map f) ps = f [x] ++ weave (gs.map f) ps := by
  obtain ⟨g, gs, rfl⟩ := List.exists_cons_of_ne_nil h
  have hx : f (x :: g) = f [x] ++ f g := hf [x] g
  cases ps <;> simp [weave, hx]

theorem map_weave (f : List α → List β) (hf : ∀ xs ys, f (xs ++ ys) = f xs ++ f ys)
    {gs ps : List (List α)} (h : gs.length = ps.length + 1) :
    f (weave gs ps) = weave (gs.map f) (ps.map f) := by
  induction gs, ps, h using weave_induction with
  | last g => simp
  | step g p gs ps _ ih => simp [hf, ih]

theorem weave_of_forall_eq_nil {gs ps : List (List α)} (h : gs.length = ps.length + 1)
    (hg : ∀ g ∈ gs, g = []) : weave gs ps = ps.flatten := by
  induction gs, ps, h using weave_induction with
  | last g => simp [hg g (by simp)]
  | step g p gs ps _ ih => simp [hg g (by simp), ih fun g' hg' => hg g' (by simp [hg'])]

theorem length_splitOnP (p : α → Bool) (xs : List α) :
    (xs.splitOnP p).length = (xs.filter p).length + 1 := by
  induction xs with
  | nil => rfl
  | cons x xs ih => by_cases h : p x <;> simp [List.splitOnP_cons_eq_if_modifyHead, h, ih]

theorem weave_splitOnP (p : α → Bool) (xs : List α) :
    weave (xs.splitOnP p) ((xs.filter p).map fun x => [x]) = xs := by
  induction xs with
  | nil => simp
  | cons x xs ih =>
    rw [List.splitOnP_cons_eq_if_modifyHead]
    by_cases h : p x
    · simp [h, ih]
    · have hm := weave_map_modifyHead id (fun _ _ => rfl) x (List.splitOnP_ne_nil p xs)
        ((xs.filter p).map fun y => [y])
      simpa [h, ih] using hm

theorem not_of_mem_splitOnP {p : α → Bool} {xs ys : List α} (h : ys ∈ xs.splitOnP p) :
    ∀ y ∈ ys, p y = false := by
  induction xs generalizing ys with
  | nil => simp_all
  | cons x xs ih =>
    obtain ⟨z, zs, hz⟩ := List.exists_cons_of_ne_nil (List.splitOnP_ne_nil p xs)
    rw [List.splitOnP_cons_eq_if_modifyHead, hz] at h
    rw [hz] at ih
    by_cases hx : p x
    · rw [if_pos hx] at h
      rcases List.mem_cons.1 h with rfl | h
      · simp
      · exact ih (by simpa using h)
    · rw [if_neg hx, List.modifyHead_cons] at h
      rcases List.mem_cons.1 h with rfl | h
      · intro y hy
        rcases List.mem_cons.1 hy with rfl | hy
        · simpa using hx
        · exact ih (by simp) y hy
      · exact ih (by simp [h])

theorem mem_weave {x : α} {gs ps : List (List α)} (h : gs.length = ps.length + 1) :
    x ∈ weave gs ps ↔ (∃ g ∈ gs, x ∈ g) ∨ ∃ p ∈ ps, x ∈ p := by
  induction gs, ps, h using weave_induction with
  | last g => simp
  | step g p gs ps _ ih =>
    simp only [weave_cons_cons, List.mem_append, List.mem_cons, exists_eq_or_imp, ih]
    grind

theorem infix_weave_of_mem {g : List α} {gs ps : List (List α)} (h : gs.length = ps.length + 1)
    (hg : g ∈ gs) : g <:+: weave gs ps := by
  induction gs, ps, h using weave_induction with
  | last g' =>
    have he : g = g' := by simpa using hg
    simp [he]
  | step g' p gs ps _ ih =>
    rcases List.mem_cons.1 hg with rfl | hg
    · exact ⟨[], p ++ weave gs ps, by simp⟩
    · obtain ⟨a, b, hw⟩ := ih hg
      exact ⟨g' ++ p ++ a, b, by simp [← hw]⟩

/-- Gaps changed so that every change shows at once cannot make up for one another. -/
theorem weave_map_eq_iff {f : List α → List α}
    (hf : ∀ g, f g = g ∨ ∀ u v, f g ++ u ≠ g ++ v)
    {gs ps : List (List α)} (h : gs.length = ps.length + 1) :
    weave (gs.map f) ps = weave gs ps ↔ ∀ g ∈ gs, f g = g := by
  induction gs, ps, h using weave_induction with
  | last g => simp
  | step g p gs ps _ ih =>
    simp only [List.map_cons, weave_cons_cons, List.append_assoc, List.forall_mem_cons]
    -- The first gap that changes shows, whatever is behind it.
    rcases hf g with hg | hg
    · simp [hg, ih]
    · have hn : f g ≠ g := fun he => hg [] [] (by simp [he])
      simp [hg, hn]

theorem prefix_weave_cons (g : List α) (gs ps : List (List α)) : g <+: weave (g :: gs) ps := by
  cases ps with
  | nil => exact ⟨gs.flatten, by simp [weave]⟩
  | cons p ps => exact ⟨p ++ weave gs ps, by simp⟩

theorem weave_eq_before_after {gs ps : List (List α)} (h : gs.length = ps.length + 1) {i : Nat} (hi : i < ps.length) :
    weave gs ps = weave (gs.take (i + 1)) (ps.take i) ++ (ps[i] ++ weave (gs.drop (i + 1)) (ps.drop (i + 1))) := by
  induction gs, ps, h using weave_induction generalizing i with
  | last g => simp at hi
  | step g p gs ps _ ih =>
    cases i with
    | zero => simp
    | succ i =>
      have hlt : i < ps.length := by simpa using hi
      simp [ih hlt]

end StyleShield
