import StyleShield.Text.Blank

/-! What stripping keeps. A text is its stripped form with blanks on both sides, so a word without
blanks at its own ends stands in the one if it stands in the other (`infix_strip_iff`). -/
namespace StyleShield.Text

theorem not_isBlank_of_isAlphanum {c : Char} (h : c.isAlphanum = true) : isBlank c = false := by
  have hrange : 48 ≤ c.toNat ∧ c.toNat ≤ 122 := by
    change ((decide (c.val ≥ 'A'.val ∧ c.val ≤ 'Z'.val) || decide (c.val ≥ 'a'.val) && decide (c.val ≤ 'z'.val)) ||
      decide (c.val ≥ '0'.val) && decide (c.val ≤ '9'.val)) = true at h
    simp only [Bool.or_eq_true, Bool.and_eq_true, decide_eq_true_eq, ge_iff_le, UInt32.le_iff_toNat_le] at h
    change (((65 ≤ c.toNat ∧ c.toNat ≤ 90) ∨ 97 ≤ c.toNat ∧ c.toNat ≤ 122) ∨ 48 ≤ c.toNat ∧ c.toNat ≤ 57) at h
    omega
  rw [Bool.eq_false_iff]
  intro hblank
  simp only [isBlank, Bool.or_eq_true, Bool.and_eq_true, decide_eq_true_eq, beq_iff_eq] at hblank
  omega

/-- A word that begins and ends with a character that is no blank. -/
structure Solid (w : Text) : Prop where
  first : ∃ c v, w = c :: v ∧ isBlank c = false
  last : ∃ v c, w = v ++ [c] ∧ isBlank c = false

variable {w s : Text}

theorem Solid.reverse (h : Solid w) : Solid w.reverse := by
  obtain ⟨c, v, hw, hc⟩ := h.first
  obtain ⟨u, d, hw', hd⟩ := h.last
  exact ⟨⟨d, u.reverse, by simp [hw'], hd⟩, ⟨v.reverse, c, by simp [hw], hc⟩⟩

theorem Solid.between {u v : Text} (hu : Solid u) (hv : Solid v) (m : Text) : Solid (u ++ m ++ v) := by
  obtain ⟨c, u', rfl, hc⟩ := hu.first
  obtain ⟨v', d, rfl, hd⟩ := hv.last
  exact ⟨⟨c, u' ++ m ++ (v' ++ [d]), rfl, hc⟩, ⟨c :: u' ++ m ++ v', d, by simp, hd⟩⟩

theorem solid_of_forall (hne : w ≠ []) (h : ∀ c ∈ w, isBlank c = false) : Solid w := by
  refine ⟨?_, ?_⟩
  · obtain ⟨c, v, rfl⟩ := List.exists_cons_of_ne_nil hne
    exact ⟨c, v, rfl, h c List.mem_cons_self⟩
  · exact ⟨w.dropLast, w.getLast hne, (List.dropLast_concat_getLast hne).symm, h _ (List.getLast_mem hne)⟩

theorem Solid.trimStart_eq (hw : Solid w) : trimStart isBlank w = w := by
  obtain ⟨c, v, rfl, hc⟩ := hw.first
  rw [trimStart, List.dropWhile_cons, if_neg (by simp [hc])]

theorem Solid.trimEnd_eq (hw : Solid w) : trimEnd isBlank w = w := by
  have hreverse : w.reverse.dropWhile isBlank = w.reverse := hw.reverse.trimStart_eq
  rw [trimEnd, hreverse, List.reverse_reverse]

theorem Solid.strip_eq (hw : Solid w) : strip w = w := by
  rw [strip, trim, hw.trimStart_eq, hw.trimEnd_eq]

theorem solid_strip (h : strip s ≠ []) : Solid (strip s) := by
  have hend : strip s = ((trimStart isBlank s).reverse.dropWhile isBlank).reverse := rfl
  refine ⟨?_, ?_⟩
  · obtain ⟨v, hv, -⟩ := trimEnd_append isBlank (trimStart isBlank s)
    obtain ⟨c, u, hu⟩ := List.exists_cons_of_ne_nil h
    have hstart : s.dropWhile isBlank = c :: u ++ v := by rw [← hu]; exact hv
    refine ⟨c, u, hu, ?_⟩
    have hhead := List.head?_dropWhile_not isBlank s
    rw [hstart] at hhead
    simpa using hhead
  · have hne : (trimStart isBlank s).reverse.dropWhile isBlank ≠ [] := by simpa [hend] using h
    obtain ⟨c, u, hu⟩ := List.exists_cons_of_ne_nil hne
    refine ⟨u.reverse, c, by rw [hend, hu, List.reverse_cons], ?_⟩
    have hhead := List.head?_dropWhile_not isBlank (trimStart isBlank s).reverse
    rw [hu] at hhead
    simpa using hhead

theorem strip_eq_trimEnd (h : ∀ c v, s = c :: v → isBlank c = false) : strip s = trimEnd isBlank s := by
  have hstart : trimStart isBlank s = s := by
    cases s with
    | nil => rfl
    | cons c v => rw [trimStart, List.dropWhile_cons, if_neg (by simp [h c v rfl])]
  rw [strip, trim, hstart]

theorem strip_between (s : Text) : ∃ u v, s = u ++ strip s ++ v ∧ (∀ c ∈ u, isBlank c = true) ∧
    ∀ c ∈ v, isBlank c = true := by
  obtain ⟨v, hv, hblank⟩ := trimEnd_append isBlank (trimStart isBlank s)
  refine ⟨s.takeWhile isBlank, v, ?_, List.all_eq_true.1 List.all_takeWhile, hblank⟩
  have hs : s = s.takeWhile isBlank ++ trimStart isBlank s := List.takeWhile_append_dropWhile.symm
  rw [List.append_assoc, strip, trim, ← hv, ← hs]

/-- Blanks in front of a text do not help to make a word. -/
theorem Solid.infix_of_infix_append (hw : Solid w) {u m : Text} (hu : ∀ c ∈ u, isBlank c = true)
    (h : w <:+: u ++ m) : w <:+: m := by
  induction u with
  | nil => exact h
  | cons b u ih =>
    rw [List.forall_mem_cons] at hu
    rcases List.infix_cons_iff.1 h with hp | hi
    · obtain ⟨c, v, rfl, hc⟩ := hw.first
      have hbc : c = b := (List.cons_prefix_cons.1 hp).1
      rw [hbc, hu.1] at hc
      exact absurd hc (by decide)
    · exact ih hu.2 hi

theorem infix_strip_iff (hw : Solid w) : w <:+: strip s ↔ w <:+: s := by
  obtain ⟨u, v, hs, hu, hv⟩ := strip_between s
  constructor
  · intro h
    rw [hs]
    exact h.trans (List.infix_append u (strip s) v)
  · intro h
    rw [hs, List.append_assoc] at h
    have hmiddle : w <:+: strip s ++ v := hw.infix_of_infix_append hu h
    have hreverse : w.reverse <:+: v.reverse ++ (strip s).reverse := by
      rw [← List.reverse_append]
      exact List.reverse_infix.2 hmiddle
    have hv' : ∀ c ∈ v.reverse, isBlank c = true := fun c hc => hv c (List.mem_reverse.1 hc)
    exact List.reverse_infix.1 (hw.reverse.infix_of_infix_append hv' hreverse)

end StyleShield.Text
