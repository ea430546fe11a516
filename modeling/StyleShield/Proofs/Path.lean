import StyleShield.Path

/-! Paths in order, and names without their extension. Names are compared by code points and paths name by
name; both are total orders in which only equal things are equal. A name is its stem and an extension that
starts at the last dot, or it is a stem as a whole (`nameWithExtension_of_isStem`). -/
namespace StyleShield.Path

theorem compareText_eq : compareText = List.compareLex (compareOn Char.toNat) := by
  funext s t
  induction s generalizing t with
  | nil => cases t <;> rfl
  | cons a s ih =>
    cases t with
    | nil => rfl
    | cons b t => rw [compareText, ih, List.compareLex_cons_cons, compareOn]

theorem compareNames_eq : compareNames = List.compareLex compareText := by
  funext s t
  induction s generalizing t with
  | nil => cases t <;> rfl
  | cons a s ih =>
    cases t with
    | nil => rfl
    | cons b t => rw [compareNames, ih, List.compareLex_cons_cons]

instance : Std.TransCmp compareText := by
  rw [compareText_eq]
  infer_instance

instance : Std.TransCmp compareNames := by
  rw [compareNames_eq]
  infer_instance

instance : Std.LawfulEqCmp compareText := by
  rw [compareText_eq]
  have : Std.LawfulEqCmp (compareOn Char.toNat) := ⟨fun h => Char.toNat_inj.1 (Nat.compare_eq_eq.1 h)⟩
  infer_instance

instance : Std.LawfulEqCmp compareNames := by
  rw [compareNames_eq]
  infer_instance

theorem le_iff {p q : Path} : le p q = true ↔ (compareNames p.names q.names).isLE = true := by
  simp only [le, decide_eq_true_eq]
  cases compareNames p.names q.names <;> decide

theorem le_trans {p q r : Path} (h : le p q = true) (h' : le q r = true) : le p r = true :=
  le_iff.2 (Std.TransCmp.isLE_trans (le_iff.1 h) (le_iff.1 h'))

theorem le_total (p q : Path) : (le p q || le q p) = true := by
  have h : compareNames p.names q.names = (compareNames q.names p.names).swap := Std.OrientedCmp.eq_swap
  simp only [le, h]
  cases compareNames q.names p.names <;> decide

/-- Strictly before: by the names of the path, from the first one on. -/
def Before (p q : Path) : Prop := compareNames p.names q.names = .lt

theorem before_of_le {p q : Path} (h : le p q = true) (hn : p.names ≠ q.names) : Before p q := by
  have hle := le_iff.1 h
  have hne : compareNames p.names q.names ≠ .eq := fun he => hn (Std.LawfulEqCmp.eq_of_compare he)
  revert hle hne
  rw [Before]
  cases compareNames p.names q.names <;> decide

theorem not_before_of_before {p q : Path} (h : Before p q) : ¬ Before q p := by
  have hg : compareNames q.names p.names = .gt := Std.OrientedCmp.gt_of_lt h
  simp [Before, hg]

theorem nodup_of_pairwise_before {ps : List Path} (h : ps.Pairwise Before) : ps.Nodup := by
  have hne {a b : Path} (hab : Before a b) : a ≠ b := by
    rintro rfl
    exact not_before_of_before hab hab
  exact h.imp hne

theorem eq_of_pairwise_before {ps qs : List Path} (hp : ps.Pairwise Before) (hq : qs.Pairwise Before)
    (h : ∀ p, p ∈ ps ↔ p ∈ qs) : ps = qs := by
  have hperm : ps.Perm qs :=
    (List.perm_ext_iff_of_nodup (nodup_of_pairwise_before hp) (nodup_of_pairwise_before hq)).2 h
  exact hperm.eq_of_pairwise (fun a b _ _ hab hba => absurd hba (not_before_of_before hab)) hp hq

section Stem

variable {n s e : Text}

/-- A name without its extension. The extension starts at the last dot, if there is something before and after
that dot. -/
inductive IsStem : Text → Text → Prop
  | cut {s e : Text} (before : s ≠ []) (after : e ≠ []) (last : '.' ∉ e) : IsStem (s ++ '.' :: e) s
  | whole {n : Text} (h : ∀ s e, s ≠ [] → e ≠ [] → '.' ∉ e → n ≠ s ++ '.' :: e) : IsStem n n

theorem exists_last_dot (h : '.' ∈ n) : ∃ s e, '.' ∉ e ∧ n = s ++ '.' :: e := by
  obtain ⟨after, before, hn, hdot⟩ := List.eq_append_cons_of_mem (List.mem_reverse.2 h)
  refine ⟨before.reverse, after.reverse, by simpa using hdot, ?_⟩
  rw [← List.reverse_reverse n, hn]
  simp

theorem takeWhile_reverse (h : '.' ∉ e) : (e.reverse ++ s).takeWhile (· ≠ '.') = e.reverse ++ s.takeWhile (· ≠ '.') := by
  refine List.takeWhile_append_of_pos fun c hc => decide_eq_true fun he => h ?_
  rwa [← he, ← List.mem_reverse]

theorem extensionStart?_of_last_dot (hdot : '.' ∉ e) :
    extensionStart? (s ++ '.' :: e) = if s = [] ∨ e = [] then none else some s.length := by
  have hafter : (s ++ '.' :: e).reverse.takeWhile (· ≠ '.') = e.reverse := by
    rw [List.reverse_append, List.reverse_cons, List.append_assoc, takeWhile_reverse hdot]
    simp
  have hlength : (s ++ '.' :: e).length - e.reverse.length = s.length + 1 := by
    simp only [List.length_append, List.length_cons, List.length_reverse]
    omega
  unfold extensionStart?
  rw [hafter]
  dsimp only
  rw [hlength]
  simp [← List.length_eq_zero_iff]

theorem extensionStart?_of_no_dot (hdot : '.' ∉ n) : extensionStart? n = none := by
  have hafter : n.reverse.takeWhile (· ≠ '.') = n.reverse := by
    have h := takeWhile_reverse (s := []) hdot
    simpa using h
  unfold extensionStart?
  rw [hafter]
  simp

theorem nameWithExtension_of_isStem (h : IsStem n s) (ext : Text) : nameWithExtension ext n = s ++ ext := by
  unfold nameWithExtension
  cases h with
  | cut hs he hdot => simp [extensionStart?_of_last_dot hdot, hs, he]
  | whole hwhole =>
    have hnone : extensionStart? n = none := by
      by_cases hmem : '.' ∈ n
      · obtain ⟨a, e, hdot, hn⟩ := exists_last_dot hmem
        have hempty : a = [] ∨ e = [] := by
          by_cases ha : a = []
          · exact .inl ha
          · exact .inr (Classical.not_not.1 fun he => hwhole a e ha he hdot hn)
        rw [hn, extensionStart?_of_last_dot hdot, if_pos hempty]
      · exact extensionStart?_of_no_dot hmem
    rw [hnone]

theorem exists_isStem (n : Text) : ∃ s, IsStem n s := by
  by_cases h : ∃ s e, s ≠ [] ∧ e ≠ [] ∧ '.' ∉ e ∧ n = s ++ '.' :: e
  · obtain ⟨s, e, hs, he, hdot, rfl⟩ := h
    exact ⟨s, .cut hs he hdot⟩
  · exact ⟨n, .whole fun s e hs he hdot hn => h ⟨s, e, hs, he, hdot, hn⟩⟩

end Stem

end StyleShield.Path
