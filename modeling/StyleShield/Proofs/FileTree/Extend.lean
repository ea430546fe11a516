import StyleShield.FileTree.Write
import StyleShield.Proofs.FileTree.Leads

/-! Directories that are made. Where a directory is asked for, whether it can be had or not, all that
was there stays as it is and nothing but directories is new (`extends_of_ensureDirectories`); if it
can be had, its path leads to a directory (`directory_of_ensureDirectories`). -/
namespace StyleShield.FileTree

variable {t t' t'' : FileTree} {cwd p q : Place} {x : Path}

/-- Everything stays as it is, and only directories are new. -/
structure Extends (t t' : FileTree) : Prop where
  wellFormed : t.WellFormed → t'.WellFormed
  linkFree : t.LinkFree → t'.LinkFree
  kept : ∀ p e, t.entryAt? p = some e → t'.entryAt? p = some e
  new : ∀ p e, t.entryAt? p = none → t'.entryAt? p = some e → e = .directory

namespace Extends

theorem refl (t : FileTree) : Extends t t where
  wellFormed := id
  linkFree := id
  kept _ _ h := h
  new _ _ hn h := by simp [hn] at h

theorem trans (h : Extends t t') (h' : Extends t' t'') : Extends t t'' where
  wellFormed ht := h'.wellFormed (h.wellFormed ht)
  linkFree hl := h'.linkFree (h.linkFree hl)
  kept p e hp := h'.kept p e (h.kept p e hp)
  new p e hn hp := by
    cases hm : t'.entryAt? p with
    | none => exact h'.new p e hm hp
    | some e₁ =>
      obtain rfl := Option.some.inj ((h'.kept p e₁ hm).symm.trans hp)
      exact h.new p e₁ hn hm

theorem put (habove : t.entryAt? p = some .directory) {n : Text} (hn : t.entryAt? (p ++ [n]) = none) :
    Extends t (t.put (p ++ [n]) .directory) where
  wellFormed ht := wellFormed_put ht (by simp) (by simpa using habove) fun _ => rfl
  linkFree hl := linkFree_put hl _ rfl
  kept q e hq := by
    have hpq : p ++ [n] ≠ q := by
      rintro rfl
      simp [hn] at hq
    rw [entryAt?_put (by simp), if_neg hpq, hq]
  new q e hq he := by
    rw [entryAt?_put (by simp)] at he
    split at he
    · exact (Option.some.inj he).symm
    · simp [hq] at he

theorem regular (h : Extends t t') (ht : t.Regular) : t'.Regular :=
  ⟨h.wellFormed ht.wellFormed, h.linkFree ht.linkFree⟩

theorem grows (h : Extends t t') (touched : Place → Prop) : Grows touched t t' where
  directory p hp := h.kept p _ hp
  file p b hb := ⟨b, h.kept p _ hb, .inl rfl⟩
  new p e hn he := .inl (h.new p e hn he)

end Extends

theorem makeDirectory_eq_ok (h : t.makeDirectory cwd x = .ok t') : ∃ names n above, x.names = names ++ [n] ∧
    n ≠ dotDot ∧ isLong nameLimit n = false ∧ t.locate cwd x.parent = .ok above ∧
    t.entryAt? above = some .directory ∧ t.entryAt? (above ++ [n]) = none ∧
    t' = t.put (above ++ [n]) .directory := by
  unfold makeDirectory at h
  split at h
  · simp at h
  · rename_i n hn
    obtain ⟨names, hnames⟩ := List.getLast?_eq_some_iff.1 hn
    split at h
    · simp at h
    · rename_i above habove
      split at h
      · split at h <;> simp at h
      · rename_i hdd
        split at h
        · rename_i hdir
          split at h
          · simp at h
          · rename_i hshort
            split at h
            · simp at h
            · rename_i hfree
              exact ⟨names, n, above, hnames, hdd, by simpa using hshort, habove, hdir, by simpa using hfree,
                (Except.ok.inj h).symm⟩
        · simp at h

theorem ensureDirectory_eq_ok (h : t.ensureDirectory cwd x = .ok t') :
    t.makeDirectory cwd x = .ok t' ∨ (t' = t ∧ t.isDirectory cwd x = true) := by
  unfold ensureDirectory at h
  split at h
  · rename_i t₁ hm
    exact .inl (Except.ok.inj h ▸ hm)
  · split at h
    · rename_i hd
      exact .inr ⟨(Except.ok.inj h).symm, hd⟩
    · simp at h

theorem extends_of_makeDirectory (h : t.makeDirectory cwd x = .ok t') : Extends t t' := by
  obtain ⟨names, n, above, -, -, -, -, hdir, hfree, rfl⟩ := makeDirectory_eq_ok h
  exact .put hdir hfree

theorem extends_of_ensureDirectory (h : t.ensureDirectory cwd x = .ok t') : Extends t t' := by
  rcases ensureDirectory_eq_ok h with hm | ⟨rfl, -⟩
  · exact extends_of_makeDirectory hm
  · exact .refl t'

theorem extends_of_ensureDirectories (t : FileTree) (cwd : Place) (x : Path) :
    Extends t (t.ensureDirectories cwd x).1 := by
  fun_induction ensureDirectories t cwd x with
  | case1 x t₁ hm => exact extends_of_makeDirectory hm
  | case2 x hm hn => exact .refl t
  | case3 x hm hn t₁ f he ih => rwa [he] at ih
  | case4 x hm hn t₁ t₂ he hs ih =>
    rw [hs] at ih
    exact ih.trans (extends_of_ensureDirectory he)
  | case5 x hm hn t₁ f he hs ih => rwa [hs] at ih
  | case6 x e hn hm hd => exact .refl t
  | case7 x e hn hm hd => exact .refl t

theorem directory_of_makeDirectory (h : t.makeDirectory cwd x = .ok t') (hq : t'.locate cwd x = .ok q) :
    t'.entryAt? q = some .directory := by
  have hkept := (extends_of_makeDirectory h).kept
  obtain ⟨names, n, above, hnames, hdd, hshort, habove, hdir, hfree, rfl⟩ := makeDirectory_eq_ok h
  have hparent : x.parent.names = names := by simp [Path.parent, hnames]
  obtain ⟨left, hleads⟩ := leads_iff.1 (locate_eq_ok_iff.1 habove).2
  rw [hparent] at hleads
  have hlookup := (locate_eq_ok_iff.1 hq).2
  have hstart : startOf cwd x.parent = startOf cwd x := rfl
  have hdir' := hkept _ _ hdir
  rw [hnames, ← hstart, (hleads.kept hkept).lookup_append] at hlookup
  by_cases hd : n = dot
  · subst hd
    rw [lookup_stay hdir', lookup_nil] at hlookup
    exact Except.ok.inj hlookup ▸ hdir'
  · have hmade : (t.put (above ++ [n]) .directory).entryAt? (above ++ [n]) = some .directory := by
      rw [entryAt?_put (by simp), if_pos rfl]
    rw [lookup_down hdir' ⟨hd, hdd⟩ hshort hmade rfl, lookup_nil] at hlookup
    exact Except.ok.inj hlookup ▸ hmade

theorem directory_of_isDirectory (h : t.isDirectory cwd x = true) (hq : t.locate cwd x = .ok q) :
    t.entryAt? q = some .directory := by
  obtain ⟨p, hp⟩ := Option.isSome_iff_exists.1 h
  obtain ⟨hlocate, hdir⟩ := directoryAt?_eq_some_iff.1 hp
  exact Except.ok.inj (hlocate.symm.trans hq) ▸ hdir

theorem directory_of_ensureDirectory (h : t.ensureDirectory cwd x = .ok t') (hq : t'.locate cwd x = .ok q) :
    t'.entryAt? q = some .directory := by
  rcases ensureDirectory_eq_ok h with hm | ⟨rfl, hd⟩
  · exact directory_of_makeDirectory hm hq
  · exact directory_of_isDirectory hd hq

theorem directory_of_ensureDirectories (h : t.ensureDirectories cwd x = (t', none)) (hq : t'.locate cwd x = .ok q) :
    t'.entryAt? q = some .directory := by
  fun_induction ensureDirectories t cwd x generalizing t' q with
  | case1 x t₁ hm =>
    obtain rfl := (Prod.mk.inj h).1
    exact directory_of_makeDirectory hm hq
  | case2 x hm hn => simp at h
  | case3 x hm hn t₁ f hs ih => simp at h
  | case4 x hm hn t₁ t₂ he hs ih =>
    obtain rfl := (Prod.mk.inj h).1
    exact directory_of_ensureDirectory he hq
  | case5 x hm hn t₁ f he hs ih => simp at h
  | case6 x e hn hm hd =>
    obtain rfl := (Prod.mk.inj h).1
    exact directory_of_isDirectory hd hq
  | case7 x e hn hm hd => simp at h

end StyleShield.FileTree
