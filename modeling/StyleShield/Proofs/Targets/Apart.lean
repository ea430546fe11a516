import StyleShield.Proofs.Discovery.Find
import StyleShield.Proofs.Targets.Clash

/-! Targets above one another. Only equal targets are a clash. Of two that are not, one can be the directory of the
other: just where a file lies in a directory that has the name of another file's output (`IsOutput.isAbove_iff`). -/
namespace StyleShield

open FileTree (pathOf)

section Relative

variable {t : FileTree} {cwd base : Place} {paths names : List Text} {n : Text} {includes : Option (List Text)}
  {found : List Found} {x : Found} {f : StyleFile}

/-- A finding that is a file of the tree, by its names below its base. -/
def Found.LiesBelow (t : FileTree) (x : Found) (base : Place) (names : List Text) (n : Text) : Prop :=
  x = ⟨pathOf (base ++ names ++ [n]), pathOf base⟩ ∧ ∃ b, t.entryAt? (base ++ names ++ [n]) = some (.file b)

theorem Discovery.exists_liesBelow (ht : t.Regular) (h : find t cwd paths includes = .ok found) :
    ∀ x ∈ found, ∃ base names n, x.LiesBelow t base names n := by
  obtain ⟨patterns, hpatterns, -⟩ := bind_eq_ok_iff.1 h
  have hthere := isThere_of_find hpatterns h
  obtain ⟨found', hfound, -, hmem⟩ := find_of_isThere ht.wellFormed ht.linkFree hpatterns hthere
  obtain rfl := Except.ok.inj (h.symm.trans hfound)
  intro x hx
  obtain ⟨q, base, rfl, -, raw, -, -, -, hreach⟩ := (hmem x).1 hx
  rcases hreach with ⟨hfile, rfl⟩ | ⟨-, names, n, b, rfl, hb, -⟩
  · obtain ⟨-, b, hb⟩ := FileTree.fileAt?_eq_some_iff.1 hfile
    have hq : q ≠ [] := by
      rintro rfl
      simp [FileTree.entryAt?] at hb
    have hlast : q.dropLast ++ [] ++ [q.getLast hq] = q := by simp [List.dropLast_concat_getLast]
    exact ⟨q.dropLast, [], q.getLast hq, by rw [hlast], b, by rw [hlast]; exact hb⟩
  · exact ⟨base, names, n, rfl, b, hb⟩

/-- A stylesheet at the path of a finding, with its base. -/
def StyleFile.IsAt (f : StyleFile) (x : Found) : Prop := f.path = x.path ∧ f.base = some x.base

theorem StyleFile.IsAt.relative_eq (h : f.IsAt ⟨pathOf (base ++ names ++ [n]), pathOf base⟩) :
    f.relative = ⟨.none, names ++ [n]⟩ := by
  have hbelow : (pathOf base).below? (pathOf (base ++ names ++ [n])) = some ⟨.none, names ++ [n]⟩ := by
    have happend : pathOf (base ++ names ++ [n]) = pathOf base ++ (⟨.none, names ++ [n]⟩ : Path) := by
      rw [Path.append_of_relative rfl, List.append_assoc]
      rfl
    rw [happend]
    exact Path.below?_append rfl
  rw [StyleFile.relative, h.1, h.2, Option.bind_some, hbelow]
  rfl

end Relative

namespace Target

/-- One path is that of a directory on the way to the other. -/
def IsAbove (x y : Path) : Prop := x.anchor = y.anchor ∧ x.names <+: y.names ∧ x.names ≠ y.names

instance (x y : Path) : Decidable (IsAbove x y) := inferInstanceAs (Decidable (_ ∧ _ ∧ _))

/-- The second file lies, below its base, in a directory that has the place and the name of the first one's
output. -/
def NamesDirectoryOf (f g : StyleFile) : Prop :=
  ∃ s, Path.IsStem f.relative.name s ∧ f.relative.parent.names ++ [s ++ compiledExt] <+: g.relative.parent.names

variable {directory x y : Path} {f g : StyleFile}

theorem IsOutput.isAbove_iff (hf : IsOutput directory f x) (hg : IsOutput directory g y) :
    IsAbove x y ↔ NamesDirectoryOf f g := by
  obtain ⟨s, hs, rfl⟩ := hf
  obtain ⟨s', -, rfl⟩ := hg
  simp only [IsAbove, List.prefix_append_right_inj, ne_eq, List.append_cancel_left_eq, true_and,
    List.prefix_concat_iff]
  constructor
  · rintro ⟨hsame | hprefix, hne⟩
    · exact absurd hsame hne
    · exact ⟨s, hs, hprefix⟩
  · rintro ⟨r, hr, hprefix⟩
    have hsame : r ++ compiledExt = s ++ compiledExt := by
      rw [← Path.nameWithExtension_of_isStem hs, ← Path.nameWithExtension_of_isStem hr]
    rw [hsame] at hprefix
    refine ⟨.inr hprefix, fun he => ?_⟩
    have hlength := hprefix.length_le
    rw [he, List.length_append, List.length_singleton] at hlength
    exact absurd hlength (Nat.not_succ_le_self _)

/-- Then there is such a directory in the tree. -/
theorem NamesDirectoryOf.exists_directory {t : FileTree} (ht : t.WellFormed) {z : Found} {base : Place}
    {names : List Text} {n : Text} (hz : z.LiesBelow t base names n) (hg : g.IsAt z) (h : NamesDirectoryOf f g) :
    ∃ s, Path.IsStem f.relative.name s ∧
      t.entryAt? (base ++ (f.relative.parent.names ++ [s ++ compiledExt])) = some .directory := by
  obtain ⟨s, hs, r, hr⟩ := h
  obtain ⟨rfl, b, hb⟩ := hz
  have hparent : g.relative.parent.names = names := by simp [hg.relative_eq, Path.parent]
  refine ⟨s, hs, FileTree.directory_of_append ht (r := r ++ [n]) (by simp) (e := .file b) ?_⟩
  rw [← hb, ← hparent, ← hr]
  simp

theorem exists_assign {files : List StyleFile} {dir : Text} (hdir : dir ≠ []) (h : ∀ f ∈ files, f.relative.names ≠ [])
    (output : Text) : ∃ targets : List Path, assign output (some dir) files = .ok (targets.map some) ∧
      List.Forall₂ (IsOutput (.ofText dir)) files targets := by
  obtain ⟨c, d, rfl⟩ := List.exists_cons_of_ne_nil hdir
  exact exists_allBelow (.ofText (c :: d)) h

end Target
end StyleShield
