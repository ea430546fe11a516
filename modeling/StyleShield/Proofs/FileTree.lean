import Mathlib.Data.List.Induction
import StyleShield.FileTree.Basic

/-! What holds of a tree that can be on a disk: every place has one entry, and what stands at a
place stands in a directory. So all places above an entry are directories
(`directory_of_append`). -/
namespace StyleShield

def Entry.isLink : Entry → Bool
  | .link _ => true
  | _ => false

namespace FileTree

/-- One entry a place, each in a directory. -/
structure WellFormed (t : FileTree) : Prop where
  nodup : (Table.keys t.entries).Nodup
  above : ∀ e ∈ t.entries, t.entryAt? e.1.dropLast = some .directory

instance (t : FileTree) : Decidable t.WellFormed :=
  decidable_of_iff ((Table.keys t.entries).Nodup ∧ ∀ e ∈ t.entries, t.entryAt? e.1.dropLast = some .directory)
    ⟨fun h => ⟨h.1, h.2⟩, fun h => ⟨h.nodup, h.above⟩⟩

/-- Without symbolic links. -/
def LinkFree (t : FileTree) : Prop := ∀ e ∈ t.entries, e.2.isLink = false

instance (t : FileTree) : Decidable t.LinkFree :=
  inferInstanceAs (Decidable (∀ e ∈ t.entries, e.2.isLink = false))

variable {t : FileTree} {cwd p q : Place} {e : Entry}

theorem mem_of_entryAt? (hp : p ≠ []) (h : t.entryAt? p = some e) : (p, e) ∈ t.entries := by
  rw [entryAt?, if_neg hp] at h
  exact Table.mem_of_find? h

theorem entryAt?_of_mem (ht : t.WellFormed) (hp : p ≠ []) (h : (p, e) ∈ t.entries) :
    t.entryAt? p = some e := by
  rw [entryAt?, if_neg hp]
  exact Table.find?_of_mem ht.nodup h

theorem mem_children_iff (ht : t.WellFormed) {n : Text} :
    (n, e) ∈ t.children p ↔ t.entryAt? (p ++ [n]) = some e :=
  mem_children.trans ⟨entryAt?_of_mem ht (by simp), mem_of_entryAt? (by simp)⟩

/-- Well formed and without links. -/
structure Regular (t : FileTree) : Prop where
  wellFormed : t.WellFormed
  linkFree : t.LinkFree

/-- A tree stays well formed if something is put into a directory of it, where no directory but for
another is lost. -/
theorem wellFormed_put (ht : t.WellFormed) (hp : p ≠ []) (habove : t.entryAt? p.dropLast = some .directory)
    (hd : t.entryAt? p = some .directory → e = .directory) : (t.put p e).WellFormed := by
  have hstays {q : Place} (hq : t.entryAt? q = some .directory) : (t.put p e).entryAt? q = some .directory := by
    rw [entryAt?_put hp]
    split
    · rename_i hpq
      rw [hd (hpq ▸ hq)]
    · exact hq
  constructor
  · change (Table.keys (Table.put t.entries p e)).Nodup
    rw [Table.keys_put]
    split
    · exact ht.nodup
    · rename_i hn
      refine List.nodup_append.2 ⟨ht.nodup, by simp, fun a ha b hb hab => hn ?_⟩
      rw [List.mem_singleton] at hb
      exact hb ▸ hab ▸ ha
  · intro x hx
    rcases Table.mem_of_mem_put hx with rfl | hx
    · exact hstays habove
    · exact hstays (ht.above x hx)

theorem linkFree_put (hl : t.LinkFree) (p : Place) (he : e.isLink = false) : (t.put p e).LinkFree := by
  intro x hx
  rcases Table.mem_of_mem_put hx with rfl | hx
  · exact he
  · exact hl x hx

theorem directory_of_append (ht : t.WellFormed) {r : List Text} (hr : r ≠ [])
    (h : t.entryAt? (p ++ r) = some e) : t.entryAt? p = some .directory := by
  induction r using List.reverseRecOn generalizing e with
  | nil => exact absurd rfl hr
  | append_singleton r n ih =>
    have ha := ht.above _ (mem_of_entryAt? (by simp) h)
    rw [← List.append_assoc, List.dropLast_concat] at ha
    by_cases hn : r = []
    · rwa [hn, List.append_nil] at ha
    · exact ih hn ha

theorem directory_dropLast (ht : t.WellFormed) (h : t.entryAt? p = some e) : t.entryAt? p.dropLast = some .directory := by
  by_cases hp : p = []
  · rw [hp]
    rfl
  · exact ht.above _ (mem_of_entryAt? hp h)

theorem not_link_of_linkFree (hl : t.LinkFree) {target : Text} : t.entryAt? p ≠ some (.link target) := by
  intro h
  by_cases hp : p = []
  · simp [entryAt?, hp] at h
  · exact absurd (hl _ (mem_of_entryAt? hp h)) (by simp [Entry.isLink])

theorem fileAt?_eq_some_iff {x : Path} :
    t.fileAt? cwd x = some q ↔ t.locate cwd x = .ok q ∧ ∃ b, t.entryAt? q = some (.file b) := by
  unfold fileAt?
  split
  · rename_i place hx
    split
    · rename_i b hb
      constructor
      · rintro h
        obtain rfl := Option.some.inj h
        exact ⟨hx, b, hb⟩
      · rintro ⟨h, -⟩
        exact congrArg some (Except.ok.inj (hx.symm.trans h))
    · rename_i hn
      simp only [reduceCtorEq, false_iff]
      rintro ⟨h, b, hb⟩
      obtain rfl := Except.ok.inj (hx.symm.trans h)
      exact hn b hb
  · rename_i er hx
    simp [hx]

theorem directoryAt?_eq_some_iff {x : Path} :
    t.directoryAt? cwd x = some q ↔ t.locate cwd x = .ok q ∧ t.entryAt? q = some .directory := by
  unfold directoryAt?
  split
  · rename_i place hx
    simp only [Option.ite_none_right_eq_some, Option.some.injEq]
    constructor
    · rintro ⟨hd, rfl⟩
      exact ⟨hx, hd⟩
    · rintro ⟨h, hd⟩
      obtain rfl := Except.ok.inj (hx.symm.trans h)
      exact ⟨hd, rfl⟩
  · rename_i er hx
    simp [hx]

section

variable {α : Type} {a b : α} {x : Path}

@[simp] theorem ask_eq_ok_iff : t.ask cwd x a = .ok b ↔ t.locate cwd x ≠ .error .nameTooLong ∧ a = b := by
  unfold ask
  split
  · simp [*]
  · rename_i hn
    simp [show t.locate cwd x ≠ .error .nameTooLong from hn]

@[simp] theorem ask_eq_error_iff {f : Fault} :
    t.ask cwd x a = .error f ↔ t.locate cwd x = .error .nameTooLong ∧ f = .system .nameTooLong x.text := by
  unfold ask
  split
  · simp [*, eq_comm]
  · rename_i hn
    simp [show t.locate cwd x ≠ .error .nameTooLong from hn]

end

theorem find_eq_ok_iff {x : Path} : t.find cwd x = .ok e ↔ ∃ q, t.locate cwd x = .ok q ∧ t.entryAt? q = some e := by
  unfold find
  cases t.locate cwd x with
  | error e => simp
  | ok q => cases hq : t.entryAt? q <;> simp [hq]

theorem read_eq_ok_iff {x : Path} {b : Bytes} : t.read cwd x = .ok b ↔ t.find cwd x = .ok (.file b) := by
  unfold read
  rcases t.find cwd x with e | (_ | _ | _) <;> simp

theorem isFile_iff_read {x : Path} : t.isFile cwd x = true ↔ ∃ b, t.read cwd x = .ok b := by
  simp only [isFile, Option.isSome_iff_exists, fileAt?_eq_some_iff, read_eq_ok_iff, find_eq_ok_iff]
  exact ⟨fun ⟨q, hq, b, hb⟩ => ⟨b, q, hq, hb⟩, fun ⟨b, q, hq, hb⟩ => ⟨q, hq, b, hb⟩⟩

theorem ask_of_isFile {α : Type} {x : Path} {a : α} (h : t.isFile cwd x = true) : t.ask cwd x a = .ok a := by
  obtain ⟨b, hb⟩ := isFile_iff_read.1 h
  obtain ⟨q, hq, -⟩ := find_eq_ok_iff.1 (read_eq_ok_iff.1 hb)
  exact ask_eq_ok_iff.2 ⟨by simp [hq], rfl⟩

theorem directoryAt?_of_fileAt? {x : Path} (h : t.fileAt? cwd x = some q) : t.directoryAt? cwd x = none := by
  obtain ⟨hp, b, hb⟩ := fileAt?_eq_some_iff.1 h
  simp [directoryAt?, hp, hb]

end FileTree
end StyleShield
