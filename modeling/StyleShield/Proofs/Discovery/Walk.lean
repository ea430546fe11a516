import StyleShield.Discovery
import StyleShield.Proofs.FileTree

/-! What a walk finds. It goes down through every directory that is not left out, and no
directory between the place it starts from and a file that it finds is left out
(`mem_walk_iff`). The place it starts from may have any name. -/
namespace StyleShield.Discovery

variable {t : FileTree} {patterns : List Glob.Pattern} {d q : Place}

/-- One step of a walk: a listed file of the directory, or what is found from a directory in it. -/
theorem mem_walkDown_succ (ht : t.WellFormed) {depth : Nat} :
    q ∈ walkDown t patterns (depth + 1) d ↔ ∃ n e, t.entryAt? (d ++ [n]) = some e ∧
      ((isListed t q e = true ∧ Glob.matchPath patterns n = true ∧ q = d ++ [n]) ∨
        (e = .directory ∧ n ∉ excluded ∧ q ∈ walkDown t patterns depth (d ++ [n]))) := by
  simp only [walkDown, List.mem_flatMap, Prod.exists, FileTree.mem_children_iff ht]
  refine exists_congr fun n => exists_congr fun e => and_congr_right fun _ => ?_
  constructor
  · intro hq
    split at hq
    · rename_i hl
      simp only [List.mem_ite_nil_right, List.mem_singleton] at hq
      obtain ⟨hm, rfl⟩ := hq
      exact .inl ⟨hl, hm, rfl⟩
    · simp only [List.mem_ite_nil_right] at hq
      exact .inr ⟨hq.1.1, hq.1.2, hq.2⟩
  · rintro (⟨hl, hm, rfl⟩ | ⟨rfl, hn, hq⟩)
    · simp [hl, hm]
    · simpa [isListed, hn] using hq

theorem mem_walkDown_iff (ht : t.WellFormed) {depth : Nat} :
    q ∈ walkDown t patterns depth d ↔ ∃ names n e, q = d ++ names ++ [n] ∧ names.length < depth ∧
      t.entryAt? q = some e ∧ isListed t q e = true ∧ Glob.matchPath patterns n = true ∧
      ∀ m ∈ names, m ∉ excluded := by
  induction depth generalizing d with
  | zero => simp [walkDown]
  | succ depth ih =>
    rw [mem_walkDown_succ ht]
    constructor
    · rintro ⟨n, e, he, ⟨hl, hm, rfl⟩ | ⟨rfl, hn, hq⟩⟩
      · exact ⟨[], n, e, by simp, by simp, he, hl, hm, by simp⟩
      · obtain ⟨names, n', e, rfl, hlen, he', hl, hm, hx⟩ := ih.1 hq
        refine ⟨n :: names, n', e, by simp, by simpa using hlen, he', hl, hm, ?_⟩
        exact List.forall_mem_cons.2 ⟨hn, hx⟩
    · rintro ⟨names, n, e, hq, hlen, he, hl, hm, hx⟩
      cases names with
      | nil =>
        obtain rfl : q = d ++ [n] := by simpa using hq
        exact ⟨n, e, he, .inl ⟨hl, hm, rfl⟩⟩
      | cons m names =>
        rw [List.forall_mem_cons] at hx
        have hq' : q = (d ++ [m]) ++ names ++ [n] := by simpa using hq
        -- The entry below shows that the first name on the way is a directory.
        have hd : t.entryAt? (d ++ [m]) = some .directory := by
          rw [hq', List.append_assoc] at he
          exact FileTree.directory_of_append ht (by simp) he
        refine ⟨m, .directory, hd, .inr ⟨rfl, hx.1, ih.2 ?_⟩⟩
        exact ⟨names, n, e, hq', by simpa using hlen, he, hl, hm, hx.2⟩

theorem mem_walk_iff (ht : t.WellFormed) :
    q ∈ walk t patterns d ↔ ∃ names n e, q = d ++ names ++ [n] ∧ t.entryAt? q = some e ∧
      isListed t q e = true ∧ Glob.matchPath patterns n = true ∧ ∀ m ∈ names, m ∉ excluded := by
  rw [walk, mem_walkDown_iff ht]
  constructor
  · rintro ⟨names, n, e, hq, -, h⟩
    exact ⟨names, n, e, hq, h⟩
  · rintro ⟨names, n, e, hq, he, h⟩
    refine ⟨names, n, e, hq, ?_, he, h⟩
    have hm := FileTree.length_le_height (FileTree.mem_of_entryAt? (by simp [hq]) he)
    simp only [hq, List.length_append, List.length_singleton] at hm
    omega

/-- A regular file whose name the patterns match, below a directory, with no directory in between
that is left out. -/
def Below (t : FileTree) (patterns : List Glob.Pattern) (directory q : Place) : Prop :=
  ∃ names n b, q = directory ++ names ++ [n] ∧ t.entryAt? q = some (.file b) ∧
    Glob.matchPath patterns n = true ∧ ∀ m ∈ names, m ∉ excluded

theorem mem_walk_iff_below (ht : t.WellFormed) (hl : t.LinkFree) :
    q ∈ walk t patterns d ↔ Below t patterns d q := by
  rw [mem_walk_iff ht]
  constructor
  · rintro ⟨names, n, e, hq, he, hlist, h⟩
    cases e with
    | file b => exact ⟨names, n, b, hq, he, h⟩
    | directory => simp [isListed] at hlist
    | link target => exact absurd he (FileTree.not_link_of_linkFree hl)
  · rintro ⟨names, n, b, hq, he, h⟩
    exact ⟨names, n, .file b, hq, he, rfl, h⟩

end StyleShield.Discovery
