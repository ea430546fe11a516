import StyleShield.Proofs.FileTree.Lookup
import StyleShield.Proofs.Toml
import StyleShield.Settings.File

/-! What holds of the search for settings and of their reading wherever either stops. What the search
gives is a file (`exists_of_find`), an entry can only have a value of the wrong kind (`setAll_failsOnly`), and
files of other names do not matter to the search (`find_of_grows`). -/
namespace StyleShield.Settings

open FileTree (pathOf)

/-- What can be wrong with a settings file besides its values. -/
inductive IsFileFault : Fault → Prop
  | undecodable : IsFileFault (.encoding .undecodable)
  | malformed : IsFileFault .malformedToml
  | digitLimit {n : Nat} (h : Text.digitLimit < n) : IsFileFault (.digitLimit n)
  | tooDeep : IsFileFault .tooDeep
  | notTable : IsFileFault .notTable
  | notSearchable : IsFileFault .notSearchable

variable {room : Nat} {t : FileTree} {s : Settings} {directory : Place} {p : Path}

theorem isFileFault_of_readBytes {f : Fault} (h : f = .encoding .undecodable ∨ Toml.IsDocumentFault f) :
    IsFileFault f := by
  rcases h with rfl | h
  · exact .undecodable
  · cases h with
    | malformed => exact .malformed
    | digitLimit hn => exact .digitLimit hn
    | tooDeep => exact .tooDeep

theorem isFile_of_counts {name : Text} (h : counts room t directory name = .ok true) :
    t.isFile [] (pathOf (directory ++ [name])) = true := by
  unfold counts at h
  dsimp only at h
  split at h
  · simp at h
  · simp at h
  · rename_i hfile
    exact (FileTree.ask_eq_ok_iff.1 hfile).2

theorem exists_of_firstIn {names : List Text} (h : firstIn room t directory names = .ok (some p)) :
    ∃ n ∈ names, p = pathOf (directory ++ [n]) ∧ t.isFile [] p = true := by
  induction names with
  | nil => simp [firstIn] at h
  | cons n names ih =>
    unfold firstIn at h
    split at h
    · simp at h
    · rename_i hc
      obtain rfl : pathOf (directory ++ [n]) = p := by simpa using h
      exact ⟨n, List.mem_cons_self, rfl, isFile_of_counts hc⟩
    · obtain ⟨m, hm, hp⟩ := ih h
      exact ⟨m, List.mem_cons_of_mem n hm, hp⟩

theorem exists_of_find {start : Place} (h : find room t start = .ok (some p)) :
    ∃ d ∈ ancestors start, ∃ n ∈ fileNames, p = pathOf (d ++ [n]) ∧ t.isFile [] p = true := by
  unfold find at h
  generalize ancestors start = places at h
  induction places with
  | nil => simp [firstAmong] at h
  | cons d places ih =>
    unfold firstAmong at h
    split at h
    · simp at h
    · rename_i q hq
      obtain rfl : q = p := by simpa using h
      exact ⟨d, List.mem_cons_self, exists_of_firstIn hq⟩
    · obtain ⟨d', hd', hp⟩ := ih h
      exact ⟨d', List.mem_cons_of_mem d hd', hp⟩

theorem set_failsOnly (s : Settings) (field : Field) (key : Text) (v : Toml.Value) :
    FailsOnly (fun f => ∃ c, f = .settings c) (s.set field key v) := by
  have hwrong : FailsOnly (fun f => ∃ c, f = .settings c)
      (.error (.settings (.wrongKind key field.expected v.kind)) : Except Fault Settings) := .error ⟨_, rfl⟩
  cases field with
  | compiler | ext | passIgnored | ignorePackages =>
    unfold set
    dsimp only
    split
    · exact .ok _
    · exact hwrong
  | ignores | includes =>
    refine .ite ?_ hwrong
    split
    · exact .ok _
    · exact .error ⟨_, rfl⟩

theorem setAll_failsOnly (s : Settings) (es : Table Text Toml.Value) :
    FailsOnly (fun f => ∃ c, f = .settings c) (setAll s es) := by
  induction es generalizing s with
  | nil => exact .ok _
  | cons e es ih =>
    obtain ⟨k, v⟩ := e
    unfold setAll
    split
    · exact ih s
    · split
      · rename_i hf
        exact .error (set_failsOnly s _ k v _ hf)
      · exact ih _

section Growth

variable {t' : FileTree} {touched : Place → Prop} {n : Text}

theorem counts_of_grows (hg : FileTree.Grows touched t t') (ht : t.Regular) (ht' : t'.Regular)
    (hd : t.entryAt? directory = some .directory) (hplain : FileTree.Plain (directory ++ [n]))
    (hn : ¬ touched (directory ++ [n])) : counts room t' directory n = counts room t directory n := by
  have hfile : t'.isFile [] (pathOf (directory ++ [n])) = t.isFile [] (pathOf (directory ++ [n])) :=
    hg.isFile_pathOf ht ht' hplain hn
  unfold counts
  dsimp only
  rw [hg.ask_pathOf ht ht' hd hplain, hfile]
  by_cases hf : t.isFile [] (pathOf (directory ++ [n])) = true
  · obtain ⟨b, hb⟩ := FileTree.isFile_iff_read.1 hf
    have hb' := (hg.read_pathOf ht ht' hplain hn).2 hb
    rw [hb, hb']
  · rw [Bool.not_eq_true] at hf
    rw [hf]
    split <;> simp_all

theorem firstIn_of_grows (hg : FileTree.Grows touched t t') (ht : t.Regular) (ht' : t'.Regular)
    (hd : t.entryAt? directory = some .directory) {names : List Text}
    (h : ∀ n ∈ names, FileTree.Plain (directory ++ [n]) ∧ ¬ touched (directory ++ [n])) :
    firstIn room t' directory names = firstIn room t directory names := by
  induction names with
  | nil => rfl
  | cons n names ih =>
    rw [List.forall_mem_cons] at h
    rw [firstIn, firstIn, counts_of_grows hg ht ht' hd h.1.1 h.1.2, ih h.2]

theorem plain_of_mem_ancestors {start d : Place} (hs : FileTree.Plain start) (hd : d ∈ ancestors start)
    (hn : n ∈ fileNames) : FileTree.Plain (d ++ [n]) := by
  have hname : ∀ n ∈ fileNames, n ≠ FileTree.dot ∧ n ≠ FileTree.dotDot := by decide
  obtain ⟨i, -, rfl⟩ := List.mem_map.1 hd
  intro m hm
  rcases List.mem_append.1 hm with hm | hm
  · exact hs m (List.mem_of_mem_take hm)
  · exact List.mem_singleton.1 hm ▸ hname n hn

theorem directory_of_mem_ancestors (ht : t.WellFormed) {start d : Place} (hs : t.entryAt? start = some .directory)
    (hd : d ∈ ancestors start) : t.entryAt? d = some .directory := by
  obtain ⟨i, -, rfl⟩ := List.mem_map.1 hd
  have hsplit := List.take_append_drop (start.length - i) start
  by_cases hr : start.drop (start.length - i) = []
  · rw [hr, List.append_nil] at hsplit
    rwa [hsplit]
  · exact FileTree.directory_of_append ht hr (hsplit.symm ▸ hs)

/-- Files of other names and new directories do not change what is found from a directory. -/
theorem find_of_grows (hg : FileTree.Grows touched t t') (ht : t.Regular) (ht' : t'.Regular) {start : Place}
    (hd : t.entryAt? start = some .directory) (hs : FileTree.Plain start)
    (hn : ∀ d, ∀ n ∈ fileNames, ¬ touched (d ++ [n])) : find room t' start = find room t start := by
  have hall : ∀ d ∈ ancestors start, firstIn room t' d fileNames = firstIn room t d fileNames := fun d hmem =>
    firstIn_of_grows hg ht ht' (directory_of_mem_ancestors ht.wellFormed hd hmem) fun n hname =>
      ⟨plain_of_mem_ancestors hs hmem hname, hn d n hname⟩
  unfold find
  generalize ancestors start = places at hall
  induction places with
  | nil => rfl
  | cons d places ih =>
    rw [List.forall_mem_cons] at hall
    rw [firstAmong, firstAmong, hall.1, ih hall.2]

theorem load_of_grows (hg : FileTree.Grows touched t t') (ht : t.Regular) (ht' : t'.Regular) {start : Place}
    (hs : FileTree.Plain start) (hn : ∀ d, ∀ n ∈ fileNames, ¬ touched (d ++ [n]))
    {room' : Nat} (h : find room t start = .ok (some p)) : load room' t' p = load room' t p := by
  obtain ⟨d, hd, n, hmem, rfl, hfile⟩ := exists_of_find h
  obtain ⟨b, hb⟩ := FileTree.isFile_iff_read.1 hfile
  have hb' := (hg.read_pathOf ht ht' (plain_of_mem_ancestors hs hd hmem) (hn d n hmem)).2 hb
  rw [load, load, hb, hb']

end Growth

end StyleShield.Settings
