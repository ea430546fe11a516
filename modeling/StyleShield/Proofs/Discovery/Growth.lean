import StyleShield.Proofs.Discovery.Find
import StyleShield.Proofs.FileTree.Lookup

/-! A second search of a directory. Files that come below directories that are left out are not found,
and directories that come hold nothing, so the search finds what it found before
(`find_of_grows`). -/
namespace StyleShield.Discovery

open FileTree (pathOf)

variable {t t' : FileTree} {cwd R q : Place} {patterns : List Glob.Pattern} {raw : Text} {touched : Place → Prop}
  {f : Found}

theorem isFound_directory_iff (hR : t.directoryAt? cwd (.ofText raw) = some R) :
    IsFound t cwd patterns [raw] f ↔ ∃ q, f = ⟨pathOf q, pathOf R⟩ ∧ Below t patterns R q := by
  have hfile (q : Place) : t.fileAt? cwd (.ofText raw) ≠ some q := fun h => by
    simp [FileTree.directoryAt?_of_fileAt? h] at hR
  have hfirst (q base : Place) : FirstReaches t cwd patterns [raw] q base ↔ base = R ∧ Below t patterns R q := by
    rw [firstReaches_cons]
    constructor
    · rintro ((⟨h, -⟩ | ⟨h, hb⟩) | ⟨-, before, r, after, he, -⟩)
      · exact absurd h (hfile q)
      · obtain rfl := Option.some.inj (h.symm.trans hR)
        exact ⟨rfl, hb⟩
      · simp at he
    · rintro ⟨rfl, hb⟩
      exact .inl (.inr ⟨hR, hb⟩)
  simp only [IsFound, hfirst]
  constructor
  · rintro ⟨q, base, rfl, rfl, hb⟩
    exact ⟨q, rfl, hb⟩
  · rintro ⟨q, rfl, hb⟩
    exact ⟨q, R, rfl, rfl, hb⟩

/-- What is touched below a directory is not reached by a walk from there. -/
def Hidden (touched : Place → Prop) (R : Place) : Prop :=
  ∀ names n, touched (R ++ names ++ [n]) → ∃ m ∈ names, m ∈ excluded

theorem Hidden.not_touched (h : Hidden touched R) (hq : Below t patterns R q) : ¬ touched q := by
  obtain ⟨names, n, b, rfl, -, -, hx⟩ := hq
  intro ht
  obtain ⟨m, hm, hex⟩ := h names n ht
  exact hx m hm hex

theorem below_of_grows (hg : FileTree.Grows touched t t') (hl : t.LinkFree) (h : Hidden touched R) :
    Below t' patterns R q ↔ Below t patterns R q := by
  refine exists_congr fun names => exists_congr fun n => exists_congr fun b => and_congr_right fun hq => ?_
  have hentry (hx : ∀ m ∈ names, m ∉ excluded) : t'.entryAt? q = some (.file b) ↔ t.entryAt? q = some (.file b) := by
    refine hg.file_iff hl fun ht => ?_
    obtain ⟨m, hm, hex⟩ := h names n (hq ▸ ht)
    exact hx m hm hex
  constructor
  · rintro ⟨he, hm, hx⟩
    exact ⟨(hentry hx).1 he, hm, hx⟩
  · rintro ⟨he, hm, hx⟩
    exact ⟨(hentry hx).2 he, hm, hx⟩

theorem isThere_of_directoryAt? (hR : t.directoryAt? cwd (.ofText raw) = some R) : ∀ r ∈ [raw], IsThere t cwd r := by
  rw [List.forall_mem_singleton]
  exact isThere_iff.2 ⟨R, .inr hR⟩

theorem find_directory (ht : t.Regular) {includes : Option (List Text)}
    (hp : Glob.patternsOf (includesOf includes) = .ok patterns) (hR : t.directoryAt? cwd (.ofText raw) = some R) :
    ∃ paths : List Path, find t cwd [raw] includes = .ok (paths.map fun p => ⟨p, pathOf R⟩) ∧
      paths.Pairwise Path.Before ∧ ∀ p, p ∈ paths ↔ ∃ q, p = pathOf q ∧ Below t patterns R q := by
  obtain ⟨fs, hfs, hord, hmem⟩ :=
    find_of_isThere ht.wellFormed ht.linkFree hp (isThere_of_directoryAt? hR)
  have hfound (f : Found) : f ∈ fs ↔ ∃ q, f = ⟨pathOf q, pathOf R⟩ ∧ Below t patterns R q :=
    (hmem f).trans (isFound_directory_iff hR)
  have hbase : (fs.map Found.path).map (fun p => (⟨p, pathOf R⟩ : Found)) = fs := by
    have hsame : ∀ f ∈ fs, (⟨f.path, pathOf R⟩ : Found) = f := by
      intro f hf
      obtain ⟨q, rfl, -⟩ := (hfound f).1 hf
      rfl
    rw [List.map_map]
    exact (List.map_congr_left hsame).trans (List.map_id fs)
  refine ⟨fs.map Found.path, by rw [hbase]; exact hfs, hord, fun p => ?_⟩
  rw [List.mem_map]
  constructor
  · rintro ⟨f, hf, rfl⟩
    obtain ⟨q, rfl, hb⟩ := (hfound f).1 hf
    exact ⟨q, rfl, hb⟩
  · rintro ⟨q, rfl, hb⟩
    exact ⟨_, (hfound _).2 ⟨q, rfl, hb⟩, rfl⟩

/-- Hidden files and new directories do not change what is found. -/
theorem find_of_grows (hg : FileTree.Grows touched t t') (ht : t.Regular) (ht' : t'.Regular)
    (hR : t.directoryAt? cwd (.ofText raw) = some R) (h : Hidden touched R) (includes : Option (List Text)) :
    find t' cwd [raw] includes = find t cwd [raw] includes := by
  cases hp : Glob.patternsOf (includesOf includes) with
  | error e => rw [find, find, hp]; rfl
  | ok patterns =>
    obtain ⟨ps, hps, hord, hmem⟩ := find_directory ht hp hR
    obtain ⟨ps', hps', hord', hmem'⟩ := find_directory ht' hp (hg.directoryAt? ht.linkFree ht'.linkFree hR)
    have hsame : ps' = ps := Path.eq_of_pairwise_before hord' hord fun p => by
      rw [hmem', hmem]
      exact exists_congr fun q => and_congr_right fun _ => below_of_grows hg ht.linkFree h
    rw [hps, hps', hsame]

end StyleShield.Discovery
