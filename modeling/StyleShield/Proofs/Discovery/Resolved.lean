import StyleShield.Proofs.Discovery.Find
import StyleShield.Proofs.FileTree.Resolve

/-! What is found where there are links. A named file is resolved, and so is every file below a named
directory, but a walk lists a link to a file, or to nothing, under its own path (`mem_walk_iff_below_or_link`).
So the paths that are found are resolved but for these links (`find_resolved`), and one file can be found once
by its own path and once more for every link. -/
namespace StyleShield.Discovery

open FileTree (pathOf)

variable {t : FileTree} {cwd q d : Place} {patterns : List Glob.Pattern} {raw : Text} {paths : List Text} {p : Path}
  {fs : List Found} {f g : Found}

/-- A link that does not lead to a directory, with a name that the patterns match, below a directory, with no
directory in between that is left out. -/
def LinkBelow (t : FileTree) (patterns : List Glob.Pattern) (directory q : Place) : Prop :=
  ∃ names n target, q = directory ++ names ++ [n] ∧ t.entryAt? q = some (.link target) ∧
    t.isDirectory [] (pathOf q) = false ∧ Glob.matchPath patterns n = true ∧ ∀ m ∈ names, m ∉ excluded

def IsListedLink (t : FileTree) (cwd : Place) (patterns : List Glob.Pattern) (paths : List Text) (p : Path) : Prop :=
  ∃ raw ∈ paths, ∃ d q, t.directoryAt? cwd (.ofText raw) = some d ∧ LinkBelow t patterns d q ∧ p = pathOf q

/-- The path of a regular file, with nothing on it to resolve. -/
def IsResolved (t : FileTree) (p : Path) : Prop :=
  ∃ q b, p = pathOf q ∧ t.resolve [] p = .ok q ∧ t.entryAt? q = some (.file b)

theorem mem_walk_iff_below_or_link (ht : t.WellFormed) :
    q ∈ walk t patterns d ↔ Below t patterns d q ∨ LinkBelow t patterns d q := by
  rw [mem_walk_iff ht]
  constructor
  · rintro ⟨names, n, e, hq, he, hlist, h⟩
    cases e with
    | file b => exact .inl ⟨names, n, b, hq, he, h⟩
    | directory => simp [isListed] at hlist
    | link target => exact .inr ⟨names, n, target, hq, he, by simpa [isListed] using hlist, h⟩
  · rintro (⟨names, n, b, hq, he, h⟩ | ⟨names, n, target, hq, he, hd, h⟩)
    · exact ⟨names, n, .file b, hq, he, rfl, h⟩
    · exact ⟨names, n, .link target, hq, he, by simp [isListed, hd], h⟩

theorem isResolved_pathOf_iff (ht : t.WellFormed) (hu : t.Undotted) :
    IsResolved t (pathOf q) ↔ ∃ b, t.entryAt? q = some (.file b) := by
  constructor
  · rintro ⟨q', b, hp, -, hb⟩
    obtain rfl : q = q' := (Path.mk.inj hp).2
    exact ⟨b, hb⟩
  · rintro ⟨b, hb⟩
    exact ⟨q, b, rfl, FileTree.resolve_pathOf ht hu hb rfl, hb⟩

/-- A path with nothing to resolve leads to its own place or nowhere. -/
theorem IsResolved.eq_of_fileAt? (ht : t.WellFormed) (hu : t.Undotted) (h : IsResolved t p)
    (hq : t.fileAt? cwd p = some q) : p = pathOf q := by
  obtain ⟨q', b, rfl, -, hb⟩ := h
  obtain ⟨hlocate, b', hb'⟩ := FileTree.fileAt?_eq_some_iff.1 hq
  have hsame := FileTree.resolve_of_locate ht hu hlocate hb' rfl
  rw [FileTree.resolve_pathOf ht hu hb rfl] at hsame
  exact congrArg pathOf (Except.ok.inj hsame)

theorem resolve_of_fileAt? (ht : t.WellFormed) (hu : t.Undotted) (h : t.fileAt? cwd p = some q) :
    t.resolve cwd p = .ok q ∧ IsResolved t (pathOf q) := by
  obtain ⟨hlocate, b, hb⟩ := FileTree.fileAt?_eq_some_iff.1 h
  exact ⟨FileTree.resolve_of_locate ht hu hlocate hb rfl, (isResolved_pathOf_iff ht hu).2 ⟨b, hb⟩⟩

theorem LinkBelow.not_isResolved (h : LinkBelow t patterns d q) : ¬ IsResolved t (pathOf q) := by
  obtain ⟨names, n, target, -, hlink, -⟩ := h
  rintro ⟨q', b, hp, -, hb⟩
  obtain rfl : q = q' := (Path.mk.inj hp).2
  simp [hlink] at hb

theorem mem_map_path_distinct : p ∈ (distinct fs).map Found.path ↔ p ∈ fs.map Found.path := by
  induction fs with
  | nil => rfl
  | cons f fs ih =>
    rw [distinct, List.map_cons, List.map_cons, List.mem_cons, List.mem_cons, ← ih]
    by_cases hp : p = f.path
    · simp [hp]
    · simp only [hp, false_or, List.mem_map, List.mem_filter, decide_eq_true_eq]
      constructor
      · rintro ⟨g, ⟨hg, -⟩, rfl⟩
        exact ⟨g, hg, rfl⟩
      · rintro ⟨g, hg, rfl⟩
        exact ⟨g, ⟨hg, hp⟩, rfl⟩

variable (patterns) in
theorem exists_reachAll (h : ∀ raw ∈ paths, IsThere t cwd raw) : ∃ fs, reachAll t cwd patterns paths = .ok fs ∧
    ∀ p, p ∈ fs.map Found.path ↔ ∃ raw ∈ paths, ∃ q base, Lists t cwd patterns raw q base ∧ p = pathOf q := by
  induction paths with
  | nil => exact ⟨[], rfl, by simp⟩
  | cons raw paths ih =>
    rw [List.forall_mem_cons] at h
    obtain ⟨first, hfirst, hmem⟩ := exists_reach patterns h.1
    obtain ⟨later, hlater, hmem'⟩ := ih h.2
    refine ⟨first ++ later, by simp [reachAll_cons, hfirst, hlater, Except.bind, Except.map], fun p => ?_⟩
    have hpaths : p ∈ first.map Found.path ↔ ∃ q base, Lists t cwd patterns raw q base ∧ p = pathOf q := by
      rw [List.mem_map]
      constructor
      · rintro ⟨f, hf, rfl⟩
        obtain ⟨q, base, hlists, rfl⟩ := (hmem f).1 hf
        exact ⟨q, base, hlists, rfl⟩
      · rintro ⟨q, base, hlists, rfl⟩
        exact ⟨_, (hmem _).2 ⟨q, base, hlists, rfl⟩, rfl⟩
    rw [List.map_append, List.mem_append, hpaths, hmem', List.exists_mem_cons_iff]

theorem find_of_isThere_linked {includes : Option (List Text)}
    (hp : Glob.patternsOf (includesOf includes) = .ok patterns) (h : ∀ raw ∈ paths, IsThere t cwd raw) :
    ∃ fs, find t cwd paths includes = .ok fs ∧ (fs.map Found.path).Pairwise Path.Before ∧
      ∀ p, p ∈ fs.map Found.path ↔ ∃ raw ∈ paths, ∃ q base, Lists t cwd patterns raw q base ∧ p = pathOf q := by
  obtain ⟨reached, hreached, hmem⟩ := exists_reachAll patterns h
  refine ⟨inOrder (distinct reached), ?_, ?_, fun p => ?_⟩
  · rw [find_eq hp, hreached]
    rfl
  · refine pairwise_before_inOrder (fun f hf => ?_) (pairwise_distinct reached)
    have hin := mem_map_path_distinct.1 (List.mem_map_of_mem hf)
    obtain ⟨raw, -, q, base, -, hq⟩ := (hmem _).1 hin
    exact ⟨q, hq⟩
  · have hperm : (inOrder (distinct reached)).Perm (distinct reached) := List.mergeSort_perm _ _
    rw [(hperm.map Found.path).mem_iff, mem_map_path_distinct, hmem]

/-- What a name lists is resolved unless it is a link. -/
theorem Lists.isResolved {base : Place} (ht : t.WellFormed) (hu : t.Undotted) (hraw : raw ∈ paths)
    (h : Lists t cwd patterns raw q base) (hn : ¬ IsListedLink t cwd patterns paths (pathOf q)) :
    IsResolved t (pathOf q) := by
  rcases h with ⟨hfile, -⟩ | ⟨hd, hwalk⟩
  · exact (resolve_of_fileAt? ht hu hfile).2
  · rcases (mem_walk_iff_below_or_link ht).1 hwalk with ⟨names, n, b, -, hb, -⟩ | hlink
    · exact (isResolved_pathOf_iff ht hu).2 ⟨b, hb⟩
    · exact absurd ⟨raw, hraw, base, q, hd, hlink, rfl⟩ hn

theorem not_isResolved_of_isListedLink (h : IsListedLink t cwd patterns paths p) : ¬ IsResolved t p := by
  obtain ⟨raw, -, d, q, -, hlink, rfl⟩ := h
  exact hlink.not_isResolved

theorem eq_of_path_eq (h : (fs.map Found.path).Pairwise Path.Before) (hf : f ∈ fs) (hg : g ∈ fs)
    (he : f.path = g.path) : f = g :=
  List.inj_on_of_nodup_map (Path.nodup_of_pairwise_before h) hf hg he

/-- Names that are there give paths in strictly increasing order: of the named files, and of the files and the
links to files, or to nothing, below the named directories. A path is resolved unless it is such a link. So a
named file is found under its resolved path, and of two findings of one file one is a link. -/
theorem find_resolved (ht : t.WellFormed) (hu : t.Undotted) {includes : Option (List Text)}
    (hp : Glob.patternsOf (includesOf includes) = .ok patterns) (h : ∀ raw ∈ paths, IsThere t cwd raw) :
    ∃ fs, find t cwd paths includes = .ok fs ∧ (fs.map Found.path).Pairwise Path.Before ∧
      (∀ p, p ∈ fs.map Found.path ↔ ∃ raw ∈ paths, ∃ q, p = pathOf q ∧ (t.fileAt? cwd (.ofText raw) = some q ∨
        ∃ d, t.directoryAt? cwd (.ofText raw) = some d ∧ (Below t patterns d q ∨ LinkBelow t patterns d q))) ∧
      (∀ f ∈ fs, IsResolved t f.path ↔ ¬ IsListedLink t cwd patterns paths f.path) ∧
      (∀ raw ∈ paths, ∀ q, t.fileAt? cwd (.ofText raw) = some q →
        t.resolve cwd (.ofText raw) = .ok q ∧ IsResolved t (pathOf q)) ∧
      ∀ f ∈ fs, ∀ g ∈ fs, ∀ q, t.fileAt? [] f.path = some q → t.fileAt? [] g.path = some q → f ≠ g →
        IsListedLink t cwd patterns paths f.path ∨ IsListedLink t cwd patterns paths g.path := by
  obtain ⟨fs, hfs, hord, hmem⟩ := find_of_isThere_linked hp h
  have hresolved : ∀ f ∈ fs, IsResolved t f.path ↔ ¬ IsListedLink t cwd patterns paths f.path := by
    intro f hf
    obtain ⟨raw, hraw, q, base, hlists, hq⟩ := (hmem f.path).1 (List.mem_map_of_mem hf)
    rw [hq]
    exact ⟨fun hres hlink => not_isResolved_of_isListedLink hlink hres, hlists.isResolved ht hu hraw⟩
  refine ⟨fs, hfs, hord, fun p => ?_, hresolved, fun raw _ q => resolve_of_fileAt? ht hu, ?_⟩
  · rw [hmem]
    refine exists_congr fun raw => and_congr_right fun _ => exists_congr fun q => ?_
    simp only [Lists, mem_walk_iff_below_or_link ht]
    constructor
    · rintro ⟨base, ⟨hfile, -⟩ | hd, rfl⟩
      · exact ⟨rfl, .inl hfile⟩
      · exact ⟨rfl, .inr ⟨base, hd⟩⟩
    · rintro ⟨rfl, hfile | ⟨d, hd⟩⟩
      · exact ⟨q.dropLast, .inl ⟨hfile, rfl⟩, rfl⟩
      · exact ⟨d, .inr hd, rfl⟩
  · intro f hf g hg q hfq hgq hne
    by_contra hn
    rw [not_or] at hn
    have hfpath := ((hresolved f hf).2 hn.1).eq_of_fileAt? ht hu hfq
    have hgpath := ((hresolved g hg).2 hn.2).eq_of_fileAt? ht hu hgq
    exact hne (eq_of_path_eq hord hf hg (hfpath.trans hgpath.symm))

/-- A directory with a file and a link to the file, and links to both from outside. -/
def linkedTree : FileTree :=
  ⟨[(["d".toList], .directory), (["d".toList, "a.less".toList], .file []),
    (["d".toList, "z.less".toList], .link "a.less".toList), (["l".toList], .link "d".toList),
    (["k.less".toList], .link "d/a.less".toList)]⟩

/-- A file that is named three ways, once by its directory, is found once, and once more for the link beside it. -/
theorem find_resolved_named_often :
    let paths := ["l".toList, "k.less".toList, "d/a.less".toList]
    let a := pathOf ["d".toList, "a.less".toList]
    let z := pathOf ["d".toList, "z.less".toList]
    linkedTree.WellFormed ∧ linkedTree.Undotted ∧ (∀ raw ∈ paths, IsThere linkedTree [] raw) ∧
      ∃ patterns, Glob.patternsOf (includesOf none) = .ok patterns ∧
        find linkedTree [] paths none = .ok [⟨a, pathOf ["d".toList]⟩, ⟨z, pathOf ["d".toList]⟩] ∧
        IsResolved linkedTree a ∧ IsListedLink linkedTree [] patterns paths z := by
  have ht : linkedTree.WellFormed := by decide +kernel
  have hu : linkedTree.Undotted := by decide +kernel
  have hall : ∀ raw ∈ ["l".toList, "k.less".toList, "d/a.less".toList], IsThere linkedTree [] raw := by
    simp only [List.forall_mem_cons, List.not_mem_nil, false_implies, implies_true, and_true]
    exact ⟨.inr (by cbv), .inl (by cbv), .inl (by cbv)⟩
  have hfind : find linkedTree [] ["l".toList, "k.less".toList, "d/a.less".toList] none =
      .ok [⟨pathOf ["d".toList, "a.less".toList], pathOf ["d".toList]⟩,
        ⟨pathOf ["d".toList, "z.less".toList], pathOf ["d".toList]⟩] := by cbv
  have hnamed : linkedTree.fileAt? [] (.ofText "k.less".toList) = some ["d".toList, "a.less".toList] := by cbv
  have ha : linkedTree.fileAt? [] (pathOf ["d".toList, "a.less".toList]) = some ["d".toList, "a.less".toList] := by cbv
  have hz : linkedTree.fileAt? [] (pathOf ["d".toList, "z.less".toList]) = some ["d".toList, "a.less".toList] := by cbv
  intro paths a z
  obtain ⟨fs, hfs, -, -, hresolved, hplace, hsame⟩ := find_resolved ht hu patternsOf_usual hall
  obtain rfl := Except.ok.inj (hfind.symm.trans hfs)
  have hares : IsResolved linkedTree a := (hplace "k.less".toList (by simp) _ hnamed).2
  have halisted := (hresolved ⟨a, pathOf ["d".toList]⟩ (.head _)).1 hares
  have hne : (⟨a, pathOf ["d".toList]⟩ : Found) ≠ ⟨z, pathOf ["d".toList]⟩ := by decide
  have hzlisted := (hsame _ (.head _) _ (.tail _ (.head _)) _ ha hz hne).resolve_left halisted
  exact ⟨ht, hu, hall, _, patternsOf_usual, hfind, hares, hzlisted⟩

/-- A walk finds a file a second time through a link, and a link that leads nowhere. -/
theorem find_resolved_walked_links :
    let t : FileTree := ⟨[(["a.less".toList], .file []), (["b.less".toList], .link "a.less".toList),
      (["c.less".toList], .link "gone.less".toList)]⟩
    let a := pathOf ["a.less".toList]
    let b := pathOf ["b.less".toList]
    let c := pathOf ["c.less".toList]
    IsThere t [] ".".toList ∧ find t [] [".".toList] none = .ok [⟨a, pathOf []⟩, ⟨b, pathOf []⟩, ⟨c, pathOf []⟩] ∧
      t.fileAt? [] a = some ["a.less".toList] ∧ t.fileAt? [] b = some ["a.less".toList] ∧ t.fileAt? [] c = none := by
  refine ⟨.inr ?_, ?_, ?_, ?_, ?_⟩
  all_goals cbv

end StyleShield.Discovery
