import Mathlib.Data.List.Permutation
import StyleShield.Proofs.Discovery.Walk
import StyleShield.Proofs.Path
import StyleShield.Proofs.Run

/-! What is found, for all names together. The first name that leads nowhere is the fault
(`reachAll_eq_error_iff`). If there is none, what is found is known by the set of names, in strictly
increasing order; only the bases depend on which name comes first (`find_exact`). -/
namespace StyleShield.Discovery

open FileTree (pathOf)

variable {t : FileTree} {cwd : Place} {patterns : List Glob.Pattern} {raw : Text} {paths : List Text}
  {q base : Place}

/-- The name of a file or of a directory. -/
def IsThere (t : FileTree) (cwd : Place) (raw : Text) : Prop :=
  t.isFile cwd (.ofText raw) = true ∨ t.isDirectory cwd (.ofText raw) = true

/-- A name that is too long to be looked up. -/
def IsOverlong (t : FileTree) (cwd : Place) (raw : Text) : Prop :=
  t.locate cwd (.ofText raw) = .error .nameTooLong ∧ '\x00' ∉ raw

instance (t : FileTree) (cwd : Place) (raw : Text) : Decidable (IsThere t cwd raw) :=
  inferInstanceAs (Decidable (_ ∨ _))

instance (t : FileTree) (cwd : Place) (raw : Text) : Decidable (IsOverlong t cwd raw) :=
  inferInstanceAs (Decidable (_ ∧ _))

def absence (t : FileTree) (cwd : Place) (raw : Text) : Fault :=
  if IsOverlong t cwd raw then .system .nameTooLong (Path.ofText raw).text else .pathNotFound raw

/-- A name reaches the file that it names, with its directory as base, or the files below the
directory that it names. -/
def Reaches (t : FileTree) (cwd : Place) (patterns : List Glob.Pattern) (raw : Text) (q base : Place) : Prop :=
  (t.fileAt? cwd (.ofText raw) = some q ∧ base = q.dropLast) ∨
    (t.directoryAt? cwd (.ofText raw) = some base ∧ Below t patterns base q)

/-- The first name that reaches a file gives it its base. -/
def FirstReaches (t : FileTree) (cwd : Place) (patterns : List Glob.Pattern) (paths : List Text)
    (q base : Place) : Prop :=
  ∃ before raw after, paths = before ++ raw :: after ∧
    (∀ r ∈ before, ∀ b, ¬ Reaches t cwd patterns r q b) ∧ Reaches t cwd patterns raw q base

/-- What is found at a place, with the base that the first name sets. -/
def IsFound (t : FileTree) (cwd : Place) (patterns : List Glob.Pattern) (paths : List Text) (f : Found) : Prop :=
  ∃ q base, f = ⟨pathOf q, pathOf base⟩ ∧ FirstReaches t cwd patterns paths q base

/-- A place is a file or a directory, so a name reaches a file from one base only. -/
theorem Reaches.unique {base' : Place} (h : Reaches t cwd patterns raw q base)
    (h' : Reaches t cwd patterns raw q base') : base = base' := by
  rcases h with ⟨hf, rfl⟩ | ⟨hd, -⟩ <;> rcases h' with ⟨hf', rfl⟩ | ⟨hd', -⟩
  · rfl
  · simp [FileTree.directoryAt?_of_fileAt? hf] at hd'
  · simp [FileTree.directoryAt?_of_fileAt? hf'] at hd
  · exact Option.some.inj (hd.symm.trans hd')

theorem firstReaches_cons : FirstReaches t cwd patterns (raw :: paths) q base ↔
    Reaches t cwd patterns raw q base ∨
      ((∀ b, ¬ Reaches t cwd patterns raw q b) ∧ FirstReaches t cwd patterns paths q base) := by
  constructor
  · rintro ⟨before, r, after, he, hb, hr⟩
    cases before with
    | nil =>
      obtain ⟨rfl, -⟩ := List.cons.inj he
      exact .inl hr
    | cons r' before =>
      obtain ⟨rfl, htail⟩ := List.cons.inj he
      rw [List.forall_mem_cons] at hb
      exact .inr ⟨hb.1, before, r, after, htail, hb.2, hr⟩
  · rintro (hr | ⟨hn, before, r, after, rfl, hb, hr⟩)
    · exact ⟨[], raw, paths, rfl, by simp, hr⟩
    · exact ⟨raw :: before, r, after, rfl, List.forall_mem_cons.2 ⟨hn, hb⟩, hr⟩

theorem exists_firstReaches_iff : (∃ base, FirstReaches t cwd patterns paths q base) ↔
    ∃ raw ∈ paths, ∃ base, Reaches t cwd patterns raw q base := by
  induction paths with
  | nil => simp [FirstReaches]
  | cons raw paths ih =>
    rw [List.exists_mem_cons_iff, ← ih]
    simp only [firstReaches_cons]
    by_cases h : ∃ b, Reaches t cwd patterns raw q b
    · obtain ⟨b, hb⟩ := h
      exact ⟨fun _ => .inl ⟨b, hb⟩, fun _ => ⟨b, .inl hb⟩⟩
    · rw [not_exists] at h
      simp [h]

theorem isThere_iff : IsThere t cwd raw ↔
    ∃ p, t.fileAt? cwd (.ofText raw) = some p ∨ t.directoryAt? cwd (.ofText raw) = some p := by
  simp [IsThere, FileTree.isFile, FileTree.isDirectory, Option.isSome_iff_exists, exists_or]

theorem not_isThere_of_locate {e : SystemError} (h : t.locate cwd (.ofText raw) = .error e) :
    ¬ IsThere t cwd raw := by
  simp [IsThere, FileTree.isFile, FileTree.isDirectory, FileTree.fileAt?, FileTree.directoryAt?, h]

/-- A name lists the file that it names, or what a walk of the directory lists, links to files among it. -/
def Lists (t : FileTree) (cwd : Place) (patterns : List Glob.Pattern) (raw : Text) (q base : Place) : Prop :=
  (t.fileAt? cwd (.ofText raw) = some q ∧ base = q.dropLast) ∨
    (t.directoryAt? cwd (.ofText raw) = some base ∧ q ∈ walk t patterns base)

variable (patterns) in
theorem exists_reach (h : IsThere t cwd raw) : ∃ fs, reach t cwd patterns raw = .ok fs ∧ ∀ f : Found, f ∈ fs ↔
    ∃ q base, Lists t cwd patterns raw q base ∧ f = ⟨pathOf q, pathOf base⟩ := by
  obtain ⟨p, hf | hd⟩ := isThere_iff.1 h
  · obtain ⟨hp, b, hb⟩ := FileTree.fileAt?_eq_some_iff.1 hf
    refine ⟨[⟨pathOf p, pathOf p.dropLast⟩], by simp [reach, hp, hb], fun f => ?_⟩
    simp [Lists, hf, FileTree.directoryAt?_of_fileAt? hf]
  · obtain ⟨hp, hd'⟩ := FileTree.directoryAt?_eq_some_iff.1 hd
    refine ⟨(walk t patterns p).map fun q => ⟨pathOf q, pathOf p⟩, by simp [reach, hp, hd'], fun f => ?_⟩
    have hn : ∀ q, t.fileAt? cwd (.ofText raw) ≠ some q := fun q hf => by
      simp [FileTree.directoryAt?_of_fileAt? hf] at hd
    simp [Lists, hd, hn, eq_comm]

variable (patterns) in
theorem reach_of_isThere (ht : t.WellFormed) (hl : t.LinkFree) (h : IsThere t cwd raw) :
    ∃ fs, reach t cwd patterns raw = .ok fs ∧ ∀ f : Found, f ∈ fs ↔
      ∃ q base, Reaches t cwd patterns raw q base ∧ f = ⟨pathOf q, pathOf base⟩ := by
  obtain ⟨fs, hfs, hmem⟩ := exists_reach patterns h
  refine ⟨fs, hfs, fun f => ?_⟩
  simp only [hmem, Lists, Reaches, mem_walk_iff_below ht hl]

theorem reach_of_not_isThere (h : ¬ IsThere t cwd raw) :
    reach t cwd patterns raw = .error (absence t cwd raw) := by
  rw [isThere_iff] at h
  simp only [not_exists, not_or] at h
  cases hp : t.locate cwd (.ofText raw) with
  | error e => cases e <;> by_cases hz : '\x00' ∈ raw <;> simp [reach, absence, IsOverlong, hp, hz]
  | ok place =>
    obtain ⟨hf, hd⟩ := h place
    rw [FileTree.fileAt?_eq_some_iff] at hf
    rw [FileTree.directoryAt?_eq_some_iff] at hd
    cases he : t.entryAt? place with
    | none => simp [reach, absence, IsOverlong, hp, he]
    | some e =>
      cases e with
      | file b => exact absurd ⟨hp, b, he⟩ hf
      | directory => exact absurd ⟨hp, he⟩ hd
      | link target => simp [reach, absence, IsOverlong, hp, he]

theorem reach_eq_error_iff {e : Fault} :
    reach t cwd patterns raw = .error e ↔ ¬ IsThere t cwd raw ∧ e = absence t cwd raw := by
  by_cases h : IsThere t cwd raw
  · obtain ⟨found, hfound, -⟩ := exists_reach patterns h
    simp [h, hfound]
  · simp [h, reach_of_not_isThere h, eq_comm]

theorem reachAll_cons : reachAll t cwd patterns (raw :: paths) =
    (reach t cwd patterns raw).bind fun first => (reachAll t cwd patterns paths).map (first ++ ·) := by
  rw [reachAll]
  cases reach t cwd patterns raw with
  | error e => rfl
  | ok first => cases reachAll t cwd patterns paths <;> rfl

theorem reachAll_eq_error_iff {e : Fault} : reachAll t cwd patterns paths = .error e ↔
    ∃ before raw after, paths = before ++ raw :: after ∧ (∀ r ∈ before, IsThere t cwd r) ∧ ¬ IsThere t cwd raw ∧
      e = absence t cwd raw := by
  have hfirst : reachAll t cwd patterns paths = .error e ↔ FailsFirst (reach t cwd patterns) paths e := by
    refine eq_error_iff_failsFirst (fun e => by simp [reachAll]) fun raw paths e => ?_
    rw [reachAll_cons]
    cases reach t cwd patterns raw with
    | error e' => simp [Except.bind]
    | ok first => cases reachAll t cwd patterns paths <;> simp [Except.bind, Except.map]
  have hthere (r : Text) : (∃ found, reach t cwd patterns r = .ok found) ↔ IsThere t cwd r := by
    by_cases h : IsThere t cwd r
    · exact iff_of_true ((exists_reach patterns h).imp fun _ hr => hr.1) h
    · simp [h, reach_of_not_isThere h]
  simp only [hfirst, FailsFirst, hthere, reach_eq_error_iff]

theorem find_eq {includes : Option (List Text)} (hp : Glob.patternsOf (includesOf includes) = .ok patterns) :
    find t cwd paths includes = (reachAll t cwd patterns paths).map fun reached => inOrder (distinct reached) := by
  rw [find, hp]
  change (reachAll t cwd patterns paths >>= fun reached => pure (inOrder (distinct reached))) = _
  cases reachAll t cwd patterns paths <;> rfl

theorem isSystem_absence (t : FileTree) (cwd : Place) (raw : Text) : (absence t cwd raw).isSystem = true := by
  unfold absence
  split <;> rfl

theorem exists_first_not_isThere (h : ∃ raw ∈ paths, ¬ IsThere t cwd raw) : ∃ before raw after,
    paths = before ++ raw :: after ∧ (∀ r ∈ before, IsThere t cwd r) ∧ ¬ IsThere t cwd raw := by
  cases hf : paths.find? fun r => ¬ IsThere t cwd r with
  | none =>
    obtain ⟨raw, hraw, hn⟩ := h
    exact absurd hn (by simpa using List.find?_eq_none.1 hf raw hraw)
  | some raw =>
    obtain ⟨hn, before, after, rfl, hb⟩ := List.find?_eq_some_iff_append.1 hf
    exact ⟨before, raw, after, rfl, by simpa using hb, by simpa using hn⟩

theorem find_error_of_not_isThere (hraw : raw ∈ paths) (hn : ¬ IsThere t cwd raw)
    (includes : Option (List Text)) : ∃ e, find t cwd paths includes = .error e ∧
      ((∃ patterns, Glob.patternsOf (includesOf includes) = .ok patterns) → e.isSystem = true) := by
  cases hp : Glob.patternsOf (includesOf includes) with
  | error e => exact ⟨e, by rw [find, hp]; rfl, by simp⟩
  | ok patterns =>
    obtain ⟨before, first, after, rfl, hb, hfirst⟩ := exists_first_not_isThere ⟨raw, hraw, hn⟩
    refine ⟨absence t cwd first, ?_, fun _ => isSystem_absence t cwd first⟩
    rw [find_eq hp, reachAll_eq_error_iff.2 ⟨before, first, after, rfl, hb, hfirst, rfl⟩]
    rfl

theorem mem_distinct_append {f : Found} {fs gs : List Found} :
    f ∈ distinct (fs ++ gs) ↔ f ∈ distinct fs ∨ (f ∈ distinct gs ∧ ∀ g ∈ fs, f.path ≠ g.path) := by
  induction fs with
  | nil => simp [distinct]
  | cons h fs ih =>
    simp only [List.cons_append, distinct, List.mem_cons, List.mem_filter, ih]
    by_cases hp : f.path = h.path
    · simp [hp]
    · simp [hp, or_assoc]

theorem mem_distinct_of_unique {f : Found} {fs : List Found}
    (h : ∀ g ∈ fs, ∀ g' ∈ fs, g.path = g'.path → g = g') : f ∈ distinct fs ↔ f ∈ fs := by
  induction fs with
  | nil => simp [distinct]
  | cons g fs ih =>
    have h' : ∀ a ∈ fs, ∀ b ∈ fs, a.path = b.path → a = b := fun a ha b hb =>
      h a (List.mem_cons_of_mem g ha) b (List.mem_cons_of_mem g hb)
    simp only [distinct, List.mem_cons, List.mem_filter, ih h', decide_eq_true_eq]
    constructor
    · exact fun hf => hf.imp_right And.left
    · rintro (rfl | hf)
      · exact .inl rfl
      · by_cases hp : f.path = g.path
        · exact .inl (h f (by simp [hf]) g (by simp) hp)
        · exact .inr ⟨hf, hp⟩

theorem pairwise_distinct (fs : List Found) : (distinct fs).Pairwise fun f g => f.path ≠ g.path := by
  induction fs with
  | nil => exact .nil
  | cons f fs ih =>
    refine .cons (fun g hg => ?_) (ih.filter _)
    have hne := (List.mem_filter.1 hg).2
    exact fun he => by simp [he] at hne

variable (patterns) in
theorem reachAll_of_isThere (ht : t.WellFormed) (hl : t.LinkFree) (h : ∀ raw ∈ paths, IsThere t cwd raw) :
    ∃ fs, reachAll t cwd patterns paths = .ok fs ∧ ∀ f, f ∈ distinct fs ↔
      IsFound t cwd patterns paths f := by
  induction paths with
  | nil => exact ⟨[], rfl, by simp [distinct, IsFound, FirstReaches]⟩
  | cons raw paths ih =>
    rw [List.forall_mem_cons] at h
    obtain ⟨first, hfirst, hmem⟩ := reach_of_isThere patterns ht hl h.1
    obtain ⟨later, hlater, hmem'⟩ := ih h.2
    refine ⟨first ++ later, by simp [reachAll_cons, hfirst, hlater, Except.bind, Except.map], fun f => ?_⟩
    have hunique : ∀ g ∈ first, ∀ g' ∈ first, g.path = g'.path → g = g' := by
      intro g hg g' hg' he
      obtain ⟨p, b, hr, rfl⟩ := (hmem g).1 hg
      obtain ⟨p', b', hr', rfl⟩ := (hmem g').1 hg'
      obtain rfl : p = p' := (Path.mk.inj he).2
      rw [hr.unique hr']
    have hapart (p : Place) : (∀ g ∈ first, pathOf p ≠ g.path) ↔ ∀ b, ¬ Reaches t cwd patterns raw p b := by
      constructor
      · exact fun hn b hr => hn _ ((hmem _).2 ⟨p, b, hr, rfl⟩) rfl
      · rintro hn g hg he
        obtain ⟨p', b, hr, rfl⟩ := (hmem g).1 hg
        obtain rfl : p = p' := (Path.mk.inj he).2
        exact hn b hr
    rw [mem_distinct_append, mem_distinct_of_unique hunique, hmem, hmem']
    simp only [IsFound, firstReaches_cons]
    constructor
    · rintro (⟨p, b, hr, rfl⟩ | ⟨⟨p, b, rfl, hr⟩, hn⟩)
      · exact ⟨p, b, rfl, .inl hr⟩
      · exact ⟨p, b, rfl, .inr ⟨(hapart p).1 hn, hr⟩⟩
    · rintro ⟨p, b, rfl, hr | ⟨hn, hr⟩⟩
      · exact .inl ⟨p, b, hr, rfl⟩
      · exact .inr ⟨⟨p, b, rfl, hr⟩, (hapart p).2 hn⟩

theorem pairwise_before_inOrder {fs : List Found} (hp : ∀ f ∈ fs, ∃ q, f.path = pathOf q)
    (hn : fs.Pairwise fun f g => f.path ≠ g.path) : ((inOrder fs).map Found.path).Pairwise Path.Before := by
  have hperm : (inOrder fs).Perm fs := List.mergeSort_perm fs _
  have htrans : ∀ f g h : Found, Path.le f.path g.path = true → Path.le g.path h.path = true →
      Path.le f.path h.path = true := fun _ _ _ => Path.le_trans
  have htotal : ∀ f g : Found, (Path.le f.path g.path || Path.le g.path f.path) = true := fun _ _ =>
    Path.le_total _ _
  have hle : (inOrder fs).Pairwise fun f g => Path.le f.path g.path = true :=
    List.pairwise_mergeSort htrans htotal fs
  have hne : (inOrder fs).Pairwise fun f g => f.path ≠ g.path :=
    (hperm.pairwise_iff fun hfg => Ne.symm hfg).2 hn
  rw [List.pairwise_map]
  refine (hle.and hne).imp_of_mem fun {f g} hf hg h => Path.before_of_le h.1 fun he => h.2 ?_
  obtain ⟨q, hq⟩ := hp f (hperm.mem_iff.1 hf)
  obtain ⟨q', hq'⟩ := hp g (hperm.mem_iff.1 hg)
  rw [hq, hq'] at he ⊢
  exact congrArg pathOf he

theorem Reaches.relative? (h : Reaches t cwd patterns raw q base) :
    ∃ r, (⟨pathOf q, pathOf base⟩ : Found).relative? = some r := by
  have hb : base <+: q := by
    rcases h with ⟨-, rfl⟩ | ⟨-, names, n, b, rfl, -⟩
    · exact List.dropLast_prefix q
    · exact ⟨names ++ [n], by simp⟩
  exact ⟨⟨.none, q.drop base.length⟩, by simp [Found.relative?, Path.below?, pathOf, hb]⟩

theorem find_of_isThere (ht : t.WellFormed) (hl : t.LinkFree) {includes : Option (List Text)}
    (hp : Glob.patternsOf (includesOf includes) = .ok patterns) (h : ∀ raw ∈ paths, IsThere t cwd raw) :
    ∃ fs, find t cwd paths includes = .ok fs ∧ (fs.map Found.path).Pairwise Path.Before ∧
      ∀ f, f ∈ fs ↔ IsFound t cwd patterns paths f := by
  obtain ⟨reached, hr, hmem⟩ := reachAll_of_isThere patterns ht hl h
  refine ⟨inOrder (distinct reached), ?_, ?_, fun f => ?_⟩
  · rw [find_eq hp, hr]
    rfl
  · refine pairwise_before_inOrder (fun f hf => ?_) (pairwise_distinct reached)
    obtain ⟨q, base, rfl, -⟩ := (hmem f).1 hf
    exact ⟨q, rfl⟩
  · rw [← hmem]
    exact (List.mergeSort_perm _ _).mem_iff

theorem mem_paths_iff {fs : List Found}
    (hmem : ∀ f, f ∈ fs ↔ IsFound t cwd patterns paths f) :
    pathOf q ∈ fs.map Found.path ↔ (∃ raw ∈ paths, t.fileAt? cwd (.ofText raw) = some q) ∨
      ∃ raw ∈ paths, ∃ d, t.directoryAt? cwd (.ofText raw) = some d ∧ Below t patterns d q := by
  have hfirst : pathOf q ∈ fs.map Found.path ↔ ∃ base, FirstReaches t cwd patterns paths q base := by
    rw [List.mem_map]
    constructor
    · rintro ⟨f, hf, he⟩
      obtain ⟨q', base, rfl, hr⟩ := (hmem f).1 hf
      obtain rfl : q' = q := (Path.mk.inj he).2
      exact ⟨base, hr⟩
    · rintro ⟨base, hr⟩
      exact ⟨_, (hmem _).2 ⟨q, base, rfl, hr⟩, rfl⟩
  rw [hfirst, exists_firstReaches_iff]
  constructor
  · rintro ⟨raw, hraw, base, ⟨hf, -⟩ | ⟨hd, hb⟩⟩
    · exact .inl ⟨raw, hraw, hf⟩
    · exact .inr ⟨raw, hraw, base, hd, hb⟩
  · rintro (⟨raw, hraw, hf⟩ | ⟨raw, hraw, d, hd, hb⟩)
    · exact ⟨raw, hraw, _, .inl ⟨hf, rfl⟩⟩
    · exact ⟨raw, hraw, d, .inr ⟨hd, hb⟩⟩

theorem find_of_not_isThere {includes : Option (List Text)}
    (hp : Glob.patternsOf (includesOf includes) = .ok patterns) {before after : List Text}
    (hb : ∀ r ∈ before, IsThere t cwd r) (h : ¬ IsThere t cwd raw) :
    find t cwd (before ++ raw :: after) includes = .error (absence t cwd raw) := by
  rw [find_eq hp, reachAll_eq_error_iff.2 ⟨before, raw, after, rfl, hb, h, rfl⟩]
  rfl

theorem isThere_of_find {includes : Option (List Text)}
    (hp : Glob.patternsOf (includesOf includes) = .ok patterns) {fs : List Found}
    (h : find t cwd paths includes = .ok fs) : ∀ raw ∈ paths, IsThere t cwd raw := by
  by_contra hn
  push Not at hn
  obtain ⟨before, raw, after, rfl, hb, hr⟩ := exists_first_not_isThere hn
  simp [find_of_not_isThere hp hb hr] at h

theorem map_path_find (ht : t.WellFormed) (hl : t.LinkFree) {includes : Option (List Text)}
    (hp : Glob.patternsOf (includesOf includes) = .ok patterns) {paths' : List Text} {fs fs' : List Found}
    (h : find t cwd paths includes = .ok fs) (h' : find t cwd paths' includes = .ok fs')
    (hsame : ∀ raw, raw ∈ paths' ↔ raw ∈ paths) : fs'.map Found.path = fs.map Found.path := by
  obtain ⟨_, hfs, hord, hmem⟩ := find_of_isThere ht hl hp (isThere_of_find hp h)
  obtain rfl := Except.ok.inj (h.symm.trans hfs)
  obtain ⟨_, hfs', hord', hmem'⟩ := find_of_isThere ht hl hp (isThere_of_find hp h')
  obtain rfl := Except.ok.inj (h'.symm.trans hfs')
  have hplace {paths : List Text} {fs : List Found}
      (hmem : ∀ f, f ∈ fs ↔ IsFound t cwd patterns paths f)
      {p : Path} (hp : p ∈ fs.map Found.path) : ∃ q, p = pathOf q := by
    obtain ⟨f, hf, rfl⟩ := List.mem_map.1 hp
    obtain ⟨q, base, rfl, -⟩ := (hmem f).1 hf
    exact ⟨q, rfl⟩
  have hiff (q : Place) : pathOf q ∈ fs'.map Found.path ↔ pathOf q ∈ fs.map Found.path := by
    rw [mem_paths_iff hmem, mem_paths_iff hmem']
    simp only [hsame]
  refine Path.eq_of_pairwise_before hord' hord fun p => ⟨fun hin => ?_, fun hin => ?_⟩
  · obtain ⟨q, rfl⟩ := hplace hmem' hin
    exact (hiff q).1 hin
  · obtain ⟨q, rfl⟩ := hplace hmem hin
    exact (hiff q).2 hin

/-- Without links, the search fails exactly if some name is not there, and the first such name is
the fault: as a path that is not found, unless the name is too long to be looked up. Otherwise
the paths stand in strictly increasing order, each once, and are those of the named files and
of the files below the named directories; a base is set by the first name that reaches the
file. Order and repetition of the names are of no account for the paths. -/
theorem find_exact (ht : t.WellFormed) (hl : t.LinkFree) (cwd : Place) (paths : List Text)
    {includes : Option (List Text)} (hp : Glob.patternsOf (includesOf includes) = .ok patterns) :
    ((∃ fault, find t cwd paths includes = .error fault) ↔ ∃ raw ∈ paths, ¬ IsThere t cwd raw) ∧
    (∀ before raw after, paths = before ++ raw :: after → (∀ r ∈ before, IsThere t cwd r) →
      ¬ IsThere t cwd raw → find t cwd paths includes = .error (absence t cwd raw) ∧
        (absence t cwd raw = .pathNotFound raw ↔ ¬ IsOverlong t cwd raw)) ∧
    ∀ fs, find t cwd paths includes = .ok fs →
      (fs.map Found.path).Pairwise Path.Before ∧
      (∀ q, pathOf q ∈ fs.map Found.path ↔ (∃ raw ∈ paths, t.fileAt? cwd (.ofText raw) = some q) ∨
        ∃ raw ∈ paths, ∃ d, t.directoryAt? cwd (.ofText raw) = some d ∧ Below t patterns d q) ∧
      (∀ f ∈ fs, (∃ r, f.relative? = some r) ∧ IsFound t cwd patterns paths f) ∧
      ∀ paths', (∀ raw, raw ∈ paths' ↔ raw ∈ paths) →
        ∃ fs', find t cwd paths' includes = .ok fs' ∧ fs'.map Found.path = fs.map Found.path := by
  refine ⟨⟨?_, ?_⟩, ?_, fun fs hfs => ?_⟩
  · rintro ⟨fault, hf⟩
    by_contra hn
    push Not at hn
    obtain ⟨fs, hfs, -⟩ := find_of_isThere ht hl hp hn
    simp [hf] at hfs
  · intro hn
    obtain ⟨before, raw, after, rfl, hb, hr⟩ := exists_first_not_isThere hn
    exact ⟨_, find_of_not_isThere hp hb hr⟩
  · rintro before raw after rfl hb hr
    refine ⟨find_of_not_isThere hp hb hr, ?_⟩
    rw [absence]
    split <;> simp_all
  · have hall := isThere_of_find hp hfs
    obtain ⟨_, hfs', hord, hmem⟩ := find_of_isThere ht hl hp hall
    obtain rfl := Except.ok.inj (hfs.symm.trans hfs')
    refine ⟨hord, fun q => mem_paths_iff hmem, fun f hf => ?_, fun paths' hsame => ?_⟩
    · obtain ⟨q, base, rfl, hr⟩ := (hmem f).1 hf
      have hrel : ∃ r, (⟨pathOf q, pathOf base⟩ : Found).relative? = some r := by
        obtain ⟨before, raw, after, -, -, hreach⟩ := hr
        exact hreach.relative?
      exact ⟨hrel, q, base, rfl, hr⟩
    · obtain ⟨fs', hfs', -⟩ := find_of_isThere ht hl hp fun raw hraw => hall raw ((hsame raw).1 hraw)
      exact ⟨fs', hfs', map_path_find ht hl hp hfs hfs' hsame⟩

theorem patternsOf_usual : Glob.patternsOf (includesOf none) = .ok
    ([".less", ".scss", ".css"].map fun ending =>
      ⟨false, .parts [.anyAbove, .segment (.anyRun :: ending.toList.map .exactly), .boundary]⟩) := by
  cbv

/-- A directory that is left out is searched as a root, and a file is taken by name whatever the
patterns say; a root inside another sets the bases below it only if it comes first. -/
theorem find_nested_roots :
    let t : FileTree := ⟨[(["a".toList], .directory), (["a".toList, "n.txt".toList], .file []),
      (["a".toList, "dist".toList], .directory), (["a".toList, "dist".toList, "y.css".toList], .file []),
      (["a".toList, "b".toList], .directory), (["a".toList, "b".toList, "x.less".toList], .file [])]⟩
    let paths := ["a/b".toList, "a".toList, "a/dist".toList, "a/n.txt".toList]
    let paths' := ["a".toList, "a/n.txt".toList, "a/dist".toList, "a/b".toList, "a".toList]
    let found (base : Place) : List Found :=
      [⟨pathOf ["a".toList, "b".toList, "x.less".toList], pathOf base⟩,
        ⟨pathOf ["a".toList, "dist".toList, "y.css".toList], pathOf ["a".toList, "dist".toList]⟩,
        ⟨pathOf ["a".toList, "n.txt".toList], pathOf ["a".toList]⟩]
    t.WellFormed ∧ t.LinkFree ∧ (∃ patterns, Glob.patternsOf (includesOf none) = .ok patterns) ∧
      find t [] paths none = .ok (found ["a".toList, "b".toList]) ∧
      find t [] paths' none = .ok (found ["a".toList]) ∧
      (found ["a".toList]).map Found.path = (found ["a".toList, "b".toList]).map Found.path := by
  intro t paths paths' found
  have ht : t.WellFormed := by decide +kernel
  have hl : t.LinkFree := by decide +kernel
  have hf : find t [] paths none = .ok (found ["a".toList, "b".toList]) := by cbv
  have hf' : find t [] paths' none = .ok (found ["a".toList]) := by cbv
  have hsame : ∀ raw, raw ∈ paths' ↔ raw ∈ paths := by
    intro raw
    simp only [paths, paths', List.mem_cons, List.not_mem_nil]
    tauto
  obtain ⟨fs, hfs, he⟩ := ((find_exact ht hl [] paths patternsOf_usual).2.2 _ hf).2.2.2 paths' hsame
  obtain rfl := Except.ok.inj (hf'.symm.trans hfs)
  exact ⟨ht, hl, ⟨_, patternsOf_usual⟩, hf, hf', he⟩

/-- A name of 256 letters that is not there is not said to be not found. -/
theorem find_overlong_name :
    let t : FileTree := ⟨[(["a.less".toList], .file [120])]⟩
    let long := List.replicate 256 'm'
    ¬ IsThere t [] long ∧ find t [] ["a.less".toList, long] none = .error (.system .nameTooLong long) := by
  intro t long
  have hp : Path.ofText long = ⟨.none, [long]⟩ := by decide +kernel
  have htext : (Path.ofText long).text = long := by decide +kernel
  have hlimits : FileTree.isLong FileTree.pathLimit long = false ∧
      FileTree.isLong FileTree.nameLimit long = true := by decide +kernel
  have hdots : long ≠ FileTree.dotDot ∧ long ≠ FileTree.dot := by decide +kernel
  have hlocate : t.locate [] (.ofText long) = .error .nameTooLong := by
    rw [FileTree.locate, htext, hp]
    simp [FileTree.lookup, FileTree.startOf, FileTree.entryAt?, hlimits, hdots, Path.isAbsolute]
  have hn : ¬ IsThere t [] long := not_isThere_of_locate hlocate
  have habsence : absence t [] long = .system .nameTooLong long := by
    have hz : '\x00' ∉ long := by decide +kernel
    simp [absence, IsOverlong, hlocate, hz, htext]
  have hshort : ∀ r ∈ ["a.less".toList], IsThere t [] r := by
    rw [List.forall_mem_singleton]
    cbv
  refine ⟨hn, ?_⟩
  rw [← habsence]
  exact find_of_not_isThere patternsOf_usual hshort hn

end StyleShield.Discovery
