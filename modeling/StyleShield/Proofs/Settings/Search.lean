import Mathlib.Data.List.Induction
import StyleShield.Proofs.Settings

/-! Where a settings file is looked for. The sites that serve a place are all directories from the
place up to the root, each with the three names (`mem_sites_iff`), and they are tried from the nearest
directory and the preferred name on (`pairwise_ahead_sites`). The search ends at the first site that it
does not pass over (`find_cases`). -/
namespace StyleShield.Settings

open FileTree (pathOf)

/-- A directory, and a name in it. -/
structure Site where
  directory : Place
  name : Text
  deriving DecidableEq

variable {room : Nat} {t t' : FileTree} {start d : Place} {s s' : Site} {l l' : List Site} {P Q : Site → Prop} {p : Path} {f : Fault}

namespace Site

def path (s : Site) : Path := pathOf (s.directory ++ [s.name])

/-- In a directory at a place or above it, under one of the names of settings files. -/
structure Serves (s : Site) (start : Place) : Prop where
  above : s.directory <+: start
  named : s.name ∈ fileNames

/-- Further down, or in the same directory under a name that is preferred. -/
def Ahead (s s' : Site) : Prop :=
  s'.directory.length < s.directory.length ∨
    s'.directory = s.directory ∧ fileNames.idxOf s.name < fileNames.idxOf s'.name

/-- What the search makes of the site: a settings file, none, or a fault. -/
def verdict (room : Nat) (t : FileTree) (s : Site) : Except Fault Bool := counts room t s.directory s.name

theorem Ahead.asymm (h : s.Ahead s') : ¬ s'.Ahead s := by
  rintro (hlt | ⟨he, hlt⟩)
  · rcases h with h | ⟨h, -⟩
    · omega
    · rw [h] at hlt
      exact Nat.lt_irrefl _ hlt
  · rcases h with h | ⟨-, h⟩
    · rw [he] at h
      exact Nat.lt_irrefl _ h
    · omega

/-- The first one that serves a place and has a property. -/
structure IsFirst (start : Place) (P : Site → Prop) (s : Site) : Prop where
  serves : s.Serves start
  holds : P s
  ahead : ∀ s' : Site, s'.Serves start → P s' → s' ≠ s → s.Ahead s'

theorem IsFirst.unique (h : IsFirst start P s) (h' : IsFirst start P s') : s = s' := by
  by_contra hne
  exact (h.ahead s' h'.serves h'.holds (Ne.symm hne)).asymm (h'.ahead s h.serves h.holds hne)

theorem IsFirst.congr (h : ∀ s : Site, s.Serves start → (P s ↔ Q s)) : IsFirst start P s ↔ IsFirst start Q s :=
  ⟨fun hs => ⟨hs.serves, (h s hs.serves).1 hs.holds, fun s' hs' hq => hs.ahead s' hs' ((h s' hs').2 hq)⟩,
    fun hs => ⟨hs.serves, (h s hs.serves).2 hs.holds, fun s' hs' hp => hs.ahead s' hs' ((h s' hs').1 hp)⟩⟩

end Site

theorem ancestors_nil : ancestors [] = [[]] := rfl

theorem ancestors_concat (d : Place) (n : Text) : ancestors (d ++ [n]) = (d ++ [n]) :: ancestors d := by
  rw [ancestors, List.length_append, List.length_singleton, List.range_succ_eq_map, List.map_cons, List.map_map]
  congr 1
  · exact List.take_of_length_le (by simp)
  · apply List.map_congr_left
    intro i hi
    have hle : d.length - i ≤ d.length := Nat.sub_le _ _
    simp only [Function.comp_apply, Nat.succ_eq_add_one, Nat.add_sub_add_right]
    exact List.take_append_of_le_length hle

theorem mem_ancestors_iff : d ∈ ancestors start ↔ d <+: start := by
  induction start using List.reverseRecOn with
  | nil => simp [ancestors_nil]
  | append_singleton start n ih => rw [ancestors_concat, List.mem_cons, ih, List.prefix_concat_iff]

theorem pairwise_length_ancestors (start : Place) :
    (ancestors start).Pairwise fun d d' => d'.length < d.length := by
  induction start using List.reverseRecOn with
  | nil => exact List.pairwise_singleton _ _
  | append_singleton start n ih =>
    rw [ancestors_concat, List.pairwise_cons]
    refine ⟨fun d hd => ?_, ih⟩
    have hle := (mem_ancestors_iff.1 hd).length_le
    rw [List.length_append, List.length_singleton]
    omega

/-- The sites in the order in which they are tried. -/
def sites (start : Place) : List Site := (ancestors start).flatMap fun d => fileNames.map (Site.mk d)

theorem mem_sites_iff : s ∈ sites start ↔ s.Serves start := by
  obtain ⟨d, n⟩ := s
  simp only [sites, List.mem_flatMap, List.mem_map, mem_ancestors_iff, Site.mk.injEq]
  constructor
  · rintro ⟨d, hd, n, hn, rfl, rfl⟩
    exact ⟨hd, hn⟩
  · rintro ⟨hd, hn⟩
    exact ⟨d, hd, n, hn, rfl, rfl⟩

theorem pairwise_ahead_sites (start : Place) : (sites start).Pairwise Site.Ahead := by
  have hnames : fileNames.Pairwise fun n m => fileNames.idxOf n < fileNames.idxOf m := by decide
  rw [sites, List.pairwise_flatMap]
  constructor
  · intro d hd
    rw [List.pairwise_map]
    exact hnames.imp fun h => .inr ⟨rfl, h⟩
  · refine (pairwise_length_ancestors start).imp fun {d d'} hlt s hs s' hs' => .inl ?_
    obtain ⟨n, -, rfl⟩ := List.mem_map.1 hs
    obtain ⟨n', -, rfl⟩ := List.mem_map.1 hs'
    exact hlt

/-- The path of the first site that is not passed over, or its fault. -/
def search (room : Nat) (t : FileTree) : List Site → Except Fault (Option Path)
  | [] => .ok none
  | s :: l => match s.verdict room t with
    | .error f => .error f
    | .ok true => .ok (some s.path)
    | .ok false => search room t l

theorem search_append_of_none (h : search room t l = .ok none) : search room t (l ++ l') = search room t l' := by
  induction l with
  | nil => rfl
  | cons s l ih =>
    rw [search] at h
    rw [List.cons_append, search]
    split at h
    · simp at h
    · simp at h
    · exact ih h

theorem search_append_of_ne_none (h : search room t l ≠ .ok none) : search room t (l ++ l') = search room t l := by
  induction l with
  | nil => exact absurd rfl h
  | cons s l ih =>
    rw [search] at h
    rw [List.cons_append, search, search]
    split
    · rfl
    · rfl
    · rename_i hs
      rw [hs] at h
      exact ih h

theorem firstIn_eq_search (room : Nat) (t : FileTree) (d : Place) (names : List Text) :
    firstIn room t d names = search room t (names.map (Site.mk d)) := by
  induction names with
  | nil => rfl
  | cons n names ih =>
    rw [firstIn, List.map_cons, search, ← ih]
    rfl

theorem find_eq_search (room : Nat) (t : FileTree) (start : Place) : find room t start = search room t (sites start) := by
  unfold find sites
  generalize ancestors start = places
  induction places with
  | nil => rfl
  | cons d places ih =>
    rw [firstAmong, firstIn_eq_search, List.flatMap_cons, ih]
    cases hd : search room t (fileNames.map (Site.mk d)) with
    | error f => rw [search_append_of_ne_none (by simp [hd]), hd]
    | ok found =>
      cases found with
      | none => rw [search_append_of_none hd]
      | some p => rw [search_append_of_ne_none (by simp [hd]), hd]

theorem search_congr (h : ∀ s ∈ l, s.verdict room t' = s.verdict room t) : search room t' l = search room t l := by
  induction l with
  | nil => rfl
  | cons s l ih =>
    rw [List.forall_mem_cons] at h
    rw [search, search, h.1, ih h.2]

theorem find_congr (h : ∀ s : Site, s.Serves start → s.verdict room t' = s.verdict room t) : find room t' start = find room t start := by
  rw [find_eq_search, find_eq_search]
  exact search_congr fun s hs => h s (mem_sites_iff.1 hs)

theorem search_cases (room : Nat) (t : FileTree) (l : List Site) :
    (search room t l = .ok none ∧ ∀ s ∈ l, s.verdict room t = .ok false) ∨
      ∃ before s after, l = before ++ s :: after ∧ (∀ r ∈ before, r.verdict room t = .ok false) ∧
        (s.verdict room t = .ok true ∧ search room t l = .ok (some s.path) ∨
          ∃ f, s.verdict room t = .error f ∧ search room t l = .error f) := by
  induction l with
  | nil => exact .inl ⟨rfl, by simp⟩
  | cons s l ih =>
    cases hs : s.verdict room t with
    | error f => exact .inr ⟨[], s, l, rfl, by simp, .inr ⟨f, hs, by rw [search, hs]⟩⟩
    | ok here =>
      cases here with
      | true => exact .inr ⟨[], s, l, rfl, by simp, .inl ⟨hs, by rw [search, hs]⟩⟩
      | false =>
        have hstep : search room t (s :: l) = search room t l := by rw [search, hs]
        rw [hstep]
        rcases ih with ⟨hnone, hall⟩ | ⟨before, r, after, rfl, hbefore, hr⟩
        · exact .inl ⟨hnone, List.forall_mem_cons.2 ⟨hs, hall⟩⟩
        · exact .inr ⟨s :: before, r, after, rfl, List.forall_mem_cons.2 ⟨hs, hbefore⟩, hr⟩

theorem find_cases (room : Nat) (t : FileTree) (start : Place) :
    (find room t start = .ok none ∧ ∀ s : Site, s.Serves start → s.verdict room t = .ok false) ∨
      ∃ s, Site.IsFirst start (fun s => s.verdict room t ≠ .ok false) s ∧
        (s.verdict room t = .ok true ∧ find room t start = .ok (some s.path) ∨
          ∃ f, s.verdict room t = .error f ∧ find room t start = .error f) := by
  have hsearch := search_cases room t (sites start)
  rw [← find_eq_search] at hsearch
  rcases hsearch with ⟨hnone, hall⟩ | ⟨before, s, after, hsplit, hbefore, hs⟩
  · exact .inl ⟨hnone, fun s hserves => hall s (mem_sites_iff.2 hserves)⟩
  · have hstops : s.verdict room t ≠ .ok false := by
      rcases hs with ⟨hs, -⟩ | ⟨f, hs, -⟩ <;> simp [hs]
    refine .inr ⟨s, ⟨mem_sites_iff.1 (by simp [hsplit]), hstops, fun s' hserves hs' hne => ?_⟩, hs⟩
    have hordered := pairwise_ahead_sites start
    have hmem := mem_sites_iff.2 hserves
    rw [hsplit] at hordered hmem
    rcases List.mem_append.1 hmem with hin | hin
    · exact absurd (hbefore s' hin) hs'
    · have hafter : s' ∈ after := (List.mem_cons.1 hin).resolve_left hne
      exact (List.pairwise_cons.1 (List.pairwise_append.1 hordered).2.1).1 s' hafter

theorem find_eq_none_iff : find room t start = .ok none ↔ ∀ s : Site, s.Serves start → s.verdict room t = .ok false := by
  rcases find_cases room t start with ⟨hnone, hall⟩ | ⟨s, hs, hdecides⟩
  · exact iff_of_true hnone hall
  · refine iff_of_false ?_ fun hall => hs.holds (hall s hs.serves)
    rcases hdecides with ⟨-, hfind⟩ | ⟨f, -, hfind⟩ <;> simp [hfind]

theorem find_eq_some_iff : find room t start = .ok (some p) ↔
    ∃ s, Site.IsFirst start (fun s => s.verdict room t ≠ .ok false) s ∧ s.verdict room t = .ok true ∧ p = s.path := by
  constructor
  · intro h
    rcases find_cases room t start with ⟨hnone, -⟩ | ⟨s, hs, ⟨htrue, hfind⟩ | ⟨f, -, hfind⟩⟩
    · simp [hnone] at h
    · exact ⟨s, hs, htrue, Option.some.inj (Except.ok.inj (h.symm.trans hfind))⟩
    · simp [hfind] at h
  · rintro ⟨s, hs, htrue, rfl⟩
    rcases find_cases room t start with ⟨-, hall⟩ | ⟨r, hr, hdecides⟩
    · exact absurd (hall s hs.serves) hs.holds
    · obtain rfl := hs.unique hr
      rcases hdecides with ⟨-, hfind⟩ | ⟨f, hf, -⟩
      · exact hfind
      · simp [htrue] at hf

theorem find_eq_error_iff : find room t start = .error f ↔
    ∃ s, Site.IsFirst start (fun s => s.verdict room t ≠ .ok false) s ∧ s.verdict room t = .error f := by
  constructor
  · intro h
    rcases find_cases room t start with ⟨hnone, -⟩ | ⟨s, hs, ⟨-, hfind⟩ | ⟨g, hg, hfind⟩⟩
    · simp [hnone] at h
    · simp [hfind] at h
    · exact ⟨s, hs, Except.error.inj (hfind.symm.trans h) ▸ hg⟩
  · rintro ⟨s, hs, hf⟩
    rcases find_cases room t start with ⟨-, hall⟩ | ⟨r, hr, hdecides⟩
    · exact absurd (hall s hs.serves) hs.holds
    · obtain rfl := hs.unique hr
      rcases hdecides with ⟨htrue, -⟩ | ⟨g, hg, hfind⟩
      · simp [hf] at htrue
      · obtain rfl : g = f := Except.error.inj (hg.symm.trans hf)
        exact hfind

/-- Where the search gets to a site and does not pass it over, the site decides. -/
theorem find_of_reached (hserves : s.Serves start)
    (hahead : ∀ s' : Site, s'.Serves start → s'.Ahead s → s'.verdict room t = .ok false) :
    (s.verdict room t = .ok true → find room t start = .ok (some s.path)) ∧
      ∀ f, s.verdict room t = .error f → find room t start = .error f := by
  have hfirst (h : s.verdict room t ≠ .ok false) : Site.IsFirst start (fun s => s.verdict room t ≠ .ok false) s := by
    rcases find_cases room t start with ⟨-, hall⟩ | ⟨r, hr, -⟩
    · exact absurd (hall s hserves) h
    · have hsr : s = r := by
        by_contra hne
        exact hr.holds (hahead r hr.serves (hr.ahead s hserves h hne))
      exact hsr ▸ hr
  exact ⟨fun hs => find_eq_some_iff.2 ⟨s, hfirst (by simp [hs]), hs, rfl⟩,
    fun f hf => find_eq_error_iff.2 ⟨s, hfirst (by simp [hf]), hf⟩⟩

/-- Where all sites below a directory are passed over, the search might as well start there. -/
theorem find_of_passed (hd : d <+: start)
    (h : ∀ s : Site, s.Serves start → d.length < s.directory.length → s.verdict room t = .ok false) :
    find room t start = find room t d := by
  induction start using List.reverseRecOn with
  | nil => rw [List.prefix_nil.1 hd]
  | append_singleton start n ih =>
    rcases List.prefix_concat_iff.1 hd with rfl | hd
    · rfl
    · have hlt : d.length < (start ++ [n]).length := by
        have hle := hd.length_le
        rw [List.length_append, List.length_singleton]
        omega
      have hhere : ∀ s ∈ fileNames.map (Site.mk (start ++ [n])), s.verdict room t = .ok false := by
        intro s hs
        obtain ⟨m, hm, rfl⟩ := List.mem_map.1 hs
        exact h _ ⟨List.prefix_rfl, hm⟩ hlt
      have hnone : search room t (fileNames.map (Site.mk (start ++ [n]))) = .ok none := by
        rcases search_cases room t (fileNames.map (Site.mk (start ++ [n]))) with ⟨hnone, -⟩ | ⟨before, s, after, hl, -, hs⟩
        · exact hnone
        · have hpassed := hhere s (by simp [hl])
          rcases hs with ⟨hs, -⟩ | ⟨f, hs, -⟩ <;> simp [hpassed] at hs
      have hstep : find room t (start ++ [n]) = find room t start := by
        rw [find_eq_search, find_eq_search, sites, ancestors_concat, List.flatMap_cons]
        exact search_append_of_none hnone
      rw [hstep]
      exact ih hd fun s hs hlong => h s ⟨hs.above.trans (List.prefix_append start [n]), hs.named⟩ hlong

end StyleShield.Settings
