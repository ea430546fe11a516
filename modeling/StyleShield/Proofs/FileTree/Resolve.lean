import Mathlib.Data.List.Perm.Subperm
import StyleShield.Proofs.FileTree.Leads

/-! Paths with all links taken out. A way over names needs a certain number of links (`Leads.spends`,
`Leads.cost_unique`), and fewer of them behind each link on it, so no link is met again while it is open and
the search for the real place comes to its end (`real_of_leads`). So a path to something that is there stands
for the place that it leads to (`resolve_of_locate`), and the path of such a place for the place itself. -/
namespace StyleShield.FileTree

variable {t : FileTree} {links left c k m j : Nat} {cwd cur p q r : Place} {names rest : List Text} {n : Text}
  {e : Entry} {x : Path} {active : List (Bool × Place)} {depth : Nat} {fromRoot : Bool}

/-- A way needs the same number of links however many may be followed. -/
theorem Leads.spends (h : Leads t links cur names left q) : ∃ c, links = c + left ∧ Leads t c cur names 0 q := by
  have hspent : ∃ c, links = c + left ∧ ∀ k, Leads t (c + k) cur names k q := by
    induction h with
    | nil links cur => exact ⟨0, (Nat.zero_add _).symm, fun k => by simpa using Leads.nil k cur⟩
    | up directory later ih =>
      obtain ⟨c, hc, hway⟩ := ih
      exact ⟨c, hc, fun k => .up directory (hway k)⟩
    | stay directory later ih =>
      obtain ⟨c, hc, hway⟩ := ih
      exact ⟨c, hc, fun k => .stay directory (hway k)⟩
    | down directory proper short entry proceed later ih =>
      obtain ⟨c, hc, hway⟩ := ih
      exact ⟨c, hc, fun k => .down directory proper short entry proceed (hway k)⟩
    | @link links left cur q n target rest directory proper short entry later ih =>
      obtain ⟨c, hc, hway⟩ := ih
      refine ⟨c + 1, by omega, fun k => ?_⟩
      rw [Nat.add_right_comm]
      exact .link directory proper short entry (hway k)
  obtain ⟨c, hc, hway⟩ := hspent
  exact ⟨c, hc, hway 0⟩

theorem Leads.cost_unique (h : Leads t c cur names 0 q) (h' : Leads t k cur names 0 r) : c = k := by
  -- The next name and the entry at it settle which step comes next.
  generalize hleft : 0 = left at h
  induction h generalizing k with
  | nil links cur =>
    cases h'
    exact hleft.symm
  | up directory later ih =>
    cases h' with
    | up _ later' => exact ih later' hleft
    | down _ proper' => exact absurd rfl proper'.2
    | link _ proper' => exact absurd rfl proper'.2
  | stay directory later ih =>
    cases h' with
    | stay _ later' => exact ih later' hleft
    | down _ proper' => exact absurd rfl proper'.1
    | link _ proper' => exact absurd rfl proper'.1
  | down directory proper short entry proceed later ih =>
    cases h' with
    | up => exact absurd rfl proper.2
    | stay => exact absurd rfl proper.1
    | down _ _ _ _ _ later' => exact ih later' hleft
    | link _ _ _ entry' =>
      obtain rfl := Option.some.inj (entry.symm.trans entry')
      simp [Entry.isLink] at proceed
  | link directory proper short entry later ih =>
    cases h' with
    | up => exact absurd rfl proper.2
    | stay => exact absurd rfl proper.1
    | down _ _ _ entry' proceed' =>
      obtain rfl := Option.some.inj (entry.symm.trans entry')
      simp [Entry.isLink] at proceed'
    | link _ _ _ entry' later' =>
      obtain rfl := Entry.link.inj (Option.some.inj (entry.symm.trans entry'))
      exact congrArg (· + 1) (ih later' hleft)

/-- The way over the names of the link at a place needs so many links. -/
def Behind (t : FileTree) (p : Place) (k : Nat) : Prop :=
  ∃ directory n target r, p = directory ++ [n] ∧ t.entryAt? p = some (.link target) ∧
    Leads t k (startOfLink directory target) (namesOfLink directory target) 0 r

theorem Behind.unique (h : Behind t p k) (h' : Behind t p m) : k = m := by
  obtain ⟨directory, n, target, r, rfl, hentry, hway⟩ := h
  obtain ⟨directory', n', target', r', hp, hentry', hway'⟩ := h'
  obtain ⟨rfl, -⟩ := List.append_inj' hp rfl
  obtain rfl := Entry.link.inj (Option.some.inj (hentry.symm.trans hentry'))
  exact hway.cost_unique hway'

theorem Behind.mem_keys (h : Behind t p k) : p ∈ Table.keys t.entries := by
  obtain ⟨directory, n, target, r, rfl, hentry, -⟩ := h
  exact List.mem_map.2 ⟨_, mem_of_entryAt? (by simp) hentry, rfl⟩

/-- Open links are different ones, each needs as many links as the way that is left or more, and others may
be opened. -/
structure Opens (t : FileTree) (depth : Nat) (active : List (Bool × Place)) (c : Nat) : Prop where
  nodup : (active.map Prod.snd).Nodup
  behind : ∀ a ∈ active, ∃ k, c ≤ k ∧ Behind t a.2 k
  room : t.entries.length < depth + active.length

namespace Opens

theorem mono (h : Opens t depth active c) (hk : k ≤ c) : Opens t depth active k where
  nodup := h.nodup
  behind a ha := by
    obtain ⟨m, hm, hbehind⟩ := h.behind a ha
    exact ⟨m, Nat.le_trans hk hm, hbehind⟩
  room := h.room

theorem notMem (h : Opens t depth active c) (hp : Behind t p k) (hk : k < c) : p ∉ active.map Prod.snd := by
  intro hmem
  obtain ⟨a, ha, rfl⟩ := List.mem_map.1 hmem
  obtain ⟨m, hm, hbehind⟩ := h.behind a ha
  have := hp.unique hbehind
  omega

/-- There are no more open links than entries, so one more can be opened. -/
theorem cons (fromRoot : Bool) (h : Opens t depth active c) (hp : Behind t p k) (hk : k < c) :
    ∃ depth', depth = depth' + 1 ∧ Opens t depth' ((fromRoot, p) :: active) k := by
  have hnodup : (p :: active.map Prod.snd).Nodup := List.nodup_cons.2 ⟨h.notMem hp hk, h.nodup⟩
  have hsubset : p :: active.map Prod.snd ⊆ Table.keys t.entries := by
    intro r hr
    rcases List.mem_cons.1 hr with rfl | hr
    · exact hp.mem_keys
    · obtain ⟨a, ha, rfl⟩ := List.mem_map.1 hr
      obtain ⟨m, -, hbehind⟩ := h.behind a ha
      exact hbehind.mem_keys
  have hle := (hnodup.subperm hsubset).length_le
  have hroom := h.room
  simp only [List.length_cons, List.length_map, Table.keys] at hle
  obtain ⟨depth', rfl⟩ : ∃ depth', depth = depth' + 1 := ⟨depth - 1, by omega⟩
  refine ⟨depth', rfl, hnodup, ?_, ?_⟩
  · rw [List.forall_mem_cons]
    refine ⟨⟨k, Nat.le_refl k, hp⟩, fun a ha => ?_⟩
    obtain ⟨m, hm, hbehind⟩ := h.behind a ha
    exact ⟨m, by omega, hbehind⟩
  · rw [List.length_cons]
    omega

end Opens

/-- The real place of names is where they lead, whatever links are open. -/
theorem real_of_leads {c depth : Nat} {active : List (Bool × Place)} (fromRoot : Bool) {cur q : Place}
    {names : List Text} (h : Leads t c cur names 0 q) (hopen : Opens t depth active c) :
    ∃ b, t.real depth active fromRoot cur names = ⟨q, b, true⟩ := by
  cases h with
  | nil => exact ⟨fromRoot, by rw [real]⟩
  | up directory later =>
    rw [real, if_pos rfl]
    exact real_of_leads fromRoot later hopen
  | stay directory later =>
    rw [real, if_neg dot_ne_dotDot, if_pos rfl]
    exact real_of_leads fromRoot later hopen
  | @down _ _ _ _ n rest e directory proper short entry proceed later =>
    rw [real, if_neg proper.2, if_neg proper.1, entry]
    cases e with
    | link target => simp [Entry.isLink] at proceed
    | file b => exact real_of_leads fromRoot later hopen
    | directory => exact real_of_leads fromRoot later hopen
  -- The link is not among the open ones: less is behind it than is left for any of those.
  | @link c _ _ _ n target rest directory proper short entry later =>
    obtain ⟨j, r, hfirst, hrest⟩ := later.parted
    obtain ⟨k, hk, hfirst⟩ := hfirst.spends
    have hbehind : Behind t (cur ++ [n]) k := ⟨cur, n, target, r, rfl, entry, hfirst⟩
    have hless : k < c + 1 := by omega
    have hless' : j < c + 1 := by omega
    have hnew : (fromRoot, cur ++ [n]) ∉ active := fun hmem =>
      hopen.notMem hbehind hless (List.mem_map.2 ⟨_, hmem, rfl⟩)
    obtain ⟨depth', rfl, hopen'⟩ := hopen.cons fromRoot hbehind hless
    obtain ⟨b, hinner⟩ := real_of_leads (fromRoot || (Path.ofText target).isAbsolute) hfirst hopen'
    rw [real, if_neg proper.2, if_neg proper.1, entry]
    simp only [if_neg hnew, hinner, if_true]
    exact real_of_leads b hrest (hopen.mono (Nat.le_of_lt hless'))
termination_by (c, names.length)

theorem exists_not_link (ht : t.WellFormed) (he : t.entryAt? (cur ++ n :: names) = some e) (hl : e.isLink = false) :
    ∃ e', t.entryAt? (cur ++ [n]) = some e' ∧ e'.isLink = false := by
  by_cases hn : names = []
  · exact ⟨e, hn ▸ he, hl⟩
  · refine ⟨.directory, directory_of_append ht hn (e := e) ?_, rfl⟩
    rwa [List.append_assoc]

theorem real_of_entryAt? (ht : t.WellFormed) (hp : Plain names) (he : t.entryAt? (cur ++ names) = some e)
    (hl : e.isLink = false) : t.real depth active fromRoot cur names = ⟨cur ++ names, fromRoot, true⟩ := by
  induction names generalizing cur with
  | nil => rw [real, List.append_nil]
  | cons n names ih =>
    rw [Plain, List.forall_mem_cons] at hp
    obtain ⟨e', he', hl'⟩ := exists_not_link ht he hl
    rw [List.append_cons] at he ⊢
    rw [real, if_neg hp.1.2, if_neg hp.1.1, he']
    cases e' with
    | link target => simp [Entry.isLink] at hl'
    | file b => exact ih hp.2 he
    | directory => exact ih hp.2 he

theorem lookup_of_entryAt? (ht : t.WellFormed) (hp : Plain names) (he : t.entryAt? (cur ++ names) = some e)
    (hl : e.isLink = false) : t.lookup true links cur names = .ok (cur ++ names) ∨
      t.lookup true links cur names = .error .nameTooLong := by
  induction names generalizing cur with
  | nil =>
    rw [List.append_nil]
    exact .inl lookup_nil
  | cons n names ih =>
    rw [Plain, List.forall_mem_cons] at hp
    have hcur : t.entryAt? cur = some .directory := directory_of_append ht (List.cons_ne_nil _ _) he
    obtain ⟨e', he', hl'⟩ := exists_not_link ht he hl
    rw [List.append_cons] at he ⊢
    by_cases hlong : isLong nameLimit n = true
    · right
      rw [lookup]
      simp [hcur, hp.1, hlong]
    · rw [lookup_down hcur hp.1 (by simpa using hlong) he' hl']
      exact ih hp.2 he

theorem locate_pathOf_ne_tooManyLinks (ht : t.WellFormed) (hp : Plain q) (he : t.entryAt? q = some e)
    (hl : e.isLink = false) : t.locate cwd (pathOf q) ≠ .error .tooManyLinks := by
  unfold locate
  split
  · simp
  · have hlookup : t.lookup true linkLimit [] q = .ok q ∨ t.lookup true linkLimit [] q = .error .nameTooLong :=
      lookup_of_entryAt? ht hp he hl
    show t.lookup true linkLimit [] q ≠ _
    rcases hlookup with hlookup | hlookup <;> simp [hlookup]

theorem resolve_of_real {b complete : Bool} (ht : t.WellFormed) (hu : t.Undotted)
    (hreal : t.real (2 * t.entries.length + 1) [] x.isAbsolute (startOf cwd x) x.names = ⟨q, b, complete⟩)
    (he : t.entryAt? q = some e) (hl : e.isLink = false) : t.resolve cwd x = .ok q := by
  have hplain := plain_of_entryAt? hu he
  have hcollapse : collapse q = q := follow_of_plain hplain
  unfold resolve
  rw [hreal]
  dsimp only
  rw [hcollapse]
  split
  · rename_i hloop
    exact absurd hloop (locate_pathOf_ne_tooManyLinks ht hplain he hl)
  · rfl

theorem resolve_of_locate (ht : t.WellFormed) (hu : t.Undotted) (h : t.locate cwd x = .ok q)
    (he : t.entryAt? q = some e) (hl : e.isLink = false) : t.resolve cwd x = .ok q := by
  obtain ⟨left, hleads⟩ := leads_iff.1 (locate_eq_ok_iff.1 h).2
  obtain ⟨c, -, hway⟩ := hleads.spends
  have hopen : Opens t (2 * t.entries.length + 1) [] c := ⟨List.nodup_nil, by simp, by rw [List.length_nil]; omega⟩
  obtain ⟨b, hreal⟩ := real_of_leads x.isAbsolute hway hopen
  exact resolve_of_real ht hu hreal he hl

/-- The path of a file or a directory stands for its place, however long it is. -/
theorem resolve_pathOf (ht : t.WellFormed) (hu : t.Undotted) (he : t.entryAt? q = some e) (hl : e.isLink = false) :
    t.resolve cwd (pathOf q) = .ok q :=
  resolve_of_real ht hu (real_of_entryAt? ht (plain_of_entryAt? hu he) he hl) he hl

end StyleShield.FileTree
