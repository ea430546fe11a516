import StyleShield.Proofs.FileTree.Lookup

/-! Lookups where there are links. Names lead from one place to another and use up links on the way
(`leads_iff`). The way over a path goes on with the links that are left (`Leads.lookup_append`), it
is there in every tree in which nothing on it is lost (`Leads.kept`), and a new file can only be in
the way of it where a link stood that leads to a directory (`Leads.put_file`). -/
namespace StyleShield.FileTree

variable {t t' : FileTree} {links left j : Nat} {cwd cur p q : Place} {names rest : List Text} {n : Text}
  {e : Entry} {b : Bytes}

abbrev startOfLink (directory : Place) (target : Text) : Place := (followFrom directory target).1
abbrev namesOfLink (directory : Place) (target : Text) : List Text := (followFrom directory target).2

/-- Names lead from a directory to a place, all links followed, and so many links may be followed
before and after that. -/
inductive Leads (t : FileTree) : Nat → Place → List Text → Nat → Place → Prop
  | nil (links : Nat) (cur : Place) : Leads t links cur [] links cur
  | up {links left : Nat} {cur q : Place} {rest : List Text} (directory : t.entryAt? cur = some .directory)
      (later : Leads t links cur.dropLast rest left q) : Leads t links cur (dotDot :: rest) left q
  | stay {links left : Nat} {cur q : Place} {rest : List Text} (directory : t.entryAt? cur = some .directory)
      (later : Leads t links cur rest left q) : Leads t links cur (dot :: rest) left q
  | down {links left : Nat} {cur q : Place} {n : Text} {rest : List Text} {e : Entry}
      (directory : t.entryAt? cur = some .directory) (proper : n ≠ dot ∧ n ≠ dotDot)
      (short : isLong nameLimit n = false) (entry : t.entryAt? (cur ++ [n]) = some e) (proceed : e.isLink = false)
      (later : Leads t links (cur ++ [n]) rest left q) : Leads t links cur (n :: rest) left q
  | link {links left : Nat} {cur q : Place} {n target : Text} {rest : List Text}
      (directory : t.entryAt? cur = some .directory) (proper : n ≠ dot ∧ n ≠ dotDot)
      (short : isLong nameLimit n = false) (entry : t.entryAt? (cur ++ [n]) = some (.link target))
      (later : Leads t links (startOfLink cur target) (namesOfLink cur target ++ rest) left q) :
      Leads t (links + 1) cur (n :: rest) left q

theorem dot_ne_dotDot : dot ≠ dotDot := by decide

section Step

variable {last : Bool}

theorem lookup_nil : t.lookup last links cur [] = .ok cur := by rw [lookup]

theorem lookup_up (hc : t.entryAt? cur = some .directory) :
    t.lookup last links cur (dotDot :: rest) = t.lookup last links cur.dropLast rest := by
  rw [lookup]
  simp [hc]

theorem lookup_stay (hc : t.entryAt? cur = some .directory) :
    t.lookup last links cur (dot :: rest) = t.lookup last links cur rest := by
  rw [lookup]
  simp [hc, dot_ne_dotDot]

theorem lookup_down (hc : t.entryAt? cur = some .directory) (hn : n ≠ dot ∧ n ≠ dotDot)
    (hs : isLong nameLimit n = false) (he : t.entryAt? (cur ++ [n]) = some e) (hl : e.isLink = false) :
    t.lookup last links cur (n :: rest) = t.lookup last links (cur ++ [n]) rest := by
  rw [lookup]
  cases e with
  | link target => simp [Entry.isLink] at hl
  | file b => simp [hc, hn, hs, he]
  | directory => simp [hc, hn, hs, he]

theorem lookup_link (hc : t.entryAt? cur = some .directory) (hn : n ≠ dot ∧ n ≠ dotDot)
    (hs : isLong nameLimit n = false) {target : Text} (he : t.entryAt? (cur ++ [n]) = some (.link target)) :
    t.lookup true links cur (n :: rest) = match links with
      | 0 => .error .tooManyLinks
      | links + 1 => t.lookup true links (startOfLink cur target) (namesOfLink cur target ++ rest) := by
  rw [lookup]
  cases links <;> simp [hc, hn, hs, he]

end Step

theorem Leads.lookup_append (h : Leads t links cur names left p) (rest : List Text) :
    t.lookup true links cur (names ++ rest) = t.lookup true left p rest := by
  induction h with
  | nil links cur => rfl
  | up directory later ih => rw [List.cons_append, lookup_up directory, ih]
  | stay directory later ih => rw [List.cons_append, lookup_stay directory, ih]
  | down directory proper short entry proceed later ih =>
    rw [List.cons_append, lookup_down directory proper short entry proceed, ih]
  | link directory proper short entry later ih =>
    rw [List.cons_append, lookup_link directory proper short entry]
    rwa [List.append_assoc] at ih

theorem Leads.lookup (h : Leads t links cur names left q) : t.lookup true links cur names = .ok q := by
  have happend := h.lookup_append []
  rwa [List.append_nil, lookup_nil] at happend

/-- A lookup that comes to its end went along a way. -/
theorem exists_leads (h : t.lookup true links cur names = .ok q) : ∃ left, Leads t links cur names left q := by
  revert h
  fun_induction lookup t true links cur names with
  | case1 links cur =>
    intro h
    obtain rfl := Except.ok.inj h
    exact ⟨links, .nil links cur⟩
  | case2 links cur rest hc ih =>
    intro h
    obtain ⟨left, hleads⟩ := ih h
    exact ⟨left, .up hc hleads⟩
  | case3 links cur rest hc hdots ih =>
    intro h
    obtain ⟨left, hleads⟩ := ih h
    exact ⟨left, .stay hc hleads⟩
  | case6 links cur n rest hc hdd hd hs target he hlast => simp at hlast
  | case8 cur n rest hc hdd hd hs target he hlast links start names hfollow ih =>
    intro h
    obtain ⟨left, hleads⟩ := ih h
    obtain ⟨rfl, rfl⟩ := Prod.mk.inj hfollow
    exact ⟨left, .link hc ⟨hd, hdd⟩ (by simpa using hs) he hleads⟩
  | case9 links cur n rest hc hdd hd hs e hlink he ih =>
    intro h
    obtain ⟨left, hleads⟩ := ih h
    have hproceed : e.isLink = false := by
      cases e with
      | link target => exact (hlink target rfl).elim
      | _ => rfl
    exact ⟨left, .down hc ⟨hd, hdd⟩ (by simpa using hs) he hproceed hleads⟩
  | _ =>
    intro h
    simp at h

theorem leads_iff : t.lookup true links cur names = .ok q ↔ ∃ left, Leads t links cur names left q :=
  ⟨exists_leads, fun ⟨_, h⟩ => h.lookup⟩

theorem Leads.directory (h : Leads t links cur names left q) (hn : names ≠ []) : t.entryAt? cur = some .directory := by
  cases h with
  | nil => exact absurd rfl hn
  | up directory | stay directory | down directory | link directory => exact directory

theorem Leads.parted (h : Leads t links cur (names ++ rest) left q) :
    ∃ j p, Leads t links cur names j p ∧ Leads t j p rest left q := by
  generalize hall : names ++ rest = all at h
  induction h generalizing names with
  | nil links cur =>
    obtain ⟨rfl, rfl⟩ := List.append_eq_nil_iff.1 hall
    exact ⟨_, _, .nil links cur, .nil links cur⟩
  | @up links left cur q later directory h ih =>
    rcases List.append_eq_cons_iff.1 hall with ⟨rfl, rfl⟩ | ⟨names', rfl, rfl⟩
    · exact ⟨_, _, .nil _ _, .up directory h⟩
    · obtain ⟨j, p, hfirst, hsecond⟩ := ih rfl
      exact ⟨j, p, .up directory hfirst, hsecond⟩
  | @stay links left cur q later directory h ih =>
    rcases List.append_eq_cons_iff.1 hall with ⟨rfl, rfl⟩ | ⟨names', rfl, rfl⟩
    · exact ⟨_, _, .nil _ _, .stay directory h⟩
    · obtain ⟨j, p, hfirst, hsecond⟩ := ih rfl
      exact ⟨j, p, .stay directory hfirst, hsecond⟩
  | @down links left cur q n later e directory proper short entry proceed h ih =>
    rcases List.append_eq_cons_iff.1 hall with ⟨rfl, rfl⟩ | ⟨names', rfl, rfl⟩
    · exact ⟨_, _, .nil _ _, .down directory proper short entry proceed h⟩
    · obtain ⟨j, p, hfirst, hsecond⟩ := ih rfl
      exact ⟨j, p, .down directory proper short entry proceed hfirst, hsecond⟩
  | @link links left cur q n target later directory proper short entry h ih =>
    rcases List.append_eq_cons_iff.1 hall with ⟨rfl, rfl⟩ | ⟨names', rfl, rfl⟩
    · exact ⟨_, _, .nil _ _, .link directory proper short entry h⟩
    · obtain ⟨j, p, hfirst, hsecond⟩ := ih (List.append_assoc _ _ _)
      exact ⟨j, p, .link directory proper short entry hfirst, hsecond⟩

/-- With other links to follow, a way ends in the same place or has too many links. -/
theorem Leads.budget (h : Leads t links cur names left q) (j : Nat) :
    t.lookup true j cur names = .ok q ∨ t.lookup true j cur names = .error .tooManyLinks := by
  induction h generalizing j with
  | nil links cur => exact .inl lookup_nil
  | up directory later ih =>
    rw [lookup_up directory]
    exact ih j
  | stay directory later ih =>
    rw [lookup_stay directory]
    exact ih j
  | down directory proper short entry proceed later ih =>
    rw [lookup_down directory proper short entry proceed]
    exact ih j
  | link directory proper short entry later ih =>
    rw [lookup_link directory proper short entry]
    cases j with
    | zero => exact .inr rfl
    | succ j => exact ih j

/-- A way is there in every tree that keeps the entries on it. -/
theorem Leads.kept (h : Leads t links cur names left q) (ht : ∀ p e, t.entryAt? p = some e → t'.entryAt? p = some e) :
    Leads t' links cur names left q := by
  induction h with
  | nil links cur => exact .nil links cur
  | up directory later ih => exact .up (ht _ _ directory) ih
  | stay directory later ih => exact .stay (ht _ _ directory) ih
  | down directory proper short entry proceed later ih =>
    exact .down (ht _ _ directory) proper short (ht _ _ entry) proceed ih
  | link directory proper short entry later ih => exact .link (ht _ _ directory) proper short (ht _ _ entry) ih

/-- The entry at a place is a link that leads to a directory. -/
def LinksToDirectory (t : FileTree) (directory : Place) (n : Text) : Prop :=
  ∃ target links left q, t.entryAt? (directory ++ [n]) = some (.link target) ∧
    Leads t links (startOfLink directory target) (namesOfLink directory target) left q ∧
    t.entryAt? q = some .directory

/-- A new file is in the way to a directory only where a link leads to a directory. -/
theorem Leads.put_file {above : Place} (h : Leads t links cur names left q) (hq : t.entryAt? q = some .directory)
    (hp : t.entryAt? (above ++ [n]) ≠ some .directory) :
    Leads (t.put (above ++ [n]) e) links cur names left q ∨ LinksToDirectory t above n := by
  have hne : above ++ [n] ≠ [] := by simp
  have hother {r : Place} {e' : Entry} (hr : t.entryAt? r = some e') (hpr : above ++ [n] ≠ r) :
      (t.put (above ++ [n]) e).entryAt? r = some e' := by rw [entryAt?_put hne, if_neg hpr, hr]
  have hdirectory {r : Place} (hr : t.entryAt? r = some .directory) :
      (t.put (above ++ [n]) e).entryAt? r = some .directory := hother hr fun hpr => hp (hpr ▸ hr)
  induction h with
  | nil links cur => exact .inl (.nil links cur)
  | up directory later ih => exact (ih hq).imp_left (.up (hdirectory directory))
  | stay directory later ih => exact (ih hq).imp_left (.stay (hdirectory directory))
  | @down links left cur q m rest e' directory proper short entry proceed later ih =>
    have hapart : above ++ [n] ≠ cur ++ [m] := by
      intro he
      -- The way would end at a file or go on from it.
      by_cases hrest : rest = []
      · subst hrest
        cases later
        exact hp (he ▸ hq)
      · exact hp (he ▸ later.directory hrest)
    exact (ih hq).imp_left (.down (hdirectory directory) proper short (hother entry hapart) proceed)
  | @link links left cur q m target rest directory proper short entry later ih =>
    by_cases he : above ++ [n] = cur ++ [m]
    · obtain ⟨rfl, hm⟩ := List.append_inj' he rfl
      obtain rfl : n = m := by simpa using hm
      obtain ⟨j, r, hfirst, hsecond⟩ := later.parted
      refine .inr ⟨target, links, j, r, entry, hfirst, ?_⟩
      by_cases hrest : rest = []
      · subst hrest
        cases hsecond
        exact hq
      · exact hsecond.directory hrest
    · exact (ih hq).imp_left (.link (hdirectory directory) proper short (hother entry he))

end StyleShield.FileTree
