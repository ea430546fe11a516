import StyleShield.Proofs.FileTree

/-! Lookups where there are no links. Names alone say where a lookup ends (`lookup_eq_follow`); it comes
to its end if there is a directory at every step. A tree may grow by files at given places and by
directories: what was found is found again (`Grows.lookup`), and elsewhere every file is the same
(`Grows.file_iff`). -/
namespace StyleShield.FileTree

variable {t t' t'' : FileTree} {last : Bool} {links : Nat} {cwd cur p q : Place} {names rest : List Text}
  {n : Text} {b : Bytes}

/-- The place that names lead to where there are no links. -/
def follow (cur : Place) (names : List Text) : Place :=
  names.foldl (fun done n => if n = dotDot then done.dropLast else if n = dot then done else done ++ [n]) cur

/-- Where a path leads, if all of it is there. -/
def spot (cwd : Place) (x : Path) : Place := follow (startOf cwd x) x.names

/-- Names without dots for a directory itself or the one above. -/
def Plain (names : List Text) : Prop := ∀ n ∈ names, n ≠ dot ∧ n ≠ dotDot

def Undotted (t : FileTree) : Prop := ∀ e ∈ t.entries, Plain e.1

instance (names : List Text) : Decidable (Plain names) :=
  inferInstanceAs (Decidable (∀ n ∈ names, n ≠ dot ∧ n ≠ dotDot))

instance (t : FileTree) : Decidable t.Undotted := inferInstanceAs (Decidable (∀ e ∈ t.entries, Plain e.1))

theorem follow_append (cur : Place) (ms ns : List Text) : follow cur (ms ++ ns) = follow (follow cur ms) ns :=
  List.foldl_append

theorem follow_of_plain (h : Plain names) : follow cur names = cur ++ names := by
  induction names generalizing cur with
  | nil => exact (List.append_nil cur).symm
  | cons n names ih =>
    rw [Plain, List.forall_mem_cons] at h
    change follow (if n = dotDot then cur.dropLast else if n = dot then cur else cur ++ [n]) names = _
    rw [if_neg h.1.2, if_neg h.1.1, ih h.2, List.append_assoc]
    rfl

theorem prefix_follow (h : dotDot ∉ names) : cur <+: follow cur names := by
  induction names generalizing cur with
  | nil => exact List.prefix_rfl
  | cons n names ih =>
    rw [List.mem_cons, not_or] at h
    change cur <+: follow (if n = dotDot then cur.dropLast else if n = dot then cur else cur ++ [n]) names
    rw [if_neg (Ne.symm h.1)]
    split
    · exact ih h.2
    · exact (List.prefix_append cur [n]).trans (ih h.2)

theorem plain_of_entryAt? (h : t.Undotted) {e : Entry} (hp : t.entryAt? p = some e) : Plain p := by
  by_cases hn : p = []
  · simp [hn, Plain]
  · exact h _ (mem_of_entryAt? hn hp)

section Lookup

theorem lookup_cons_eq_ok_iff (hl : t.LinkFree) : t.lookup last links cur (n :: rest) = .ok q ↔
    t.entryAt? cur = some .directory ∧
      ((n = dotDot ∧ t.lookup last links cur.dropLast rest = .ok q) ∨
        (n = dot ∧ t.lookup last links cur rest = .ok q) ∨
        ((n ≠ dot ∧ n ≠ dotDot) ∧ isLong nameLimit n = false ∧ (∃ e, t.entryAt? (cur ++ [n]) = some e) ∧
          t.lookup last links (cur ++ [n]) rest = .ok q)) := by
  have hdots : dot ≠ dotDot := by decide
  rw [lookup]
  cases hc : t.entryAt? cur with
  | none => simp
  | some e =>
    cases e with
    | file b => simp
    | link target => exact absurd hc (not_link_of_linkFree hl)
    | directory =>
      by_cases hdd : n = dotDot
      · simp [hdd, hdots.symm]
      · by_cases hd : n = dot
        · simp [hd, hdots]
        · by_cases hlong : isLong nameLimit n = true
          · simp [hdd, hd, hlong]
          · cases hn : t.entryAt? (cur ++ [n]) with
            | none => simp [hdd, hd, hlong]
            | some e =>
              cases e with
              | link target => exact absurd hn (not_link_of_linkFree hl)
              | file b => simp [hdd, hd, hlong]
              | directory => simp [hdd, hd, hlong]

theorem lookup_nil_eq_ok_iff : t.lookup last links cur [] = .ok q ↔ q = cur := by
  rw [lookup]
  exact ⟨fun h => (Except.ok.inj h).symm, fun h => congrArg Except.ok h.symm⟩

theorem lookup_eq_follow (hl : t.LinkFree) (h : t.lookup last links cur names = .ok q) : q = follow cur names := by
  induction names generalizing cur with
  | nil => exact lookup_nil_eq_ok_iff.1 h
  | cons n names ih =>
    change q = follow (if n = dotDot then cur.dropLast else if n = dot then cur else cur ++ [n]) names
    rcases ((lookup_cons_eq_ok_iff hl).1 h).2 with ⟨hn, h⟩ | ⟨hn, h⟩ | ⟨hn, -, -, h⟩
    · rw [if_pos hn]
      exact ih h
    · have hdots : n ≠ dotDot := hn ▸ by decide
      rw [if_neg hdots, if_pos hn]
      exact ih h
    · rw [if_neg hn.2, if_neg hn.1]
      exact ih h

theorem lookup_append_eq_ok_iff (hl : t.LinkFree) : t.lookup last links cur (names ++ rest) = .ok q ↔
    ∃ p, t.lookup last links cur names = .ok p ∧ t.lookup last links p rest = .ok q := by
  induction names generalizing cur with
  | nil => simp [lookup_nil_eq_ok_iff]
  | cons n names ih =>
    rw [List.cons_append]
    simp only [lookup_cons_eq_ok_iff hl, ih]
    constructor
    · rintro ⟨hc, ⟨hn, p, h, h'⟩ | ⟨hn, p, h, h'⟩ | ⟨hn, hshort, he, p, h, h'⟩⟩
      · exact ⟨p, ⟨hc, .inl ⟨hn, h⟩⟩, h'⟩
      · exact ⟨p, ⟨hc, .inr (.inl ⟨hn, h⟩)⟩, h'⟩
      · exact ⟨p, ⟨hc, .inr (.inr ⟨hn, hshort, he, h⟩)⟩, h'⟩
    · rintro ⟨p, ⟨hc, ⟨hn, h⟩ | ⟨hn, h⟩ | ⟨hn, hshort, he, h⟩⟩, h'⟩
      · exact ⟨hc, .inl ⟨hn, p, h, h'⟩⟩
      · exact ⟨hc, .inr (.inl ⟨hn, p, h, h'⟩)⟩
      · exact ⟨hc, .inr (.inr ⟨hn, hshort, he, p, h, h'⟩)⟩

/-- Plain names lead to the place below, if they are short and something is there. -/
theorem lookup_plain_eq_ok_iff (ht : t.WellFormed) (hl : t.LinkFree) (hp : Plain names) :
    t.lookup last links cur names = .ok q ↔ q = cur ++ names ∧ (∀ n ∈ names, isLong nameLimit n = false) ∧
      (names ≠ [] → ∃ e, t.entryAt? (cur ++ names) = some e) := by
  induction names generalizing cur with
  | nil => simp [lookup_nil_eq_ok_iff]
  | cons n names ih =>
    rw [Plain, List.forall_mem_cons] at hp
    have happend : cur ++ n :: names = cur ++ [n] ++ names := by simp
    rw [lookup_cons_eq_ok_iff hl, List.forall_mem_cons, happend]
    constructor
    · rintro ⟨-, ⟨hn, -⟩ | ⟨hn, -⟩ | ⟨-, hshort, he, h⟩⟩
      · exact absurd hn hp.1.2
      · exact absurd hn hp.1.1
      · obtain ⟨hq, hrest, he'⟩ := (ih hp.2).1 h
        refine ⟨hq, ⟨hshort, hrest⟩, fun _ => ?_⟩
        by_cases hnames : names = []
        · simpa [hnames] using he
        · exact he' hnames
    · rintro ⟨hq, ⟨hshort, hrest⟩, he⟩
      obtain ⟨e, he⟩ := he (List.cons_ne_nil _ _)
      have hcur : t.entryAt? cur = some .directory :=
        directory_of_append ht (r := n :: names) (List.cons_ne_nil _ _) (happend ▸ he)
      refine ⟨hcur, .inr (.inr ⟨hp.1, hshort, ?_, (ih hp.2).2 ⟨hq, hrest, fun _ => ⟨e, he⟩⟩⟩)⟩
      by_cases hnames : names = []
      · exact ⟨e, by simpa [hnames] using he⟩
      · exact ⟨_, directory_of_append ht hnames he⟩

theorem locate_eq_ok_iff {x : Path} : t.locate cwd x = .ok q ↔
    isLong pathLimit x.text = false ∧ t.lookup true linkLimit (startOf cwd x) x.names = .ok q := by
  unfold locate
  cases isLong pathLimit x.text <;> simp

theorem locate_eq_spot (hl : t.LinkFree) {x : Path} (h : t.locate cwd x = .ok q) : q = spot cwd x :=
  lookup_eq_follow hl (locate_eq_ok_iff.1 h).2

theorem lookup_ne_tooManyLinks (hl : t.LinkFree) : t.lookup last links cur names ≠ .error .tooManyLinks := by
  fun_induction lookup t last links cur names with
  | case2 links cur rest hc ih => exact ih
  | case3 links cur rest hc hdots ih => exact ih
  | case6 links cur n rest hc hdd hd hs target he hlast => exact absurd he (not_link_of_linkFree hl)
  | case7 cur n rest hc hdd hd hs target he hlast => exact absurd he (not_link_of_linkFree hl)
  | case8 cur n rest hc hdd hd hs target he hlast links start names hfollow ih =>
    exact absurd he (not_link_of_linkFree hl)
  | case9 links cur n rest hc hdd hd hs e hlink he ih => exact ih
  | _ => simp

theorem locate_ne_tooManyLinks (hl : t.LinkFree) (cwd : Place) (x : Path) :
    t.locate cwd x ≠ .error .tooManyLinks := by
  unfold locate
  split
  · simp
  · exact lookup_ne_tooManyLinks hl

def IsShort (q : Place) : Prop := isLong pathLimit (pathOf q).text = false ∧ ∀ n ∈ q, isLong nameLimit n = false

theorem locate_pathOf_eq_ok_iff (ht : t.WellFormed) (hl : t.LinkFree) (hq : Plain q) :
    t.locate cwd (pathOf q) = .ok p ↔ p = q ∧ IsShort q ∧ ∃ e, t.entryAt? q = some e := by
  have hroot : (∃ e, t.entryAt? [] = some e) := ⟨.directory, rfl⟩
  have hlookup : t.lookup true linkLimit (startOf cwd (pathOf q)) (pathOf q).names = .ok p ↔
      p = q ∧ (∀ n ∈ q, isLong nameLimit n = false) ∧ (q ≠ [] → ∃ e, t.entryAt? q = some e) :=
    lookup_plain_eq_ok_iff ht hl hq
  rw [locate_eq_ok_iff, hlookup, IsShort]
  by_cases hn : q = []
  · subst hn
    simp [hroot, and_comm]
  · simp [hn, and_assoc, and_left_comm]

/-- On the way to a directory names are used up, or one of them is too long. -/
theorem lookup_append_of_directory (ht : t.WellFormed) (hp : Plain names)
    (hd : t.entryAt? (cur ++ names) = some .directory) :
    ((∀ n ∈ names, isLong nameLimit n = false) ∧
      t.lookup last links cur (names ++ rest) = t.lookup last links (cur ++ names) rest) ∨
    ((∃ n ∈ names, isLong nameLimit n = true) ∧ t.lookup last links cur (names ++ rest) = .error .nameTooLong) := by
  induction names generalizing cur with
  | nil => simp
  | cons n names ih =>
    rw [Plain, List.forall_mem_cons] at hp
    have hcur : t.entryAt? cur = some .directory := directory_of_append ht (List.cons_ne_nil n names) hd
    rw [List.append_cons] at hd ⊢
    have hnext : t.entryAt? (cur ++ [n]) = some .directory := by
      by_cases hn : names = []
      · rwa [hn, List.append_nil] at hd
      · exact directory_of_append ht hn hd
    by_cases hlong : isLong nameLimit n = true
    · right
      exact ⟨⟨n, List.mem_cons_self, hlong⟩, by rw [List.cons_append, lookup]; simp [hcur, hp.1, hlong]⟩
    · rw [Bool.not_eq_true] at hlong
      have hstep : t.lookup last links cur (n :: names ++ rest) = t.lookup last links (cur ++ [n]) (names ++ rest) := by
        rw [List.cons_append, lookup]
        simp [hcur, hp.1, hlong, hnext]
      rw [hstep, List.forall_mem_cons]
      rcases ih hp.2 hd with ⟨hshort, h⟩ | ⟨⟨m, hm, hlong'⟩, h⟩
      · exact .inl ⟨⟨hlong, hshort⟩, h⟩
      · exact .inr ⟨⟨m, List.mem_cons_of_mem n hm, hlong'⟩, h⟩

theorem locate_eq_nameTooLong_iff (ht : t.Regular) (hd : t.entryAt? p = some .directory) (hp : Plain (p ++ [n])) :
    t.locate cwd (pathOf (p ++ [n])) = .error .nameTooLong ↔ ¬ IsShort (p ++ [n]) := by
  have hlast : n ≠ dot ∧ n ≠ dotDot := hp n (by simp)
  have hnames : Plain p := fun m hm => hp m (List.mem_append_left _ hm)
  unfold locate IsShort
  cases hpath : isLong pathLimit (pathOf (p ++ [n])).text with
  | true => simp
  | false =>
    change t.lookup true linkLimit [] (p ++ [n]) = _ ↔ _
    have hwalk := @lookup_append_of_directory t true linkLimit [] p [n] ht.wellFormed hnames hd
    rcases hwalk with ⟨hshort, h⟩ | ⟨⟨m, hm, hlong⟩, h⟩
    · rw [h, List.nil_append, lookup]
      cases hn : isLong nameLimit n with
      | true => simp [hd, hlast, hn]
      | false =>
        cases he : t.entryAt? (p ++ [n]) with
        | none => simpa [hd, hlast, hn] using hshort
        | some e =>
          cases e with
          | link target => exact absurd he (not_link_of_linkFree ht.linkFree)
          | _ => simpa [hd, hlast, hn, he, lookup_nil_eq_ok_iff.2 rfl] using hshort
    · rw [h]
      refine iff_of_true rfl fun hall => ?_
      simp [hall.2 m (List.mem_append_left _ hm)] at hlong

theorem read_pathOf_eq_ok_iff (ht : t.WellFormed) (hl : t.LinkFree) (hq : Plain q) :
    t.read cwd (pathOf q) = .ok b ↔ IsShort q ∧ t.entryAt? q = some (.file b) := by
  unfold read find
  cases hlocate : t.locate cwd (pathOf q) with
  | error e =>
    simp only [reduceCtorEq, false_iff, not_and]
    intro hshort he
    simp [(locate_pathOf_eq_ok_iff ht hl hq).2 ⟨rfl, hshort, _, he⟩] at hlocate
  | ok place =>
    obtain ⟨rfl, hshort, e, he⟩ := (locate_pathOf_eq_ok_iff ht hl hq).1 hlocate
    cases e <;> simp [he, hshort]

theorem isFile_pathOf_iff (ht : t.WellFormed) (hl : t.LinkFree) (hq : Plain q) :
    t.isFile cwd (pathOf q) = true ↔ IsShort q ∧ ∃ b, t.entryAt? q = some (.file b) := by
  simp only [isFile, Option.isSome_iff_exists, fileAt?_eq_some_iff, locate_pathOf_eq_ok_iff ht hl hq]
  constructor
  · rintro ⟨p, ⟨rfl, hshort, -⟩, b, hb⟩
    exact ⟨hshort, b, hb⟩
  · rintro ⟨hshort, b, hb⟩
    exact ⟨q, ⟨rfl, hshort, _, hb⟩, b, hb⟩

end Lookup

/-- What writing may change: files at some places, and directories where nothing was. -/
structure Grows (touched : Place → Prop) (t t' : FileTree) : Prop where
  directory : ∀ p, t.entryAt? p = some .directory → t'.entryAt? p = some .directory
  file : ∀ p b, t.entryAt? p = some (.file b) → ∃ b', t'.entryAt? p = some (.file b') ∧ (b' = b ∨ touched p)
  new : ∀ p e, t.entryAt? p = none → t'.entryAt? p = some e → e = .directory ∨ (touched p ∧ ∃ b, e = .file b)

namespace Grows

variable {touched touched' : Place → Prop}

theorem refl (touched : Place → Prop) (t : FileTree) : Grows touched t t where
  directory _ h := h
  file _ b h := ⟨b, h, .inl rfl⟩
  new _ _ hn h := by simp [hn] at h

theorem mono (h : Grows touched t t') (hw : ∀ p, touched p → touched' p) : Grows touched' t t' where
  directory := h.directory
  file p b hb := by
    obtain ⟨b', hb', hor⟩ := h.file p b hb
    exact ⟨b', hb', hor.imp_right (hw p)⟩
  new p e hn he := (h.new p e hn he).imp_right fun hp => ⟨hw p hp.1, hp.2⟩

theorem trans (h : Grows touched t t') (h' : Grows touched t' t'') : Grows touched t t'' where
  directory p hp := h'.directory p (h.directory p hp)
  file p b hb := by
    obtain ⟨b₁, hb₁, hor₁⟩ := h.file p b hb
    obtain ⟨b₂, hb₂, hor₂⟩ := h'.file p b₁ hb₁
    rcases hor₂ with rfl | hw
    · exact ⟨b₂, hb₂, hor₁⟩
    · exact ⟨b₂, hb₂, .inr hw⟩
  new p e hn he := by
    cases hm : t'.entryAt? p with
    | none => exact h'.new p e hm he
    | some e₁ =>
      rcases h.new p e₁ hn hm with rfl | ⟨hw, b, rfl⟩
      · exact .inl (Option.some.inj (he.symm.trans (h'.directory p hm)))
      · obtain ⟨b', hb', -⟩ := h'.file p b hm
        exact .inr ⟨hw, b', Option.some.inj (he.symm.trans hb')⟩

theorem exists_entry (h : Grows touched t t') (hl : t.LinkFree) {e : Entry} (hp : t.entryAt? p = some e) :
    ∃ e', t'.entryAt? p = some e' := by
  cases e with
  | directory => exact ⟨_, h.directory p hp⟩
  | file b =>
    obtain ⟨b', hb', -⟩ := h.file p b hp
    exact ⟨_, hb'⟩
  | link target => exact absurd hp (not_link_of_linkFree hl)

theorem file_iff (h : Grows touched t t') (hl : t.LinkFree) (hp : ¬ touched p) :
    t'.entryAt? p = some (.file b) ↔ t.entryAt? p = some (.file b) := by
  constructor
  · intro hb
    cases he : t.entryAt? p with
    | none =>
      rcases h.new p _ he hb with hd | ⟨hw, -⟩
      · simp at hd
      · exact absurd hw hp
    | some e =>
      cases e with
      | directory => simp [h.directory p he] at hb
      | link target => exact absurd he (not_link_of_linkFree hl)
      | file b₀ =>
        obtain ⟨b', hb', rfl | hw⟩ := h.file p b₀ he
        · exact hb'.symm.trans hb
        · exact absurd hw hp
  · intro hb
    obtain ⟨b', hb', rfl | hw⟩ := h.file p b hb
    · exact hb'
    · exact absurd hw hp

theorem lookup (h : Grows touched t t') (hl : t.LinkFree) (hl' : t'.LinkFree)
    (hq : t.lookup last links cur names = .ok q) : t'.lookup last links cur names = .ok q := by
  induction names generalizing cur with
  | nil => exact lookup_nil_eq_ok_iff.2 (lookup_nil_eq_ok_iff.1 hq)
  | cons n names ih =>
    obtain ⟨hc, hstep⟩ := (lookup_cons_eq_ok_iff hl).1 hq
    refine (lookup_cons_eq_ok_iff hl').2 ⟨h.directory _ hc, ?_⟩
    rcases hstep with ⟨hn, hq⟩ | ⟨hn, hq⟩ | ⟨hn, hshort, ⟨e, he⟩, hq⟩
    · exact .inl ⟨hn, ih hq⟩
    · exact .inr (.inl ⟨hn, ih hq⟩)
    · exact .inr (.inr ⟨hn, hshort, h.exists_entry hl he, ih hq⟩)

theorem directoryAt? (h : Grows touched t t') (hl : t.LinkFree) (hl' : t'.LinkFree) {x : Path}
    (hq : t.directoryAt? cwd x = some q) : t'.directoryAt? cwd x = some q := by
  obtain ⟨hlocate, hd⟩ := directoryAt?_eq_some_iff.1 hq
  obtain ⟨hshort, hlookup⟩ := locate_eq_ok_iff.1 hlocate
  exact directoryAt?_eq_some_iff.2 ⟨locate_eq_ok_iff.2 ⟨hshort, h.lookup hl hl' hlookup⟩, h.directory q hd⟩

theorem isFile_pathOf (h : Grows touched t t') (ht : t.Regular) (ht' : t'.Regular) (hq : Plain q) (hn : ¬ touched q) :
    t'.isFile cwd (pathOf q) = t.isFile cwd (pathOf q) := by
  rw [Bool.eq_iff_iff, isFile_pathOf_iff ht.wellFormed ht.linkFree hq, isFile_pathOf_iff ht'.wellFormed ht'.linkFree hq]
  simp only [h.file_iff ht.linkFree hn]

theorem read_pathOf (h : Grows touched t t') (ht : t.Regular) (ht' : t'.Regular) (hq : Plain q) (hn : ¬ touched q) :
    t'.read cwd (pathOf q) = .ok b ↔ t.read cwd (pathOf q) = .ok b := by
  rw [read_pathOf_eq_ok_iff ht.wellFormed ht.linkFree hq, read_pathOf_eq_ok_iff ht'.wellFormed ht'.linkFree hq,
    h.file_iff ht.linkFree hn]

theorem ask_pathOf {α : Type} (h : Grows touched t t') (ht : t.Regular) (ht' : t'.Regular)
    (hd : t.entryAt? p = some .directory) (hp : Plain (p ++ [n])) (a : α) :
    t'.ask cwd (pathOf (p ++ [n])) a = t.ask cwd (pathOf (p ++ [n])) a := by
  have hlong : t.locate cwd _ = .error .nameTooLong ↔ _ := locate_eq_nameTooLong_iff ht hd hp
  have hlong' : t'.locate cwd _ = .error .nameTooLong ↔ _ := locate_eq_nameTooLong_iff ht' (h.directory p hd) hp
  by_cases hs : IsShort (p ++ [n])
  · rw [ask_eq_ok_iff.2 ⟨fun hl => hlong.1 hl hs, rfl⟩, ask_eq_ok_iff.2 ⟨fun hl => hlong'.1 hl hs, rfl⟩]
  · rw [ask_eq_error_iff.2 ⟨hlong.2 hs, rfl⟩, ask_eq_error_iff.2 ⟨hlong'.2 hs, rfl⟩]

end Grows

end StyleShield.FileTree
