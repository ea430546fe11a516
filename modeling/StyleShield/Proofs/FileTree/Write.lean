import Mathlib.Data.List.Basic
import StyleShield.Proofs.FileTree.Extend
import StyleShield.Proofs.Run

/-! What writing does to a tree. A write puts its file into a directory or fails, and either way it may
make directories (`write_cases`). Links or not, the file is read back by its path, unless that has
too many links (`Puts.read`). In a regular tree nothing changes but the place of the target
(`write_frame`); to write what is in place once more changes nothing at all (`write_of_written`). So
a whole sequence of writes to different places can be repeated without effect (`Writes.written`). -/
namespace StyleShield.Text

theorem join_prefix_concat (sep : Text) (ps : List Text) (p : Text) : join sep ps <+: join sep (ps ++ [p]) := by
  induction ps with
  | nil => exact List.nil_prefix
  | cons q ps ih =>
    cases ps with
    | nil => exact ⟨sep ++ p, by simp⟩
    | cons r ps =>
      obtain ⟨s, hs⟩ := ih
      exact ⟨s, by rw [List.cons_append, List.cons_append, join_cons_cons, join_cons_cons, List.append_assoc, hs]; rfl⟩

end StyleShield.Text

namespace StyleShield.FileTree

variable {t t' t₁ : FileTree} {cwd : Place} {p q above : Place} {x : Path} {n : Text} {names : List Text} {b : Bytes}
  {touched : Place → Prop}

theorem isLong_parent (h : isLong pathLimit x.text = false) : isLong pathLimit x.parent.text = false := by
  obtain ⟨anchor, names⟩ := x
  rcases List.eq_nil_or_concat' names with rfl | ⟨ns, n, rfl⟩
  · exact h
  · have hparent : (⟨anchor, ns ++ [n]⟩ : Path).parent = ⟨anchor, ns⟩ := by simp [Path.parent]
    have htext : (⟨anchor, ns ++ [n]⟩ : Path).text = anchor.text ++ Text.join ['/'] (ns ++ [n]) := by
      cases anchor <;> cases ns <;> rfl
    rw [hparent]
    by_cases hdot : anchor = .none ∧ ns = []
    · obtain ⟨rfl, rfl⟩ := hdot
      decide
    · have htext' : (⟨anchor, ns⟩ : Path).text = anchor.text ++ Text.join ['/'] ns := by
        cases anchor <;> cases ns <;> simp_all [Path.text]
      obtain ⟨s, hs⟩ := Text.join_prefix_concat ['/'] ns n
      simp only [isLong, decide_eq_false_iff_not, Nat.not_lt] at h ⊢
      rw [htext, ← hs, ← List.append_assoc, ← htext'] at h
      simp only [Encoding.utf8Bytes, List.flatMap_append, List.length_append] at h ⊢
      omega

/-- Beside a file with a name that fits there is room for the file itself. -/
theorem isLong_of_besideName {limit : Nat} {s : Text} (h : ¬ isLong limit (besideName s) = true) :
    isLong limit s = false := by
  apply decide_eq_false
  simp only [besideName, isLong, decide_eq_true_eq, Encoding.utf8Bytes, List.flatMap_append,
    List.length_append] at h ⊢
  omega

section Grow

theorem Grows.put_file (hp : p ≠ []) (hw : touched p) (hn : t.entryAt? p ≠ some .directory) :
    Grows touched t (t.put p (.file b)) where
  directory q hq := by
    have hpq : p ≠ q := by
      rintro rfl
      exact hn hq
    rw [entryAt?_put hp, if_neg hpq, hq]
  file q b₀ hb := by
    by_cases hpq : p = q
    · subst hpq
      exact ⟨b, by rw [entryAt?_put hp, if_pos rfl], .inr hw⟩
    · exact ⟨b₀, by rw [entryAt?_put hp, if_neg hpq, hb], .inl rfl⟩
  new q e hq he := by
    rw [entryAt?_put hp] at he
    split at he
    · rename_i hpq
      exact .inr ⟨hpq ▸ hw, b, (Option.some.inj he).symm⟩
    · simp [hq] at he

theorem spot_of_names (hx : x.names = names ++ [n]) (hn : n ≠ dot ∧ n ≠ dotDot) :
    spot cwd x = spot cwd x.parent ++ [n] := by
  have hparent : x.parent.names = names := by simp [Path.parent, hx]
  have hstart : startOf cwd x.parent = startOf cwd x := rfl
  have hplain : Plain [n] := by simpa [Plain] using hn
  rw [spot, spot, hx, hparent, hstart, follow_append, follow_of_plain hplain]

end Grow

section Directories

theorem spot_eq_of_directoryAt? (hl : t.LinkFree) (h : t.directoryAt? cwd x = some q) : q = spot cwd x :=
  locate_eq_spot hl (directoryAt?_eq_some_iff.1 h).1

theorem ensureDirectories_of_directoryAt? (hl : t.LinkFree) (hdot : dot ∉ x.names)
    (h : t.directoryAt? cwd x = some q) : t.ensureDirectories cwd x = (t, none) := by
  obtain ⟨hlocate, hd⟩ := directoryAt?_eq_some_iff.1 h
  obtain ⟨hshort, hlookup⟩ := locate_eq_ok_iff.1 hlocate
  have hmake : t.makeDirectory cwd x = .error .alreadyThere := by
    unfold makeDirectory
    rcases List.eq_nil_or_concat' x.names with hx | ⟨names, n, hx⟩
    · simp [hx]
    · have hlast : x.names.getLast? = some n := by simp [hx]
      have hparent : x.parent.names = names := by simp [Path.parent, hx]
      rw [hx] at hlookup
      obtain ⟨above, habove, hn⟩ := (lookup_append_eq_ok_iff hl).1 hlookup
      have hlocate' : t.locate cwd x.parent = .ok above :=
        locate_eq_ok_iff.2 ⟨isLong_parent hshort, by rw [hparent]; exact habove⟩
      obtain ⟨hdir, ⟨hdd, -⟩ | ⟨hd, -⟩ | ⟨⟨-, hdd⟩, hlong, ⟨e, he⟩, -⟩⟩ := (lookup_cons_eq_ok_iff hl).1 hn
      · simp [hlast, hlocate', hdd, hdir]
      · exact absurd (by simp [hx, hd]) hdot
      · simp [hlast, hlocate', hdd, hdir, hlong, he]
  have hdirectory : t.isDirectory cwd x = true := by simp [isDirectory, h]
  unfold ensureDirectories
  simp [hmake, hdirectory]

theorem ensureDirectory_failsOnly (t : FileTree) (cwd : Place) (x : Path) :
    FailsOnly (fun f => f.isSystem = true) (t.ensureDirectory cwd x) := by
  unfold ensureDirectory
  split
  · exact .ok _
  · exact .ite (.ok _) (.error rfl)

theorem isSystem_of_ensureDirectories {f : Fault} (h : t.ensureDirectories cwd x = (t', some f)) : f.isSystem = true := by
  fun_induction ensureDirectories t cwd x generalizing t' f with
  | case1 x t₁ hm => simp at h
  | case2 x hm hn => exact (Option.some.inj (Prod.mk.inj h).2) ▸ rfl
  | case3 x hm hn t₁ f' he ih =>
    obtain rfl := Option.some.inj (Prod.mk.inj h).2
    exact ih he
  | case4 x hm hn t₁ he t₂ hs ih => simp at h
  | case5 x hm hn t₁ e he hs ih =>
    obtain rfl := Option.some.inj (Prod.mk.inj h).2
    exact ensureDirectory_failsOnly t₁ cwd x e he
  | case6 x e hm hd => simp at h
  | case7 x e hm hd => exact (Option.some.inj (Prod.mk.inj h).2) ▸ rfl

end Directories

section Files

/-- A path that can be the target of a write: a proper name at its end, and not the place that
swallows everything. -/
structure IsTarget (x : Path) : Prop where
  device : x ≠ nullDevice
  undotted : dot ∉ x.names
  named : ∃ names n, x.names = names ++ [n] ∧ n ≠ dotDot

/-- A file that stands where it is written to. -/
structure Written (t : FileTree) (cwd : Place) (x : Path) (b : Bytes) : Prop where
  characters : x.names.any (·.contains '\x00') = false
  short : ∀ n, x.names.getLast? = some n →
    ¬ (isLong nameLimit (besideName n) = true ∨ isLong pathLimit (besideName x.text) = true)
  parent : t.directoryAt? cwd x.parent = some (spot cwd x.parent)
  entry : t.entryAt? (spot cwd x) = some (.file b)

theorem Written.grows (h : Written t cwd x b) (hl : t.LinkFree) (hl' : t'.LinkFree) (hg : Grows touched t t')
    (hw : ¬ touched (spot cwd x)) : Written t' cwd x b where
  characters := h.characters
  short := h.short
  parent := hg.directoryAt? hl hl' h.parent
  entry := (hg.file_iff hl hw).2 h.entry

/-- All that a write needs to put its file under a name into a directory. -/
structure Puts (t : FileTree) (cwd : Place) (x : Path) (t₁ : FileTree) (above : Place) (n : Text) : Prop where
  device : x ≠ nullDevice
  names : x.names = x.parent.names ++ [n]
  characters : x.names.any (·.contains '\x00') = false
  parents : t.ensureDirectories cwd x.parent = (t₁, none)
  free : t₁.isDirectory cwd x = false
  short : ¬ (isLong nameLimit (besideName n) = true ∨ isLong pathLimit (besideName x.text) = true)
  located : t₁.locate cwd x.parent = .ok above

/-- A write goes nowhere, or fails when some directories have been made, or puts its file into a
directory. -/
theorem write_cases (t : FileTree) (cwd : Place) (x : Path) (b : Bytes) :
    (x = nullDevice ∧ t.write cwd x b = (t, none)) ∨
    (∃ t' f, t.write cwd x b = (t', some f) ∧ Extends t t') ∨
    ∃ t₁ above n, Puts t cwd x t₁ above n ∧ t.write cwd x b = (t₁.put (above ++ [n]) (.file b), none) := by
  have hextends := extends_of_ensureDirectories t cwd x.parent
  unfold write
  split
  · rename_i hdevice
    exact .inl ⟨hdevice, rfl⟩
  · rename_i hdevice
    split
    · exact .inr (.inl ⟨t, _, rfl, .refl t⟩)
    · rename_i n hn
      obtain ⟨names, hnames⟩ := List.getLast?_eq_some_iff.1 hn
      split
      · exact .inr (.inl ⟨t, _, rfl, .refl t⟩)
      · rename_i hcharacters
        obtain ⟨t₁, failure, hensure⟩ : ∃ t₁ failure, t.ensureDirectories cwd x.parent = (t₁, failure) := ⟨_, _, rfl⟩
        simp only [hensure] at hextends ⊢
        cases failure with
        | some f => exact .inr (.inl ⟨t₁, f, rfl, hextends⟩)
        | none =>
          dsimp only
          split
          · exact .inr (.inl ⟨t₁, _, rfl, hextends⟩)
          · rename_i hfree
            split
            · exact .inr (.inl ⟨t₁, _, rfl, hextends⟩)
            · rename_i hshort
              split
              · rename_i above hlocated
                have hparent : x.names = x.parent.names ++ [n] := by simp [Path.parent, hnames]
                exact .inr (.inr ⟨t₁, above, n,
                  ⟨hdevice, hparent, by simpa using hcharacters, hensure, by simpa using hfree, hshort, hlocated⟩, rfl⟩)
              · exact .inr (.inl ⟨t₁, _, rfl, hextends⟩)

namespace Puts

theorem short_name (h : Puts t cwd x t₁ above n) : isLong nameLimit n = false :=
  isLong_of_besideName fun hl => h.short (.inl hl)

theorem short_path (h : Puts t cwd x t₁ above n) : isLong pathLimit x.text = false :=
  isLong_of_besideName fun hl => h.short (.inr hl)

theorem extended (h : Puts t cwd x t₁ above n) : Extends t t₁ := by
  have hextends := extends_of_ensureDirectories t cwd x.parent
  rwa [h.parents] at hextends

theorem directory (h : Puts t cwd x t₁ above n) : t₁.entryAt? above = some .directory :=
  directory_of_ensureDirectories h.parents h.located

theorem exists_leads (h : Puts t cwd x t₁ above n) :
    ∃ left, Leads t₁ linkLimit (startOf cwd x) x.parent.names left above :=
  leads_iff.1 (locate_eq_ok_iff.1 h.located).2

theorem exists_lookup (h : Puts t cwd x t₁ above n) :
    ∃ left, t₁.locate cwd x = t₁.lookup true left above [n] := by
  obtain ⟨left, hleads⟩ := h.exists_leads
  refine ⟨left, ?_⟩
  rw [locate, if_neg (by simp [h.short_path]), h.names]
  exact hleads.lookup_append [n]

theorem not_directory_of_locate (h : Puts t cwd x t₁ above n) (hq : t₁.locate cwd x = .ok q) :
    t₁.entryAt? q ≠ some .directory := by
  intro hd
  have hsome : t₁.directoryAt? cwd x = some q := directoryAt?_eq_some_iff.2 ⟨hq, hd⟩
  have hfree := h.free
  simp [isDirectory, hsome] at hfree

theorem proper (h : Puts t cwd x t₁ above n) (ht : t.WellFormed) : n ≠ dot ∧ n ≠ dotDot := by
  obtain ⟨left, hlookup⟩ := h.exists_lookup
  constructor
  · rintro rfl
    rw [lookup_stay h.directory, lookup_nil] at hlookup
    exact h.not_directory_of_locate hlookup h.directory
  · rintro rfl
    rw [lookup_up h.directory, lookup_nil] at hlookup
    exact h.not_directory_of_locate hlookup (directory_dropLast (h.extended.wellFormed ht) h.directory)

theorem not_directory (h : Puts t cwd x t₁ above n) (ht : t.WellFormed) :
    t₁.entryAt? (above ++ [n]) ≠ some .directory := by
  intro hd
  obtain ⟨left, hlookup⟩ := h.exists_lookup
  rw [lookup_down h.directory (h.proper ht) h.short_name hd rfl, lookup_nil] at hlookup
  exact h.not_directory_of_locate hlookup hd

/-- The file is read back by its path, unless too many links were met on it. -/
theorem read (h : Puts t cwd x t₁ above n) (ht : t.WellFormed) (b : Bytes) :
    (t₁.put (above ++ [n]) (.file b)).read cwd x = .ok b ∨ t₁.locate cwd x = .error .tooManyLinks := by
  obtain ⟨left, hleads⟩ := h.exists_leads
  have hne : above ++ [n] ≠ [] := by simp
  have hentry : (t₁.put (above ++ [n]) (.file b)).entryAt? (above ++ [n]) = some (.file b) := by
    rw [entryAt?_put hne, if_pos rfl]
  have habove : (t₁.put (above ++ [n]) (.file b)).entryAt? above = some .directory := by
    rw [entryAt?_put hne, if_neg (by simp), h.directory]
  rcases hleads.put_file (e := .file b) h.directory (h.not_directory ht) with hway | hlink
  · left
    have hlocate : (t₁.put (above ++ [n]) (.file b)).locate cwd x = .ok (above ++ [n]) := by
      rw [locate_eq_ok_iff, h.names, hway.lookup_append, lookup_down habove (h.proper ht) h.short_name hentry rfl, lookup_nil]
      exact ⟨h.short_path, rfl⟩
    simp [FileTree.read, find, hlocate, hentry]
  · right
    -- The link would make the path lead to a directory, if it could be followed once more.
    obtain ⟨target, links, left', q, htarget, hto, hq⟩ := hlink
    obtain ⟨left, hlookup⟩ := h.exists_lookup
    rw [hlookup, lookup_link h.directory (h.proper ht) h.short_name htarget]
    cases left with
    | zero => rfl
    | succ j =>
      rw [lookup_link h.directory (h.proper ht) h.short_name htarget] at hlookup
      simp only [List.append_nil] at hlookup ⊢
      rcases hto.budget j with hok | hmany
      · exact absurd hq (h.not_directory_of_locate (hlookup.trans hok))
      · exact hmany

theorem above_eq_spot (h : Puts t cwd x t₁ above n) (ht : t.Regular) : above = spot cwd x.parent :=
  locate_eq_spot (h.extended.regular ht).linkFree h.located

theorem spot_eq (h : Puts t cwd x t₁ above n) (ht : t.Regular) : above ++ [n] = spot cwd x := by
  rw [spot_of_names h.names (h.proper ht.wellFormed), h.above_eq_spot ht]

theorem regular (h : Puts t cwd x t₁ above n) (ht : t.Regular) (b : Bytes) :
    (t₁.put (above ++ [n]) (.file b)).Regular where
  wellFormed := wellFormed_put (h.extended.wellFormed ht.wellFormed) (by simp) (by simpa using h.directory)
    fun hd => absurd hd (h.not_directory ht.wellFormed)
  linkFree := linkFree_put (h.extended.linkFree ht.linkFree) _ rfl

theorem grows_put (h : Puts t cwd x t₁ above n) (ht : t.Regular) (b : Bytes) :
    Grows (· = spot cwd x) t₁ (t₁.put (above ++ [n]) (.file b)) :=
  .put_file (by simp) (h.spot_eq ht) (h.not_directory ht.wellFormed)

theorem written (h : Puts t cwd x t₁ above n) (ht : t.Regular) (b : Bytes) :
    Written (t₁.put (above ++ [n]) (.file b)) cwd x b where
  characters := h.characters
  short n' hn' := by
    obtain rfl : n = n' := by simpa [h.names] using hn'
    exact h.short
  parent := by
    have hparent : t₁.directoryAt? cwd x.parent = some above := directoryAt?_eq_some_iff.2 ⟨h.located, h.directory⟩
    have hstays := (h.grows_put ht b).directoryAt? (h.extended.regular ht).linkFree (h.regular ht b).linkFree hparent
    rw [hstays, h.above_eq_spot ht]
  entry := by rw [← h.spot_eq ht, entryAt?_put (by simp), if_pos rfl]

end Puts

/-- Whether a write fails or not, the tree stays regular and nothing changes but its target and
missing directories. -/
theorem write_frame (ht : t.Regular) (cwd : Place) (x : Path) (b : Bytes) :
    (t.write cwd x b).1.Regular ∧ Grows (· = spot cwd x) t (t.write cwd x b).1 := by
  rcases write_cases t cwd x b with ⟨-, hw⟩ | ⟨t', f, hw, hextends⟩ | ⟨t₁, above, n, hputs, hw⟩
  · rw [hw]
    exact ⟨ht, .refl _ t⟩
  · rw [hw]
    exact ⟨hextends.regular ht, hextends.grows _⟩
  · rw [hw]
    exact ⟨hputs.regular ht b, (hputs.extended.grows _).trans (hputs.grows_put ht b)⟩

theorem written_of_write (ht : t.Regular) (hx : x ≠ nullDevice) (h : t.write cwd x b = (t', none)) :
    Written t' cwd x b := by
  rcases write_cases t cwd x b with ⟨hdevice, -⟩ | ⟨t₂, f, hw, -⟩ | ⟨t₁, above, n, hputs, hw⟩
  · exact absurd hdevice hx
  · simp [hw] at h
  · rw [hw] at h
    exact (Prod.mk.inj h).1 ▸ hputs.written ht b

/-- To write what is in place changes nothing. -/
theorem write_of_written (hl : t.LinkFree) (hx : IsTarget x) (h : Written t cwd x b) :
    t.write cwd x b = (t, none) := by
  obtain ⟨names, n, hnames, hdd⟩ := hx.named
  have hlast : x.names.getLast? = some n := by simp [hnames]
  have hd : n ≠ dot := fun hd => hx.undotted (by simp [hnames, hd])
  have hspot : spot cwd x = spot cwd x.parent ++ [n] := spot_of_names hnames ⟨hd, hdd⟩
  have hdot : dot ∉ x.parent.names := fun hd => hx.undotted ((List.dropLast_sublist _).mem hd)
  have hensure : t.ensureDirectories cwd x.parent = (t, none) := ensureDirectories_of_directoryAt? hl hdot h.parent
  have hfile : ¬ t.isDirectory cwd x = true := by
    intro hdir
    obtain ⟨q, hq⟩ := Option.isSome_iff_exists.1 hdir
    have he := (directoryAt?_eq_some_iff.1 hq).2
    rw [spot_eq_of_directoryAt? hl hq, h.entry] at he
    simp at he
  have hlocate : t.locate cwd x.parent = .ok (spot cwd x.parent) := (directoryAt?_eq_some_iff.1 h.parent).1
  have hput : t.put (spot cwd x.parent ++ [n]) (.file b) = t := by
    have hfind : Table.find? t.entries (spot cwd x.parent ++ [n]) = some (.file b) := by
      have hentry := hspot ▸ h.entry
      rwa [entryAt?, if_neg (by simp)] at hentry
    rw [put, Table.put_of_find? hfind]
  unfold write
  rw [if_neg hx.device]
  simp only [hlast, h.characters, hensure, if_neg hfile, if_neg (h.short n hlast), hlocate, hput]
  rfl

/-- Writes one after another, all of which succeed. -/
inductive Writes (cwd : Place) : FileTree → List (Path × Bytes) → FileTree → Prop
  | nil (t : FileTree) : Writes cwd t [] t
  | cons {t t₁ t₂ : FileTree} {x : Path} {b : Bytes} {ws : List (Path × Bytes)}
      (first : t.write cwd x b = (t₁, none)) (rest : Writes cwd t₁ ws t₂) : Writes cwd t ((x, b) :: ws) t₂

/-- The places that are written to. -/
def spots (cwd : Place) (ws : List (Path × Bytes)) : List Place := ws.map fun w => spot cwd w.1

/-- After writes to different places every file is where it was written. -/
theorem Writes.written {ws : List (Path × Bytes)} (h : Writes cwd t ws t') (ht : t.Regular)
    (hx : ∀ w ∈ ws, IsTarget w.1) (hn : (spots cwd ws).Nodup) :
    t'.Regular ∧ Grows (· ∈ spots cwd ws) t t' ∧ ∀ w ∈ ws, Written t' cwd w.1 w.2 := by
  induction h with
  | nil t => exact ⟨ht, .refl _ t, by simp⟩
  | @cons t t₁ t₂ x b ws first rest ih =>
    rw [List.forall_mem_cons] at hx
    obtain ⟨hfresh, hn⟩ := List.nodup_cons.1 hn
    have hwritten := written_of_write ht hx.1.device first
    obtain ⟨hregular₁, hgrows₁⟩ := write_frame ht cwd x b
    rw [first] at hregular₁ hgrows₁
    obtain ⟨hregular₂, hgrows₂, hrest⟩ := ih hregular₁ hx.2 hn
    refine ⟨hregular₂, ?_, List.forall_mem_cons.2 ⟨?_, hrest⟩⟩
    · have hfirst : Grows (· ∈ spots cwd ((x, b) :: ws)) t t₁ := hgrows₁.mono fun q hq => by simp [spots, hq]
      exact hfirst.trans (hgrows₂.mono fun q hq => List.mem_cons_of_mem _ hq)
    · exact hwritten.grows hregular₁.linkFree hregular₂.linkFree hgrows₂ hfresh

end Files

end StyleShield.FileTree
