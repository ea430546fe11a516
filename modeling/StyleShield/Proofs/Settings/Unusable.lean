import StyleShield.Proofs.Settings.Meaning
import StyleShield.Proofs.Settings.ProjectFile

/-! Why there are no settings. The search ends at the first site that counts or halts it
(`find_eq_some_iff_chosen`, `find_eq_error_iff_halts`). The file there is read with some more room than the
search had, and gives settings unless it is no document, has no table for the program, or gives a
key a value that does not fit (`load_eq_error_iff`, `load_eq_ok_iff`). -/
namespace StyleShield.Settings

variable {room : Nat} {t : FileTree} {start : Place} {s : Site} {p : Path} {b : Bytes} {f : Fault} {settings : Settings}
  {data : List (Text × Toml.Value)}

theorem ofTable_eq_error_iff : ofTable data = .error f ↔
    ∃ field k v, FirstMisfit (entries data) field k v ∧ f = .settings (complaint field k v) := by
  rcases ofTable_cases data with ⟨field, k, v, hm, herror⟩ | ⟨hfits, s, hok, -⟩
  · rw [herror, Except.error.injEq]
    constructor
    · rintro rfl
      exact ⟨field, k, v, hm, rfl⟩
    · rintro ⟨field', k', v', hm', rfl⟩
      obtain ⟨rfl, rfl, rfl⟩ := hm.unique hm'
      rfl
  · rw [hok]
    refine iff_of_false (by simp) ?_
    rintro ⟨field, k, v, hm, -⟩
    exact hfits field k v hm.toMisfit

theorem ofTable_eq_ok_iff : ofTable data = .ok settings ↔
    (∀ field k v, ¬ Misfit (entries data) field k v) ∧
      ∀ field, Gives (entries data) field (settings.value? field) := by
  rcases ofTable_cases data with ⟨field, k, v, hm, herror⟩ | ⟨hfits, s, hok, hgives⟩
  · rw [herror]
    exact iff_of_false (by simp) fun h => h.1 field k v hm.toMisfit
  · rw [hok, Except.ok.injEq]
    constructor
    · rintro rfl
      exact ⟨hfits, hgives⟩
    · rintro ⟨-, hgives'⟩
      exact eq_of_value? fun field => (hgives field).unique (hgives' field)

theorem verdict_ne_false_iff_counts : s.verdict room t ≠ .ok false ↔ Counts room t s ∨ ∃ f, Halts room t s f := by
  simp only [← verdict_eq_true_iff, ← verdict_eq_error_iff]
  rcases s.verdict room t with f | (_ | _) <;> simp

/-- The site at which the search ends. -/
abbrev IsEnd (room : Nat) (t : FileTree) (start : Place) : Site → Prop :=
  Site.IsFirst start fun s => Counts room t s ∨ ∃ f, Halts room t s f

/-- The site whose file is in force at a place. -/
structure Chosen (room : Nat) (t : FileTree) (start : Place) (s : Site) : Prop where
  first : IsEnd room t start s
  counts : Counts room t s

theorem find_eq_some_iff_chosen : find room t start = .ok (some p) ↔ ∃ s, Chosen room t start s ∧ p = s.path := by
  rw [find_eq_some_iff]
  refine exists_congr fun s => ?_
  rw [Site.IsFirst.congr fun s _ => verdict_ne_false_iff_counts, verdict_eq_true_iff]
  exact ⟨fun ⟨hfirst, hcounts, hp⟩ => ⟨⟨hfirst, hcounts⟩, hp⟩, fun ⟨⟨hfirst, hcounts⟩, hp⟩ => ⟨hfirst, hcounts, hp⟩⟩

theorem find_eq_error_iff_halts : find room t start = .error f ↔ ∃ s, IsEnd room t start s ∧ Halts room t s f := by
  rw [find_eq_error_iff]
  refine exists_congr fun s => ?_
  rw [Site.IsFirst.congr fun s _ => verdict_ne_false_iff_counts, verdict_eq_error_iff]

theorem find_eq_none_iff_passed : find room t start = .ok none ↔
    ∀ s : Site, s.Serves start → ¬ Counts room t s ∧ ∀ f, ¬ Halts room t s f := by
  simp only [find_eq_none_iff, verdict_eq_false_iff]

/-- The settings of a file: all that the document holds, or in a project file the program's own table. -/
inductive TableOf (room : Nat) : (name : Text) → Bytes → List (Text × Toml.Value) → Prop
  | plain {name : Text} {b : Bytes} {data : Table Text Toml.Value} (hn : name ≠ projectFile)
      (h : Toml.readBytes room b = .ok data) : TableOf room name b data
  | project {b : Bytes} {own : List (Text × Toml.Value)} (h : Own room b own) : TableOf room projectFile b own

/-- What is wrong with the file of a site that was chosen with a certain room. -/
inductive BadFile (room : Nat) (s : Site) (b : Bytes) : Fault → Prop
  | document {f : Fault} (h : Toml.readBytes (room + 1) b = .error f) : BadFile room s b f
  | noTable (hn : s.name = projectFile) (h : ∀ own, ¬ Own room b own) : BadFile room s b .notTable
  | value {data : List (Text × Toml.Value)} {field : Field} {k : Text} {v : Toml.Value}
      (table : TableOf (room + 1) s.name b data) (misfit : FirstMisfit (entries data) field k v) :
      BadFile room s b (.settings (complaint field k v))

/-- Why the settings that are in force at a place cannot be used. -/
inductive Unusable (room : Nat) (t : FileTree) (start : Place) : Fault → Prop
  | search {s : Site} {f : Fault} (first : IsEnd room t start s) (h : Halts room t s f) : Unusable room t start f
  | file {s : Site} {b : Bytes} {f : Fault} (chosen : Chosen room t start s) (hread : t.read [] s.path = .ok b)
      (h : BadFile room s b f) : Unusable room t start f

theorem ofFile_of_name {name : Text} (hn : name ≠ projectFile) :
    ofFile room name b = (Toml.readBytes room b).bind ofTable := by
  rw [ofFile]
  simp only [if_neg hn]
  rfl

theorem ofFile_of_error {name : Text} (h : Toml.readBytes room b = .error f) : ofFile room name b = .error f := by
  rw [ofFile, h]
  rfl

theorem TableOf.ofFile_eq {name : Text} (h : TableOf room name b data) : ofFile room name b = ofTable data := by
  cases h with
  | plain hn h =>
    rw [ofFile_of_name hn, h]
    rfl
  | project h => exact ofFile_of_own h

theorem tableOf_or_bad (room : Nat) (s : Site) (b : Bytes) :
    (∃ data, TableOf (room + 1) s.name b data) ∨ ∃ f, BadFile room s b f := by
  by_cases hn : s.name = projectFile
  · by_cases hown : ∃ own, Own room b own
    · obtain ⟨own, hown⟩ := hown
      exact .inl ⟨own, hn ▸ .project (hown.of_le (Nat.le_succ room))⟩
    · exact .inr ⟨_, .noTable hn (not_exists.1 hown)⟩
  · cases hdata : Toml.readBytes (room + 1) b with
    | ok data => exact .inl ⟨data, .plain hn hdata⟩
    | error f => exact .inr ⟨f, .document hdata⟩

section Chosen

variable (hcounts : Counts room t s) (hread : t.read [] s.path = .ok b)
include hcounts hread

theorem mentions_of_counts (hn : s.name = projectFile) : Mentions room b := by
  obtain ⟨b', hb', hm⟩ := hcounts.2 hn
  obtain rfl := Except.ok.inj (hread.symm.trans hb')
  exact hm

theorem BadFile.ofFile_eq (h : BadFile room s b f) : ofFile (room + 1) s.name b = .error f := by
  cases h with
  | document h => exact ofFile_of_error h
  -- A larger room brings no table to light where the document could be read before.
  | noTable hn h =>
    have hm := mentions_of_counts hcounts hread hn
    rw [hn]
    exact ofFile_of_not_own (hm.of_le (Nat.le_succ room)) (hm.not_own_of_le h (Nat.le_succ room))
  | value table misfit => exact table.ofFile_eq.trans (ofTable_eq_error_iff.2 ⟨_, _, _, misfit, rfl⟩)

theorem load_eq_error_iff : load (room + 1) t s.path = .error f ↔ BadFile room s b f := by
  rw [load_of_read hread]
  refine ⟨fun h => ?_, fun h => h.ofFile_eq hcounts hread⟩
  rcases tableOf_or_bad room s b with ⟨data, table⟩ | ⟨g, hbad⟩
  · rw [table.ofFile_eq] at h
    obtain ⟨field, k, v, hmisfit, rfl⟩ := ofTable_eq_error_iff.1 h
    exact .value table hmisfit
  · obtain rfl : g = f := Except.error.inj ((hbad.ofFile_eq hcounts hread).symm.trans h)
    exact hbad

theorem load_eq_ok_iff : load (room + 1) t s.path = .ok settings ↔ ∃ data, TableOf (room + 1) s.name b data ∧
    (∀ field k v, ¬ Misfit (entries data) field k v) ∧
      ∀ field, Gives (entries data) field (settings.value? field) := by
  rw [load_of_read hread]
  constructor
  · intro h
    rcases tableOf_or_bad room s b with ⟨data, table⟩ | ⟨f, hbad⟩
    · exact ⟨data, table, ofTable_eq_ok_iff.1 (table.ofFile_eq.symm.trans h)⟩
    · simp [hbad.ofFile_eq hcounts hread] at h
  · rintro ⟨data, table, h⟩
    exact table.ofFile_eq.trans (ofTable_eq_ok_iff.2 h)

end Chosen

theorem Halts.isFault (h : Halts room t s f) : IsFileFault f ∨ ∃ place, f = .system .nameTooLong place := by
  cases h with
  | longName h => exact .inr ⟨_, rfl⟩
  | @project b _ hn hread h =>
    cases h with
    | noText h => exact .inl .undecodable
    | longNumber h => exact .inl (isFileFault_of_readBytes (Toml.readBytes_failsOnly room b _ h))
    | tooDeep h => exact .inl .tooDeep
    | unsearchable h hv => exact .inl .notSearchable

theorem Unusable.isFault (h : Unusable room t start f) :
    IsFileFault f ∨ (∃ place, f = .system .nameTooLong place) ∨ ∃ c, f = .settings c := by
  cases h with
  | search first h => exact h.isFault.imp_right .inl
  | @file s b _ chosen hread h =>
    cases h with
    | document h => exact .inl (isFileFault_of_readBytes (Toml.readBytes_failsOnly (room + 1) b _ h))
    | noTable hn h => exact .inl .notTable
    | value table misfit => exact .inr (.inr ⟨_, rfl⟩)

end StyleShield.Settings
