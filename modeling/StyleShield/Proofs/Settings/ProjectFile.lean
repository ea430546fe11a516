import Mathlib
import StyleShield.Proofs.Settings.Search
import StyleShield.Proofs.Table
import StyleShield.Proofs.Toml.Pair
import StyleShield.Proofs.Toml.Room

/-! Project files in the search and when they are read. The search stops at bytes without text, at a number
that is too long, at values too deep inside one another and at tools in which nothing can be sought
(`hasSection_eq_error_iff`), and it takes any text, list or table of tools that names the program
(`hasSection_eq_true_iff`). Only from a table in a table can settings be read (`ofFile_of_own`); where the two
part, the reading fails (`ofFile_of_not_own`). Settings may be read with more room than there was in the
search: what the search takes is then read all the same. -/
namespace StyleShield.Settings

open FileTree (pathOf)

variable {room room' : Nat} {t : FileTree} {d start : Place} {s : Site} {p : Path} {b : Bytes} {f : Fault} {v w : Toml.Value}
  {own own' : List (Text × Toml.Value)}

/-- What a document holds under the key for tools. -/
def Tool (room : Nat) (b : Bytes) (v : Toml.Value) : Prop :=
  ∃ data, Toml.readBytes room b = .ok data ∧ Table.find? data toolKey = some v

theorem Tool.unique (h : Tool room b v) (h' : Tool room b w) : v = w := by
  obtain ⟨data, hdata, hv⟩ := h
  obtain ⟨data', hdata', hw⟩ := h'
  obtain rfl := Except.ok.inj (hdata.symm.trans hdata')
  exact Option.some.inj (hv.symm.trans hw)

theorem Tool.of_le (h : Tool room b v) (hle : room ≤ room') : Tool room' b v := by
  obtain ⟨data, hdata, hv⟩ := h
  exact ⟨data, (Toml.readBytes_of_le hle (by simp [hdata])).trans hdata, hv⟩

/-- The program's name is a part of a text, an item of a list or a key of a table. -/
inductive Names : Toml.Value → Prop
  | text {s : Text} (h : pluginName <:+: s) : Names (.string s)
  | item {items : List Toml.Value} (h : .string pluginName ∈ items) : Names (.array items)
  | entry {tools : List (Text × Toml.Value)} (h : pluginName ∈ Table.keys tools) : Names (.table tools)

/-- The program is named where the tools should stand. -/
def Mentions (room : Nat) (b : Bytes) : Prop := ∃ v, Tool room b v ∧ Names v

/-- The table of the program in the table of tools. -/
def Own (room : Nat) (b : Bytes) (own : List (Text × Toml.Value)) : Prop :=
  ∃ tools, Tool room b (.table tools) ∧ Table.find? tools pluginName = some (.table own)

/-- The faults that a project file gives to the search. -/
inductive Stops (room : Nat) (b : Bytes) : Fault → Prop
  | noText (h : Encoding.utf8Text? b = none) : Stops room b (.encoding .undecodable)
  | longNumber {n : Nat} (h : Toml.readBytes room b = .error (.digitLimit n)) : Stops room b (.digitLimit n)
  | tooDeep (h : Toml.readBytes room b = .error .tooDeep) : Stops room b .tooDeep
  | unsearchable {v : Toml.Value} (h : Tool room b v) (hv : v.kind ∉ [.string, .array, .table]) : Stops room b .notSearchable

theorem occursIn_iff {part s : Text} : occursIn part s = true ↔ part <:+: s := by
  induction s with
  | nil => simp [occursIn]
  | cons c s ih => rw [occursIn, Bool.or_eq_true, ih, List.isPrefixOf_iff_prefix, List.infix_cons_iff]

theorem string?_eq_some_iff {s : Text} : v.string? = some s ↔ v = .string s := by
  cases v <;> simp [Toml.Value.string?]

theorem mentions_eq_true_iff : mentions v = .ok true ↔ Names v := by
  constructor
  · intro h
    unfold mentions at h
    split at h
    · exact .text (occursIn_iff.1 (Except.ok.inj h))
    · simp only [Except.ok.injEq, List.any_eq_true, decide_eq_true_eq, string?_eq_some_iff] at h
      obtain ⟨v, hv, rfl⟩ := h
      exact .item hv
    · rename_i tools
      refine .entry (Classical.not_not.1 fun hn => ?_)
      simp [Table.find?_eq_none_iff.2 hn] at h
    · simp at h
  · intro h
    cases h with
    | text h => exact congrArg Except.ok (occursIn_iff.2 h)
    | item h =>
      refine congrArg Except.ok (List.any_eq_true.2 ⟨_, h, ?_⟩)
      simp [Toml.Value.string?]
    | entry h =>
      refine congrArg Except.ok (Option.isSome_iff_ne_none.2 fun hn => ?_)
      exact Table.find?_eq_none_iff.1 hn h

theorem mentions_eq_error_iff : mentions v = .error f ↔ v.kind ∉ [.string, .array, .table] ∧ f = .notSearchable := by
  cases v <;> simp [mentions, Toml.Value.kind, eq_comm]

theorem readBytes_eq_undecodable_iff :
    Toml.readBytes room b = .error (.encoding .undecodable) ↔ Encoding.utf8Text? b = none := by
  unfold Toml.readBytes
  split
  · rename_i hb
    simp [hb]
  · rename_i s hs
    simp only [hs, reduceCtorEq, iff_false]
    intro h
    cases Toml.sound_readDocument room _ _ h

theorem readBytes_cases (room : Nat) (b : Bytes) : (∃ data, Toml.readBytes room b = .ok data) ∨
    Toml.readBytes room b = .error .malformedToml ∨
    ∃ f, Toml.readBytes room b = .error f ∧ f ≠ .malformedToml ∧ Stops room b f := by
  cases hb : Toml.readBytes room b with
  | ok data => exact .inl ⟨data, rfl⟩
  | error f =>
    rcases Toml.readBytes_failsOnly room b f hb with rfl | hf
    · exact .inr (.inr ⟨_, rfl, by simp, .noText (readBytes_eq_undecodable_iff.1 hb)⟩)
    · cases hf with
      | malformed => exact .inr (.inl rfl)
      | digitLimit hn => exact .inr (.inr ⟨_, rfl, by simp, .longNumber hb⟩)
      | tooDeep => exact .inr (.inr ⟨_, rfl, by simp, .tooDeep hb⟩)

theorem not_tool_of_error (hb : Toml.readBytes room b = .error f) : ¬ Tool room b v := by
  rintro ⟨data, hdata, -⟩
  simp [hb] at hdata

theorem hasSection_of_tool (h : Tool room b v) : hasSection room b = mentions v := by
  obtain ⟨data, hdata, hv⟩ := h
  simp [hasSection, hdata, hv]

theorem hasSection_of_no_tool (h : ∀ v, ¬ Tool room b v) (hb : ∀ f, Toml.readBytes room b = .error f → f = .malformedToml) :
    hasSection room b = .ok false := by
  unfold hasSection
  split
  · rfl
  · rename_i e hne he
    exact absurd (hb e he) (by rintro rfl; exact hne rfl)
  · rename_i data hdata
    cases htool : Table.find? data toolKey with
    | none => rfl
    | some v => exact absurd ⟨data, hdata, htool⟩ (h v)

theorem hasSection_eq_error_iff : hasSection room b = .error f ↔ Stops room b f := by
  constructor
  · intro h
    rcases readBytes_cases room b with ⟨data, hdata⟩ | hb | ⟨g, hb, hne, hstops⟩
    · cases htool : Table.find? data toolKey with
      | none => simp [hasSection, hdata, htool] at h
      | some v =>
        have htool : Tool room b v := ⟨data, hdata, htool⟩
        rw [hasSection_of_tool htool] at h
        obtain ⟨hkind, rfl⟩ := mentions_eq_error_iff.1 h
        exact .unsearchable htool hkind
    · simp [hasSection, hb] at h
    · have hfault : hasSection room b = .error g := by simp [hasSection, hb]
      exact Except.error.inj (hfault.symm.trans h) ▸ hstops
  · intro h
    cases h with
    | noText h => simp [hasSection, readBytes_eq_undecodable_iff.2 h]
    | longNumber h => simp [hasSection, h]
    | tooDeep h => simp [hasSection, h]
    | unsearchable h hv =>
      rw [hasSection_of_tool h]
      exact mentions_eq_error_iff.2 ⟨hv, rfl⟩

theorem hasSection_eq_true_iff : hasSection room b = .ok true ↔ Mentions room b := by
  constructor
  · intro h
    by_contra hn
    have hno (v : Toml.Value) : ¬ Tool room b v := fun hv =>
      hn ⟨v, hv, mentions_eq_true_iff.1 (hasSection_of_tool hv ▸ h)⟩
    have hb (f : Fault) (hf : Toml.readBytes room b = .error f) : f = .malformedToml := by
      by_contra hne
      simp [hasSection, hf] at h
    simp [hasSection_of_no_tool hno hb] at h
  · rintro ⟨v, hv, hnames⟩
    rw [hasSection_of_tool hv]
    exact mentions_eq_true_iff.2 hnames

theorem hasSection_eq_false_iff : hasSection room b = .ok false ↔ (∀ f, ¬ Stops room b f) ∧ ¬ Mentions room b := by
  simp only [← hasSection_eq_error_iff, ← hasSection_eq_true_iff]
  rcases hasSection room b with f | (_ | _) <;> simp

/-- A name on the way to the site that is too long ends the search, and so does a project file at which it stops. -/
inductive Halts (room : Nat) (t : FileTree) (s : Site) : Fault → Prop
  | longName (h : t.locate [] s.path = .error .nameTooLong) : Halts room t s (.system .nameTooLong s.path.text)
  | project {b : Bytes} {f : Fault} (hn : s.name = projectFile) (hread : t.read [] s.path = .ok b)
    (h : Stops room b f) : Halts room t s f

/-- A file, and if it is a project file then one that names the program. -/
def Counts (room : Nat) (t : FileTree) (s : Site) : Prop :=
  t.isFile [] s.path = true ∧ (s.name = projectFile → ∃ b, t.read [] s.path = .ok b ∧ Mentions room b)

theorem verdict_of_longName (h : t.locate [] s.path = .error .nameTooLong) :
    s.verdict room t = .error (.system .nameTooLong s.path.text) := by
  have hask : t.ask [] (pathOf (s.directory ++ [s.name])) (t.isFile [] (pathOf (s.directory ++ [s.name]))) =
    .error (.system .nameTooLong s.path.text) := FileTree.ask_eq_error_iff.2 ⟨h, rfl⟩
  rw [Site.verdict, counts, hask]

theorem verdict_of_not_file (h : t.locate [] s.path ≠ .error .nameTooLong) (hfile : t.isFile [] s.path = false) :
    s.verdict room t = .ok false := by
  have hask : t.ask [] (pathOf (s.directory ++ [s.name])) (t.isFile [] (pathOf (s.directory ++ [s.name]))) =
    .ok false := FileTree.ask_eq_ok_iff.2 ⟨h, hfile⟩
  rw [Site.verdict, counts, hask]

theorem verdict_of_file (hread : t.read [] s.path = .ok b) :
    s.verdict room t = if s.name = projectFile then hasSection room b else .ok true := by
  have hfile : t.isFile [] s.path = true := FileTree.isFile_iff_read.2 ⟨b, hread⟩
  have hask : t.ask [] (pathOf (s.directory ++ [s.name])) (t.isFile [] (pathOf (s.directory ++ [s.name]))) =
    .ok true := (FileTree.ask_of_isFile hfile).trans (congrArg Except.ok hfile)
  have hbytes : t.read [] (pathOf (s.directory ++ [s.name])) = .ok b := hread
  rw [Site.verdict, counts, hask]
  simp only [hbytes]

theorem site_cases (t : FileTree) (s : Site) : t.locate [] s.path = .error .nameTooLong ∨
    (t.locate [] s.path ≠ .error .nameTooLong ∧ t.isFile [] s.path = false ∧ ∀ b, t.read [] s.path ≠ .ok b) ∨
    ∃ b, t.read [] s.path = .ok b ∧ t.isFile [] s.path = true ∧ t.locate [] s.path ≠ .error .nameTooLong := by
  by_cases hread : ∃ b, t.read [] s.path = .ok b
  · obtain ⟨b, hb⟩ := hread
    have hfile : t.isFile [] s.path = true := FileTree.isFile_iff_read.2 ⟨b, hb⟩
    have hask : t.ask [] s.path () = .ok () := FileTree.ask_of_isFile hfile
    exact .inr (.inr ⟨b, hb, hfile, (FileTree.ask_eq_ok_iff.1 hask).1⟩)
  · by_cases hlong : t.locate [] s.path = .error .nameTooLong
    · exact .inl hlong
    · have hfile : t.isFile [] s.path = false := by
        rw [← Bool.not_eq_true, FileTree.isFile_iff_read]
        exact hread
      exact .inr (.inl ⟨hlong, hfile, not_exists.1 hread⟩)

theorem verdict_eq_error_iff : s.verdict room t = .error f ↔ Halts room t s f := by
  constructor
  · intro h
    rcases site_cases t s with hlong | ⟨hlong, hfile, -⟩ | ⟨b, hread, -, -⟩
    · rw [verdict_of_longName hlong] at h
      exact Except.error.inj h ▸ .longName hlong
    · simp [verdict_of_not_file hlong hfile] at h
    · rw [verdict_of_file hread] at h
      by_cases hn : s.name = projectFile
      · rw [if_pos hn] at h
        exact .project hn hread (hasSection_eq_error_iff.1 h)
      · simp [hn] at h
  · intro h
    cases h with
    | longName h => exact verdict_of_longName h
    | project hn hread h => rw [verdict_of_file hread, if_pos hn, hasSection_eq_error_iff.2 h]

theorem verdict_eq_true_iff : s.verdict room t = .ok true ↔ Counts room t s := by
  rcases site_cases t s with hlong | ⟨hlong, hfile, hread⟩ | ⟨b, hread, hfile, -⟩
  · rw [verdict_of_longName hlong]
    refine iff_of_false (by simp) fun h => ?_
    have hask : t.ask [] s.path () = .ok () := FileTree.ask_of_isFile h.1
    exact (FileTree.ask_eq_ok_iff.1 hask).1 hlong
  · rw [verdict_of_not_file hlong hfile]
    simp [Counts, hfile]
  · rw [verdict_of_file hread]
    by_cases hn : s.name = projectFile
    · simp [Counts, hn, hfile, hread, hasSection_eq_true_iff]
    · simp [Counts, hn, hfile]

theorem verdict_eq_false_iff : s.verdict room t = .ok false ↔ ¬ Counts room t s ∧ ∀ f, ¬ Halts room t s f := by
  simp only [← verdict_eq_error_iff, ← verdict_eq_true_iff]
  rcases s.verdict room t with f | (_ | _) <;> simp

theorem Own.mentions (h : Own room b own) : Mentions room b := by
  obtain ⟨tools, htools, hown⟩ := h
  exact ⟨_, htools, .entry (Table.mem_keys_of_mem (Table.mem_of_find? hown))⟩

theorem Mentions.of_le (h : Mentions room b) (hle : room ≤ room') : Mentions room' b := by
  obtain ⟨v, hv, hnames⟩ := h
  exact ⟨v, hv.of_le hle, hnames⟩

theorem Own.unique (h : Own room b own) (h' : Own room b own') : own = own' := by
  obtain ⟨tools, htools, hown⟩ := h
  obtain ⟨tools', htools', hown'⟩ := h'
  obtain rfl := Toml.Value.table.inj (htools.unique htools')
  exact Toml.Value.table.inj (Option.some.inj (hown.symm.trans hown'))

theorem Own.of_le (h : Own room b own) (hle : room ≤ room') : Own room' b own := by
  obtain ⟨tools, htools, hown⟩ := h
  exact ⟨tools, htools.of_le hle, hown⟩

/-- A document that could be read holds the same in a larger room. -/
theorem Mentions.not_own_of_le (h : Mentions room b) (hn : ∀ own, ¬ Own room b own) (hle : room ≤ room')
    (own : List (Text × Toml.Value)) : ¬ Own room' b own := by
  rintro ⟨tools, htools, hown⟩
  obtain ⟨v, hv, -⟩ := h
  obtain rfl := (hv.of_le hle).unique htools
  exact hn own ⟨tools, hv, hown⟩

theorem ofFile_of_document {data : List (Text × Toml.Value)} (h : Toml.readBytes room b = .ok data) :
    ofFile room projectFile b = (sectionAt toolKey data).bind fun tools => (sectionAt pluginName tools).bind ofTable := by
  rw [ofFile, h]
  show (if projectFile = projectFile then (sectionAt toolKey data).bind fun tools =>
    (sectionAt pluginName tools).bind ofTable else ofTable data) = _
  exact if_pos rfl

theorem ofFile_of_own (h : Own room b own) : ofFile room projectFile b = ofTable own := by
  obtain ⟨tools, ⟨data, hdata, htools⟩, hown⟩ := h
  have htool : sectionAt toolKey data = .ok tools := by simp [sectionAt, htools]
  have hsection : sectionAt pluginName tools = .ok own := by simp [sectionAt, hown]
  rw [ofFile_of_document hdata, htool]
  exact congrArg (Except.bind · ofTable) hsection

theorem ofFile_of_not_own (hm : Mentions room b) (h : ∀ own, ¬ Own room b own) : ofFile room projectFile b = .error .notTable := by
  obtain ⟨v, ⟨data, hdata, hv⟩, hnames⟩ := hm
  rw [ofFile_of_document hdata]
  cases hnames with
  | text hs =>
    have htool : sectionAt toolKey data = .error .notTable := by simp [sectionAt, hv]
    rw [htool]
    rfl
  | item hi =>
    have htool : sectionAt toolKey data = .error .notTable := by simp [sectionAt, hv]
    rw [htool]
    rfl
  | @entry tools hk =>
    have htool : sectionAt toolKey data = .ok tools := by simp [sectionAt, hv]
    have hsection : sectionAt pluginName tools = .error .notTable := by
      cases hown : Table.find? tools pluginName with
      | none => exact absurd hk (Table.find?_eq_none_iff.1 hown)
      | some own =>
        unfold sectionAt
        rw [hown]
        cases own with
        | table own => exact absurd ⟨tools, ⟨data, hdata, hv⟩, hown⟩ (h own)
        | _ => rfl
    rw [htool]
    exact congrArg (Except.bind · ofTable) hsection

theorem load_of_read (h : t.read [] s.path = .ok b) : load room t s.path = ofFile room s.name b := by
  have hname : s.path.name = s.name := by simp [Site.path, pathOf, Path.name]
  rw [load, h, hname]
  rfl

def projectTree (b : Bytes) : FileTree := ⟨[([projectFile], .file b)]⟩

theorem sites_nil : sites [] = [⟨[], ".lightcss.toml".toList⟩, ⟨[], "lightcss.toml".toList⟩, ⟨[], projectFile⟩] := rfl

theorem serves_nil_iff : s.Serves [] ↔
    s = ⟨[], ".lightcss.toml".toList⟩ ∨ s = ⟨[], "lightcss.toml".toList⟩ ∨ s = ⟨[], projectFile⟩ := by
  rw [← mem_sites_iff, sites_nil, List.mem_cons, List.mem_cons, List.mem_singleton]

theorem read_projectTree (b : Bytes) : (projectTree b).read [] (Site.path ⟨[], projectFile⟩) = .ok b := by
  cbv

theorem find_projectTree_of_stops (h : Stops room b f) : find room (projectTree b) [] = .error f := by
  have hfirst : Site.verdict room (projectTree b) ⟨[], ".lightcss.toml".toList⟩ = .ok false := by cbv
  have hsecond : Site.verdict room (projectTree b) ⟨[], "lightcss.toml".toList⟩ = .ok false := by cbv
  have hthird : Site.verdict room (projectTree b) ⟨[], projectFile⟩ = .error f :=
    verdict_eq_error_iff.2 (.project rfl (read_projectTree b) h)
  rw [find_eq_search, sites_nil]
  simp only [search, hfirst, hsecond, hthird]

end StyleShield.Settings
