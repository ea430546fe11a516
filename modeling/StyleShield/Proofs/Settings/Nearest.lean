import StyleShield.Proofs.FileTree.Resolve
import StyleShield.Proofs.Settings.ProjectFile

/-! The nearest settings file. Where all project files are ordinary texts, a site that does not get the search
stuck counts exactly if it is a candidate (`counts_iff_of_ordinary`), and it can only get stuck at too long a
name, at a whole number of too many digits and at values too deep inside one another
(`halts_iff_of_ordinary`). So the search ends at the first site that is a candidate or gets it stuck
(`find_nearest`). It sees neither other files nor what is in settings files with a name of their own. -/
namespace StyleShield.Settings

open FileTree (pathOf)

variable {room room' : Nat} {t t' : FileTree} {cwd start d : Place} {x p : Path} {s s' : Site} {b : Bytes} {n : Nat}
  {f : Fault} {v w : Toml.Value}

/-- What a document holds under the key for tools, if there is room enough to read it. -/
def Holds (b : Bytes) (v : Toml.Value) : Prop := ∃ room, Tool room b v

theorem Holds.unique (h : Holds b v) (h' : Holds b w) : v = w := by
  obtain ⟨room, hv⟩ := h
  obtain ⟨room', hw⟩ := h'
  rcases Nat.le_total room room' with hle | hle
  · exact (hv.of_le hle).unique hw
  · exact hv.unique (hw.of_le hle)

/-- In a room that is too small for none of its values the document holds what it holds. -/
theorem Holds.tool (h : Holds b v) (hroom : Toml.readBytes room b ≠ .error .tooDeep) : Tool room b v := by
  obtain ⟨room', hv⟩ := h
  rcases Nat.le_total room room' with hle | hle
  · obtain ⟨data, hdata, hv⟩ := hv
    exact ⟨data, (Toml.readBytes_of_le hle hroom).symm.trans hdata, hv⟩
  · exact hv.of_le hle

/-- A text with nothing but a table for tools. -/
structure Ordinary (b : Bytes) : Prop where
  text : ∃ s, Encoding.utf8Text? b = some s
  table : ∀ v, Holds b v → ∃ tools, v = .table tools

/-- The project files from a place up are ordinary. -/
def OrdinaryAbove (t : FileTree) (start : Place) : Prop :=
  ∀ d b, d <+: start → t.read [] (Site.path ⟨d, projectFile⟩) = .ok b → Ordinary b

/-- A file, and if it is a project file then one with tools among which is the program. -/
def IsCandidate (t : FileTree) (s : Site) : Prop :=
  t.isFile [] s.path = true ∧ (s.name = projectFile →
    ∃ b tools, t.read [] s.path = .ok b ∧ Holds b (.table tools) ∧ pluginName ∈ Table.keys tools)

/-- The faults of a site whose project file is ordinary: too long a name, a whole number of too many digits,
and values for which there is too little room. -/
inductive Stuck (room : Nat) (t : FileTree) (s : Site) : Fault → Prop
  | longName (h : t.locate [] s.path = .error .nameTooLong) : Stuck room t s (.system .nameTooLong s.path.text)
  | longNumber {b : Bytes} {n : Nat} (hn : s.name = projectFile) (hread : t.read [] s.path = .ok b)
    (hlong : Text.digitLimit < n) (h : Toml.readBytes room b = .error (.digitLimit n)) : Stuck room t s (.digitLimit n)
  | tooDeep {b : Bytes} (hn : s.name = projectFile) (hread : t.read [] s.path = .ok b)
    (h : Toml.readBytes room b = .error .tooDeep) : Stuck room t s .tooDeep

theorem mentions_iff_of_ordinary (hb : Ordinary b) (hroom : Toml.readBytes room b ≠ .error .tooDeep) :
    Mentions room b ↔ ∃ tools, Holds b (.table tools) ∧ pluginName ∈ Table.keys tools := by
  constructor
  · rintro ⟨v, hv, hnames⟩
    obtain ⟨tools, rfl⟩ := hb.table v ⟨room, hv⟩
    cases hnames with
    | entry hk => exact ⟨tools, ⟨room, hv⟩, hk⟩
  · rintro ⟨tools, htools, hk⟩
    exact ⟨_, htools.tool hroom, .entry hk⟩

theorem halts_iff_of_ordinary (hall : OrdinaryAbove t start) (hs : s.Serves start) :
    Halts room t s f ↔ Stuck room t s f := by
  constructor
  · intro h
    cases h with
    | longName h => exact .longName h
    | @project b _ hn hread h =>
      obtain ⟨d, name⟩ := s
      subst hn
      have hb := hall d b hs.above hread
      cases h with
      | noText h =>
        obtain ⟨text, htext⟩ := hb.text
        simp [h] at htext
      | longNumber h =>
        rcases Toml.readBytes_failsOnly room b _ h with h' | h'
        · simp at h'
        · cases h' with
          | digitLimit hlong => exact .longNumber rfl hread hlong h
      | tooDeep h => exact .tooDeep rfl hread h
      | unsearchable h hkind =>
        obtain ⟨tools, rfl⟩ := hb.table _ ⟨room, h⟩
        exact absurd (by simp [Toml.Value.kind]) hkind
  · intro h
    cases h with
    | longName h => exact .longName h
    | longNumber hn hread _ h => exact .project hn hread (.longNumber h)
    | tooDeep hn hread h => exact .project hn hread (.tooDeep h)

theorem counts_iff_of_ordinary (hall : OrdinaryAbove t start) (hs : s.Serves start)
    (hfree : ∀ f, ¬ Stuck room t s f) : Counts room t s ↔ IsCandidate t s := by
  refine and_congr_right fun _ => forall_congr' fun hn => exists_congr fun b => ?_
  obtain ⟨d, name⟩ := s
  subst hn
  constructor
  · rintro ⟨hread, hm⟩
    have hroom : Toml.readBytes room b ≠ .error .tooDeep := fun h => hfree _ (.tooDeep rfl hread h)
    obtain ⟨tools, h⟩ := (mentions_iff_of_ordinary (hall d b hs.above hread) hroom).1 hm
    exact ⟨tools, hread, h⟩
  · rintro ⟨tools, hread, h⟩
    have hroom : Toml.readBytes room b ≠ .error .tooDeep := fun h => hfree _ (.tooDeep rfl hread h)
    exact ⟨hread, (mentions_iff_of_ordinary (hall d b hs.above hread) hroom).2 ⟨tools, h⟩⟩

section Ordinary

variable (hall : OrdinaryAbove t start) (hs : s.Serves start)
include hall hs

theorem verdict_eq_error_iff_stuck : s.verdict room t = .error f ↔ Stuck room t s f :=
  verdict_eq_error_iff.trans (halts_iff_of_ordinary hall hs)

theorem verdict_eq_true_iff_candidate :
    s.verdict room t = .ok true ↔ IsCandidate t s ∧ ∀ f, ¬ Stuck room t s f := by
  constructor
  · intro h
    have hfree (f : Fault) : ¬ Stuck room t s f := fun hf => by
      simp [(verdict_eq_error_iff_stuck hall hs).2 hf] at h
    exact ⟨(counts_iff_of_ordinary hall hs hfree).1 (verdict_eq_true_iff.1 h), hfree⟩
  · rintro ⟨hc, hfree⟩
    exact verdict_eq_true_iff.2 ((counts_iff_of_ordinary hall hs hfree).2 hc)

theorem verdict_ne_false_iff : s.verdict room t ≠ .ok false ↔ IsCandidate t s ∨ ∃ f, Stuck room t s f := by
  by_cases hfree : ∀ f, ¬ Stuck room t s f
  · rw [← verdict_eq_true_iff_candidate hall hs |>.trans (and_iff_left hfree)]
    cases hv : s.verdict room t with
    | error f => exact absurd ((verdict_eq_error_iff_stuck hall hs).1 hv) (hfree f)
    | ok here => cases here <;> simp [hfree]
  · obtain ⟨f, hf⟩ := not_forall_not.1 hfree
    rw [(verdict_eq_error_iff_stuck hall hs).2 hf]
    exact iff_of_true (by simp) (.inr ⟨f, hf⟩)

end Ordinary

theorem find_eq_some_iff_candidate (hall : OrdinaryAbove t start) :
    find room t start = .ok (some p) ↔ ∃ s, Site.IsFirst start (IsCandidate t) s ∧ p = s.path ∧
      ∀ f s', Site.Serves s' start → Stuck room t s' f → s.Ahead s' := by
  rw [find_eq_some_iff]
  refine exists_congr fun s => ⟨?_, ?_⟩
  · rintro ⟨hs, htrue, rfl⟩
    obtain ⟨hcandidate, hfree⟩ := (verdict_eq_true_iff_candidate hall hs.serves).1 htrue
    have hahead (s' : Site) (hs' : s'.Serves start) (hstops : IsCandidate t s' ∨ ∃ f, Stuck room t s' f)
        (hne : s' ≠ s) : s.Ahead s' := hs.ahead s' hs' ((verdict_ne_false_iff hall hs').2 hstops) hne
    refine ⟨⟨hs.serves, hcandidate, fun s' hs' hc => hahead s' hs' (.inl hc)⟩, rfl, fun f s' hs' hf => ?_⟩
    refine hahead s' hs' (.inr ⟨f, hf⟩) ?_
    rintro rfl
    exact hfree f hf
  · rintro ⟨hs, rfl, hstuck⟩
    have hfree (f : Fault) : ¬ Stuck room t s f := fun hf =>
      (hstuck f s hs.serves hf).asymm (hstuck f s hs.serves hf)
    refine ⟨⟨hs.serves, ?_, fun s' hs' hstops hne => ?_⟩,
      (verdict_eq_true_iff_candidate hall hs.serves).2 ⟨hs.holds, hfree⟩, rfl⟩
    · exact (verdict_ne_false_iff hall hs.serves).2 (.inl hs.holds)
    · rcases (verdict_ne_false_iff hall hs').1 hstops with hc | ⟨f, hf⟩
      · exact hs.ahead s' hs' hc hne
      · exact hstuck f s' hs' hf

theorem find_eq_none_iff_candidate (hall : OrdinaryAbove t start) : find room t start = .ok none ↔
    ∀ s : Site, s.Serves start → ¬ IsCandidate t s ∧ ∀ f, ¬ Stuck room t s f := by
  rw [find_eq_none_iff]
  refine forall₂_congr fun s hs => ?_
  rw [← Classical.not_not (a := s.verdict room t = .ok false)]
  exact (not_congr (verdict_ne_false_iff hall hs)).trans (not_or.trans (and_congr_right fun _ => not_exists))

theorem find_eq_error_iff_stuck (hall : OrdinaryAbove t start) : find room t start = .error f ↔
    ∃ s, Stuck room t s f ∧ Site.IsFirst start (fun s => IsCandidate t s ∨ ∃ g, Stuck room t s g) s := by
  rw [find_eq_error_iff]
  refine exists_congr fun s => ?_
  rw [Site.IsFirst.congr fun s hs => verdict_ne_false_iff hall hs]
  constructor
  · rintro ⟨hs, hf⟩
    exact ⟨(verdict_eq_error_iff_stuck hall hs.serves).1 hf, hs⟩
  · rintro ⟨hf, hs⟩
    exact ⟨hs, (verdict_eq_error_iff_stuck hall hs.serves).2 hf⟩

/-- Two trees agree on the sites that serve a place: on the names that are too long, on the bytes of project
files, and on which of the other names are there. -/
structure AgreeAbove (t t' : FileTree) (start : Place) : Prop where
  long : ∀ s : Site, s.Serves start →
    (t'.locate [] s.path = .error .nameTooLong ↔ t.locate [] s.path = .error .nameTooLong)
  named : ∀ s : Site, s.Serves start → s.name ≠ projectFile → t'.isFile [] s.path = t.isFile [] s.path
  project : ∀ d b, d <+: start → (t'.read [] (Site.path ⟨d, projectFile⟩) = .ok b ↔
    t.read [] (Site.path ⟨d, projectFile⟩) = .ok b)

theorem AgreeAbove.find_eq (h : AgreeAbove t t' start) : find room t' start = find room t start := by
  refine find_congr fun s hs => ?_
  have hfile (hone : t'.isFile [] s.path = true ↔ t.isFile [] s.path = true)
      (hlong : t.locate [] s.path ≠ .error .nameTooLong) (hnot : t.isFile [] s.path = false) :
      s.verdict room t' = s.verdict room t := by
    rw [verdict_of_not_file hlong hnot, verdict_of_not_file (mt (h.long s hs).1 hlong)]
    rw [← Bool.not_eq_true, hone, hnot]
    simp
  obtain ⟨d, name⟩ := s
  rcases site_cases t ⟨d, name⟩ with hlong | ⟨hlong, hnot, hread⟩ | ⟨b, hread, hfile', -⟩
  · rw [verdict_of_longName hlong, verdict_of_longName ((h.long _ hs).2 hlong)]
  · refine hfile ?_ hlong hnot
    by_cases hn : name = projectFile
    · subst hn
      simp only [FileTree.isFile_iff_read, h.project d _ hs.above]
    · rw [h.named _ hs hn]
  · by_cases hn : name = projectFile
    · subst hn
      rw [verdict_of_file hread, verdict_of_file ((h.project d b hs.above).2 hread)]
    · obtain ⟨b', hread'⟩ := FileTree.isFile_iff_read.1 ((h.named _ hs hn).trans hfile')
      rw [verdict_of_file hread, verdict_of_file hread', if_neg hn, if_neg hn]

/-- The same files at the sites of a directory, with the same bytes if they are project files. -/
structure SameEntries (t t' : FileTree) (start : Place) : Prop where
  directory : t.entryAt? start = some .directory ∧ t'.entryAt? start = some .directory
  named : ∀ s : Site, s.Serves start → s.name ≠ projectFile →
    ((∃ b, t'.entryAt? (s.directory ++ [s.name]) = some (.file b)) ↔
      ∃ b, t.entryAt? (s.directory ++ [s.name]) = some (.file b))
  project : ∀ d b, d <+: start →
    (t'.entryAt? (d ++ [projectFile]) = some (.file b) ↔ t.entryAt? (d ++ [projectFile]) = some (.file b))

theorem SameEntries.agreeAbove (h : SameEntries t t' start) (ht : t.Regular) (ht' : t'.Regular)
    (hplain : FileTree.Plain start) : AgreeAbove t t' start := by
  have hpath {d : Place} {name : Text} (hd : d <+: start) (hname : name ∈ fileNames) :
      FileTree.Plain (d ++ [name]) := plain_of_mem_ancestors hplain (mem_ancestors_iff.2 hd) hname
  constructor
  · intro s hs
    have hp := hpath hs.above hs.named
    have hin := mem_ancestors_iff.2 hs.above
    show t'.locate [] (pathOf _) = _ ↔ t.locate [] (pathOf _) = _
    rw [FileTree.locate_eq_nameTooLong_iff ht' (directory_of_mem_ancestors ht'.wellFormed h.directory.2 hin) hp,
      FileTree.locate_eq_nameTooLong_iff ht (directory_of_mem_ancestors ht.wellFormed h.directory.1 hin) hp]
  · intro s hs hn
    have hp := hpath hs.above hs.named
    show t'.isFile [] (pathOf _) = t.isFile [] (pathOf _)
    rw [Bool.eq_iff_iff, FileTree.isFile_pathOf_iff ht'.wellFormed ht'.linkFree hp,
      FileTree.isFile_pathOf_iff ht.wellFormed ht.linkFree hp, h.named s hs hn]
  · intro d b hd
    have hnamed : projectFile ∈ fileNames := by simp [fileNames]
    have hp := hpath hd hnamed
    show t'.read [] (pathOf _) = _ ↔ t.read [] (pathOf _) = _
    rw [FileTree.read_pathOf_eq_ok_iff ht'.wellFormed ht'.linkFree hp,
      FileTree.read_pathOf_eq_ok_iff ht.wellFormed ht.linkFree hp, h.project d b hd]

theorem ordinary_of_error {s : Text} (h : ∀ room, ∃ f, Toml.readBytes room (Encoding.utf8Bytes s) = .error f) :
    Ordinary (Encoding.utf8Bytes s) where
  text := ⟨s, Encoding.utf8Text?_utf8Bytes s⟩
  table _ := by
    rintro ⟨room, hv⟩
    obtain ⟨f, hf⟩ := h room
    exact absurd hv (not_tool_of_error hf)

theorem ordinary_of_table {s : Text} {tools : List (Text × Toml.Value)}
    (h : Holds (Encoding.utf8Bytes s) (.table tools)) : Ordinary (Encoding.utf8Bytes s) where
  text := ⟨s, Encoding.utf8Text?_utf8Bytes s⟩
  table _ hv := ⟨tools, hv.unique h⟩

/-- A tree with a broken project file behind a link, one with settings in the directory above, and a file of a
preferred name at the root. -/
def nestedTree (b : Bytes) : FileTree :=
  ⟨[(["w".toList], .directory), (["w".toList, "a".toList], .directory),
    (["w".toList, "a".toList, projectFile], .file (Encoding.utf8Bytes "tool =".toList)),
    (["w".toList, projectFile], .file (Encoding.utf8Bytes "[tool]\nlightcss.ext = '.p'".toList)),
    ([".lightcss.toml".toList], .file b), (["l".toList], .link "w/a".toList)]⟩

theorem ordinaryAbove_nestedTree (b : Bytes) : OrdinaryAbove (nestedTree b) ["w".toList, "a".toList] := by
  have hfirst : (nestedTree b).read [] (Site.path ⟨["w".toList, "a".toList], projectFile⟩) =
      .ok (Encoding.utf8Bytes "tool =".toList) := by cbv
  have hsecond : (nestedTree b).read [] (Site.path ⟨["w".toList], projectFile⟩) =
      .ok (Encoding.utf8Bytes "[tool]\nlightcss.ext = '.p'".toList) := by cbv
  have hthird : (nestedTree b).isFile [] (Site.path ⟨[], projectFile⟩) = false := by cbv
  have hbroken (room : Nat) : Toml.readBytes room (Encoding.utf8Bytes "tool =".toList) = .error .malformedToml := by cbv
  have hdata : Toml.readBytes 0 (Encoding.utf8Bytes "[tool]\nlightcss.ext = '.p'".toList) =
      .ok [(toolKey, .table [(pluginName, .table [("ext".toList, .string ".p".toList)])])] := by cbv
  intro d c hd hread
  have hmem : d ∈ [["w".toList, "a".toList], ["w".toList], []] := mem_ancestors_iff.2 hd
  simp only [List.mem_cons, List.not_mem_nil, or_false] at hmem
  rcases hmem with rfl | rfl | rfl
  · obtain rfl := Except.ok.inj (hfirst.symm.trans hread)
    exact ordinary_of_error fun room => ⟨_, hbroken room⟩
  · obtain rfl := Except.ok.inj (hsecond.symm.trans hread)
    exact ordinary_of_table ⟨0, _, hdata, rfl⟩
  · simp [FileTree.isFile_iff_read.2 ⟨c, hread⟩] at hthird

theorem agreeAbove_nestedTree (b c : Bytes) : AgreeAbove (nestedTree b) (nestedTree c) ["w".toList, "a".toList] := by
  have hplaces {d : Place} (hd : d <+: ["w".toList, "a".toList]) : d ∈ [["w".toList, "a".toList], ["w".toList], []] :=
    mem_ancestors_iff.2 hd
  have hlong : ∀ d ∈ [["w".toList, "a".toList], ["w".toList], []], ∀ n ∈ fileNames,
      (nestedTree c).locate [] (Site.path ⟨d, n⟩) = (nestedTree b).locate [] (Site.path ⟨d, n⟩) := by
    simp only [fileNames, List.forall_mem_cons, List.not_mem_nil, false_implies, implies_true, and_true]
    cbv
  have hnamed : ∀ d ∈ [["w".toList, "a".toList], ["w".toList], []], ∀ n ∈ fileNames,
      (nestedTree c).isFile [] (Site.path ⟨d, n⟩) = (nestedTree b).isFile [] (Site.path ⟨d, n⟩) := by
    simp only [fileNames, List.forall_mem_cons, List.not_mem_nil, false_implies, implies_true, and_true]
    cbv
  have hproject : ∀ d ∈ [["w".toList, "a".toList], ["w".toList], []],
      (nestedTree c).read [] (Site.path ⟨d, projectFile⟩) = (nestedTree b).read [] (Site.path ⟨d, projectFile⟩) := by
    simp only [List.forall_mem_cons, List.not_mem_nil, false_implies, implies_true, and_true]
    cbv
  constructor
  · intro s hs
    show (nestedTree c).locate [] (Site.path ⟨s.directory, s.name⟩) = _ ↔ _
    rw [hlong s.directory (hplaces hs.above) s.name hs.named]
  · intro s hs hn
    exact hnamed s.directory (hplaces hs.above) s.name hs.named
  · intro d a hd
    rw [hproject d (hplaces hd)]

theorem ordinaryAbove_projectTree (hb : Ordinary b) : OrdinaryAbove (projectTree b) [] := by
  intro d c hd hc
  obtain rfl := List.prefix_nil.1 hd
  obtain rfl := Except.ok.inj ((read_projectTree b).symm.trans hc)
  exact hb

theorem not_candidate_projectTree (h : ∀ v, ¬ Holds b v) (hs : s.Serves []) : ¬ IsCandidate (projectTree b) s := by
  have hfirst : (projectTree b).isFile [] (Site.path ⟨[], ".lightcss.toml".toList⟩) = false := by cbv
  have hsecond : (projectTree b).isFile [] (Site.path ⟨[], "lightcss.toml".toList⟩) = false := by cbv
  rintro ⟨hfile, hc⟩
  rcases serves_nil_iff.1 hs with rfl | rfl | rfl
  · exact Bool.false_ne_true (hfirst.symm.trans hfile)
  · exact Bool.false_ne_true (hsecond.symm.trans hfile)
  · obtain ⟨c, tools, hc, htools, -⟩ := hc rfl
    obtain rfl := Except.ok.inj ((read_projectTree b).symm.trans hc)
    exact h _ htools

def linkTree (target : Text) : FileTree := ⟨[([".lightcss.toml".toList], .link target)]⟩

def longName : Text := List.replicate 256 'm'

set_option maxRecDepth 20000 in
theorem locate_longLink :
    (linkTree longName).locate [] (Site.path ⟨[], ".lightcss.toml".toList⟩) = .error .nameTooLong := by
  cbv

theorem not_file_longLink (hs : s.Serves []) : (linkTree longName).isFile [] s.path = false := by
  have hsecond (target : Text) : (linkTree target).isFile [] (Site.path ⟨[], "lightcss.toml".toList⟩) = false := by
    cbv
  have hthird (target : Text) : (linkTree target).isFile [] (Site.path ⟨[], projectFile⟩) = false := by cbv
  rcases serves_nil_iff.1 hs with rfl | rfl | rfl
  · rw [FileTree.isFile, FileTree.fileAt?, locate_longLink]
    rfl
  · exact hsecond longName
  · exact hthird longName

theorem find_longLink :
    find room (linkTree longName) [] = .error (.system .nameTooLong "/.lightcss.toml".toList) := by
  rw [find_eq_search, sites_nil, search, verdict_of_longName locate_longLink]
  rfl

end StyleShield.Settings
