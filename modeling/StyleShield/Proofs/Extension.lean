import StyleShield.Proofs.Statement
import StyleShield.Shield

/-! Extensions of paths. The extension that is looked for before a quote is the last one of the
path, so that rewriting a statement as a text rewrites its path and nothing else
(`replaceExtension_written`), and doing it again changes nothing. -/
namespace StyleShield.Statement

/-- A dot and some ASCII letters or digits. -/
def Dotted (ext : Text) : Prop :=
  ∃ w : Text, w ≠ [] ∧ w.all Char.isAlphanum = true ∧ ext = '.' :: w

theorem not_isAlphanum_of_isQuote {q : Char} (h : isQuote q = true) : q.isAlphanum = false := by
  rcases isQuote_iff.1 h with rfl | rfl <;> rfl

theorem Dotted.not_isQuote {e : Text} (h : Dotted e) : ∀ c ∈ e, isQuote c = false := by
  obtain ⟨w, -, hw, rfl⟩ := h
  intro c hc
  rcases List.mem_cons.1 hc with rfl | hc
  · rfl
  · by_contra hq
    have hn := not_isAlphanum_of_isQuote (by simpa using hq : isQuote c = true)
    simp [List.all_eq_true.1 hw c hc] at hn

def opening (s : Statement) : Text := keyword ++ s.gap ++ [s.quote]

theorem written_append (s : Statement) (t : Text) :
    s.written ++ t = s.opening ++ (s.path ++ s.quote :: (s.ending ++ t)) := by
  simp [written, opening]

theorem dot_notMem_of_isInlineBlank {g : Text} (hg : ∀ c ∈ g, Text.isInlineBlank c = true) : '.' ∉ g :=
  fun h => absurd (hg '.' h) (by decide)

theorem dot_notMem_opening {s : Statement} (h : s.WellFormed) : '.' ∉ s.opening := by
  have hg : '.' ∉ s.gap := fun hm => absurd (h.gap '.' hm) (by decide)
  have hq : '.' ≠ s.quote := fun he => absurd (he ▸ h.quote) (by decide)
  simp [opening, keyword, hg, hq]

theorem dot_notMem_ending {e r : Text} (h : Ends e r) : '.' ∉ e := by
  rcases h with ⟨g, hg, rfl⟩ | ⟨rfl, -⟩
  · simp [dot_notMem_of_isInlineBlank hg]
  · simp

/-- The path with its extension replaced, if it ends in one. -/
def renamed (ext : Text) : Text → Text
  | [] => []
  | c :: s => if c = '.' ∧ s ≠ [] ∧ s.all Char.isAlphanum = true then ext else c :: renamed ext s

/-- The statement with the extension of its path replaced. An empty extension means that
extensions stay. -/
def withExtension (ext : Text) (s : Statement) : Statement :=
  if ext = [] then s else { s with path := renamed ext s.path }

theorem renamed_append {e : Text} (he : Dotted e) (ext a : Text) : renamed ext (a ++ e) = a ++ ext := by
  obtain ⟨w, hn, hw, rfl⟩ := he
  induction a with
  | nil =>
    rw [List.nil_append, renamed, if_pos ⟨rfl, hn, hw⟩]
    rfl
  | cons c a ih =>
    have hd : ¬ (a ++ '.' :: w).all Char.isAlphanum = true := fun h =>
      absurd (List.all_eq_true.1 h '.' (by simp)) (by decide)
    rw [List.cons_append, renamed, if_neg fun h => hd h.2.2, ih]
    rfl

theorem renamed_cases (p : Text) :
    (∃ a e, Dotted e ∧ p = a ++ e) ∨ ∀ ext, renamed ext p = p := by
  induction p with
  | nil => exact .inr fun _ => rfl
  | cons c s ih =>
    by_cases h : c = '.' ∧ s ≠ [] ∧ s.all Char.isAlphanum = true
    · obtain ⟨rfl, hn, hs⟩ := h
      exact .inl ⟨[], _, ⟨s, hn, hs, rfl⟩, rfl⟩
    · rcases ih with ⟨a, e, he, rfl⟩ | hp
      · exact .inl ⟨c :: a, e, he, rfl⟩
      · right
        intro ext
        rw [renamed, if_neg h, hp]

theorem renamed_renamed {e : Text} (he : Dotted e) (ext p : Text) : renamed ext (renamed e p) = renamed ext p := by
  rcases renamed_cases p with ⟨a, e', he', rfl⟩ | hp
  · rw [renamed_append he', renamed_append he, renamed_append he']
  · rw [hp, hp]

theorem not_isQuote_of_mem_renamed {ext p : Text} (h : ∀ c ∈ ext, isQuote c = false)
    (hp : ∀ c ∈ p, isQuote c = false) : ∀ c ∈ renamed ext p, isQuote c = false := by
  rcases renamed_cases p with ⟨a, e, he, rfl⟩ | hr
  · rw [renamed_append he]
    intro c hc
    rcases List.mem_append.1 hc with hc | hc
    · exact hp c (by simp [hc])
    · exact h c hc
  · rwa [hr]

theorem isExtension_append_quote {p : Text} {q : Char} (hp : ∀ c ∈ p, isQuote c = false)
    (hq : isQuote q = true) (u : Text) :
    isExtension (p ++ q :: u) = true ↔ p ≠ [] ∧ p.all Char.isAlphanum = true := by
  have hqa := not_isAlphanum_of_isQuote hq
  by_cases ha : ∀ c ∈ p, c.isAlphanum = true
  · rw [isExtension, List.takeWhile_append_of_pos ha, List.dropWhile_append_of_pos ha]
    simpa [hqa, hq] using fun _ => ha
  · have hd : p.dropWhile Char.isAlphanum ≠ [] := fun hn => ha (List.dropWhile_eq_nil_iff.1 hn)
    obtain ⟨d, r, hdr⟩ := List.exists_cons_of_ne_nil hd
    have hmem : d ∈ p := (List.dropWhile_sublist Char.isAlphanum).subset (hdr ▸ List.mem_cons_self)
    have hdq : isQuote d = false := hp d hmem
    simp [isExtension, List.dropWhile_append, hdr, hdq, ha]

theorem replaceExtension_append {s : Text} (ext : Text) (h : '.' ∉ s) (t : Text) :
    replaceExtension ext (s ++ t) = s ++ replaceExtension ext t := by
  induction s with
  | nil => rfl
  | cons c s ih =>
    simp only [List.mem_cons, not_or] at h
    rw [List.cons_append, replaceExtension, if_neg fun hc => h.1 hc.1.symm, ih h.2]
    rfl

theorem replaceExtension_append_quote {p u : Text} {q : Char} (ext : Text)
    (hp : ∀ c ∈ p, isQuote c = false) (hq : isQuote q = true) (hu : '.' ∉ u) :
    replaceExtension ext (p ++ q :: u) = renamed ext p ++ q :: u := by
  induction p with
  | nil =>
    have hqu : '.' ∉ q :: u := by
      have hne : '.' ≠ q := fun he => absurd (he ▸ hq) (by decide)
      simp [hne, hu]
    have h := replaceExtension_append ext hqu []
    rwa [List.append_nil, replaceExtension, List.append_nil] at h
  | cons c p ih =>
    rw [List.forall_mem_cons] at hp
    by_cases h : c = '.' ∧ p ≠ [] ∧ p.all Char.isAlphanum = true
    · have hd := isExtension_append_quote hp.2 hq u
      have hqa := not_isAlphanum_of_isQuote hq
      rw [renamed, if_pos h, List.cons_append, replaceExtension, if_pos ⟨h.1, hd.2 h.2⟩,
        List.dropWhile_append_of_pos (List.all_eq_true.1 h.2.2)]
      simp [hqa]
    · have hd := isExtension_append_quote hp.2 hq u
      rw [renamed, if_neg h, List.cons_append, replaceExtension, if_neg fun hc => h ⟨hc.1, hd.1 hc.2⟩, ih hp.2]
      rfl

/-- The statement with the extension of its path replaced by any text, the empty one included. -/
def renamePath (ext : Text) (s : Statement) : Statement := { s with path := renamed ext s.path }

theorem replaceExtension_written_eq {s : Statement} {r : Text} (h : s.WellFormed) (he : Ends s.ending r)
    (ext : Text) : replaceExtension ext s.written = (s.renamePath ext).written := by
  have hw := written_append s []
  have hp := replaceExtension_append_quote ext h.path h.quote (dot_notMem_ending he)
  rw [List.append_nil, List.append_nil] at hw
  rw [hw, replaceExtension_append ext (dot_notMem_opening h), hp]
  simp [renamePath, written, opening]

theorem replaceExtension_written {s : Statement} {r : Text} (h : s.WellFormed) (he : Ends s.ending r)
    {ext : Text} (hext : ext ≠ []) : replaceExtension ext s.written = (s.withExtension ext).written := by
  rw [replaceExtension_written_eq h he, withExtension, if_neg hext]
  rfl

theorem WellFormed.renamePath {ext : Text} (hext : ∀ c ∈ ext, isQuote c = false) {s : Statement}
    (h : s.WellFormed) : (s.renamePath ext).WellFormed :=
  ⟨h.gap, h.quote, not_isQuote_of_mem_renamed hext h.path⟩

theorem renamePath_renamePath {e : Text} (he : Dotted e) (ext : Text) (s : Statement) :
    (s.renamePath e).renamePath ext = s.renamePath ext := by
  simp [renamePath, renamed_renamed he]

@[simp] theorem ending_withExtension (ext : Text) (s : Statement) :
    (s.withExtension ext).ending = s.ending := by
  by_cases h : ext = [] <;> simp [withExtension, h]

theorem WellFormed.withExtension {ext : Text} (hext : ext = [] ∨ Dotted ext) {s : Statement}
    (h : s.WellFormed) : (s.withExtension ext).WellFormed := by
  by_cases hn : ext = []
  · simpa [Statement.withExtension, hn] using h
  · have hd : Dotted ext := hext.resolve_left hn
    rw [Statement.withExtension, if_neg hn]
    exact h.renamePath hd.not_isQuote

theorem withExtension_withExtension {ext : Text} (hext : ext = [] ∨ Dotted ext) (s : Statement) :
    (s.withExtension ext).withExtension ext = s.withExtension ext := by
  by_cases hn : ext = []
  · simp [withExtension, hn]
  · have hd : Dotted ext := hext.resolve_left hn
    simp [withExtension, hn, renamed_renamed hd]

end StyleShield.Statement
