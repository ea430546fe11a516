import Mathlib.Data.List.TakeWhile
import StyleShield.Import
import StyleShield.Proofs.Text.Pieces

/-! The language of import statements. What a statement looks like is said of the statement
alone, except that one without a semicolon needs the end of a line behind it
(`read_eq_some_iff`). -/
namespace StyleShield.Statement

@[simp] theorem lexeme_written : lexeme.written = written := rfl
@[simp] theorem lexeme_read : lexeme.read = read := rfl

structure WellFormed (s : Statement) : Prop where
  gap : ∀ c ∈ s.gap, Text.isBlank c = true
  quote : isQuote s.quote = true
  path : ∀ c ∈ s.path, isQuote c = false

/-- Only blanks stand before the end of the line. -/
def AtLineEnd (rest : Text) : Prop :=
  ∃ g r, (∀ c ∈ g, Text.isInlineBlank c = true) ∧ rest = g ++ r ∧ atLineEnd r = true

/-- An ending is blanks and a semicolon, or nothing before the end of the line. -/
def Ends (ending rest : Text) : Prop :=
  (∃ g, (∀ c ∈ g, Text.isInlineBlank c = true) ∧ ending = g ++ [';']) ∨ (ending = [] ∧ AtLineEnd rest)

theorem not_isInlineBlank_of_atLineEnd {r : Text} (h : atLineEnd r = true) :
    r.takeWhile Text.isInlineBlank = [] ∧ ∀ u, r ≠ ';' :: u := by
  unfold atLineEnd at h
  split at h <;> simp_all [Text.isInlineBlank]

theorem readEnding_eq_some_iff {s e r : Text} :
    readEnding s = some (e, r) ↔ s = e ++ r ∧ Ends e r := by
  constructor
  · intro h
    refine ⟨eq_of_readEnding h, ?_⟩
    have hb : ∀ c ∈ s.takeWhile Text.isInlineBlank, Text.isInlineBlank c = true :=
      fun c hc => List.mem_takeWhile_imp hc
    simp only [readEnding] at h
    split at h
    · simp only [Option.some.injEq, Prod.mk.injEq] at h
      exact .inl ⟨_, hb, h.1.symm⟩
    · simp only [Option.ite_none_right_eq_some, Option.some.injEq, Prod.mk.injEq] at h
      obtain ⟨hl, rfl, rfl⟩ := h
      exact .inr ⟨rfl, _, _, hb, List.takeWhile_append_dropWhile.symm, hl⟩
  · rintro ⟨rfl, ⟨g, hg, rfl⟩ | ⟨rfl, g, u, hg, rfl, hu⟩⟩
    · have hs : Text.isInlineBlank ';' = false := rfl
      simp [readEnding, List.takeWhile_append_of_pos hg, List.dropWhile_append_of_pos hg, hs]
    · obtain ⟨ht, hn⟩ := not_isInlineBlank_of_atLineEnd hu
      have hd : u.dropWhile Text.isInlineBlank = u :=
        List.dropWhile_eq_self_iff.2 (List.takeWhile_eq_nil_iff.1 ht)
      simp [readEnding, List.dropWhile_append_of_pos hg, hd, hu]

theorem isQuote_iff {q : Char} : isQuote q = true ↔ q = '\'' ∨ q = '"' := by simp [isQuote]

theorem not_isBlank_of_isQuote {q : Char} (h : isQuote q = true) : Text.isBlank q = false := by
  rcases isQuote_iff.1 h with rfl | rfl <;> rfl

theorem read_opened {o : Statement} (ho : o.WellFormed) (he : o.ending = []) (u : Text) :
    read (o.written ++ u) = (readEnding u).map fun m => ({ o with ending := m.1 }, m.2) := by
  obtain ⟨gap, q, path, ending⟩ := o
  obtain rfl : ending = [] := he
  obtain ⟨hg, hq, hp⟩ := ho
  have hw : written ⟨gap, q, path, []⟩ ++ u = keyword ++ (gap ++ q :: (path ++ q :: u)) := by simp [written]
  have hb : Text.isBlank q = false := not_isBlank_of_isQuote hq
  have hn : ∀ c ∈ path, (!isQuote c) = true := fun c hc => by simp [hp c hc]
  simp only at hq
  rw [hw]
  simp only [read, Text.after?_append]
  rw [List.takeWhile_append_of_pos hg, List.dropWhile_append_of_pos hg]
  simp [readQuoted, hb, hq, List.takeWhile_append_of_pos hn, List.dropWhile_append_of_pos hn]

/-- A statement is read back where its ending may stand. -/
theorem read_written_append {s : Statement} (h : s.WellFormed) {r : Text} (he : Ends s.ending r) :
    read (s.written ++ r) = some (s, r) := by
  have ho : ({ s with ending := [] } : Statement).WellFormed := ⟨h.gap, h.quote, h.path⟩
  have hw : s.written ++ r = ({ s with ending := [] } : Statement).written ++ (s.ending ++ r) := by simp [written]
  rw [hw, read_opened ho rfl, readEnding_eq_some_iff.2 ⟨rfl, he⟩]
  rfl

theorem wellFormed_of_readQuoted {gap t r : Text} {s : Statement}
    (hg : ∀ c ∈ gap, Text.isBlank c = true) (h : readQuoted gap t = some (s, r)) :
    s.WellFormed ∧ Ends s.ending r := by
  cases t with
  | nil => simp [readQuoted] at h
  | cons q t =>
    cases hd : t.dropWhile (fun c => !isQuote c) with
    | nil => simp [readQuoted, hd] at h
    | cons q' u =>
      simp only [readQuoted, hd, Option.ite_none_right_eq_some] at h
      obtain ⟨hq, -, h⟩ := h
      obtain ⟨⟨e, r'⟩, he, hs⟩ := Option.map_eq_some_iff.1 h
      simp only [Prod.mk.injEq] at hs
      obtain ⟨rfl, rfl⟩ := hs
      have hp : ∀ c ∈ t.takeWhile (fun c => !isQuote c), isQuote c = false := fun c hc => by
        simpa using List.mem_takeWhile_imp hc
      exact ⟨⟨hg, hq, hp⟩, (readEnding_eq_some_iff.1 he).2⟩

theorem wellFormed_of_read {t r : Text} {s : Statement} (h : read t = some (s, r)) :
    s.WellFormed ∧ Ends s.ending r := by
  cases hu : Text.after? keyword t with
  | none => simp [read, hu] at h
  | some u =>
    simp only [read, hu] at h
    exact wellFormed_of_readQuoted (fun c hc => List.mem_takeWhile_imp hc) h

theorem read_eq_some_iff {t r : Text} {s : Statement} :
    read t = some (s, r) ↔ s.WellFormed ∧ Ends s.ending r ∧ t = s.written ++ r :=
  ⟨fun h => ⟨(wellFormed_of_read h).1, (wellFormed_of_read h).2, eq_of_read h⟩,
    fun ⟨hs, he, ht⟩ => ht ▸ read_written_append hs he⟩

end StyleShield.Statement
