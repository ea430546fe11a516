import StyleShield.Text.Blank
import StyleShield.Text.Lexeme

/-! Import statements. A statement is the word `@import`, a gap of blanks, a quoted path
without any quote inside, and an ending: blanks and a semicolon, or nothing when only
blanks stand before the end of the line. Each text starts with at most one statement. -/
namespace StyleShield

structure Statement where
  gap : Text
  quote : Char
  path : Text
  ending : Text
  deriving DecidableEq

namespace Statement

def keyword : Text := ['@', 'i', 'm', 'p', 'o', 'r', 't']

def written (s : Statement) : Text :=
  keyword ++ s.gap ++ s.quote :: s.path ++ s.quote :: s.ending

def isQuote (c : Char) : Bool := c == '\'' || c == '"'

/-- Whether the line ends here: at the end of the text or before a newline, which may follow
a carriage return. -/
def atLineEnd : Text → Bool
  | [] => true
  | '\n' :: _ => true
  | '\r' :: '\n' :: _ => true
  | _ => false

def readEnding (s : Text) : Option (Text × Text) :=
  let rest := s.dropWhile Text.isInlineBlank
  match rest with
  | ';' :: r => some (s.takeWhile Text.isInlineBlank ++ [';'], r)
  | _ => if atLineEnd rest then some ([], s) else none

theorem eq_of_readEnding {s e r : Text} (h : readEnding s = some (e, r)) : s = e ++ r := by
  simp only [readEnding] at h
  split at h
  · rename_i r' hd
    have hs := List.takeWhile_append_dropWhile (p := Text.isInlineBlank) (l := s)
    rw [hd] at hs
    simp only [Option.some.injEq, Prod.mk.injEq] at h
    rw [← h.1, ← h.2]
    simpa using hs.symm
  · split at h <;> simp_all

def readQuoted (gap : Text) : Text → Option (Statement × Text)
  | [] => none
  | q :: s =>
    if isQuote q then
      match s.dropWhile (fun c => !isQuote c) with
      | [] => none
      | q' :: r =>
        if q' = q then
          (readEnding r).map fun (e, r') => (⟨gap, q, s.takeWhile (fun c => !isQuote c), e⟩, r')
        else none
    else none

def read (s : Text) : Option (Statement × Text) :=
  match Text.after? keyword s with
  | none => none
  | some r => readQuoted (r.takeWhile Text.isBlank) (r.dropWhile Text.isBlank)

theorem eq_of_readQuoted {gap s r : Text} {t : Statement} (h : readQuoted gap s = some (t, r)) :
    t.gap = gap ∧ s = t.quote :: t.path ++ t.quote :: t.ending ++ r := by
  cases s with
  | nil => simp [readQuoted] at h
  | cons q s =>
    have hs := List.takeWhile_append_dropWhile (p := fun c => !isQuote c) (l := s)
    cases hd : s.dropWhile (fun c => !isQuote c) with
    | nil => simp [readQuoted, hd] at h
    | cons q' u =>
      simp only [readQuoted, hd, Option.ite_none_right_eq_some] at h
      obtain ⟨-, rfl, h⟩ := h
      obtain ⟨⟨e, r'⟩, he, hp⟩ := Option.map_eq_some_iff.1 h
      simp only [Prod.mk.injEq] at hp
      obtain ⟨rfl, rfl⟩ := hp
      rw [hd, eq_of_readEnding he] at hs
      exact ⟨rfl, by simpa using hs.symm⟩

theorem eq_of_read {s r : Text} {t : Statement} (h : read s = some (t, r)) : s = t.written ++ r := by
  cases hu : Text.after? keyword s with
  | none => simp [read, hu] at h
  | some u =>
    simp only [read, hu] at h
    obtain ⟨hg, hs⟩ := eq_of_readQuoted h
    have hd := List.takeWhile_append_dropWhile (p := Text.isBlank) (l := u)
    rw [Text.after?_eq_some_iff.1 hu, ← hd, hs, written, hg]
    simp

/-- Import statements as tokens of a stylesheet. -/
def lexeme : Lexeme Statement where
  written := written
  read := read
  written_ne_nil := by simp [written, keyword]
  eq_of_read := eq_of_read

end Statement
end StyleShield
