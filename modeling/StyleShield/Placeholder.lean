import StyleShield.Text.Blank
import StyleShield.Text.DecimalDigit
import StyleShield.Text.Lexeme

/-! Placeholder rules such as `css-light0{display:block}`. A rule is written tight; a
compiler may put blanks between its words and a semicolon after the declaration, so
the recogniser keeps every gap. The digits may be of any script. -/
namespace StyleShield

structure Placeholder where
  digits : Text
  beforeBrace : Text
  afterBrace : Text
  beforeColon : Text
  afterColon : Text
  afterBlock : Text
  /-- The gap after a semicolon, if there is a semicolon. -/
  afterSemicolon : Option Text
  digits_ne_nil : digits ≠ []
  deriving DecidableEq

namespace Placeholder

def stem : Text := ['c', 's', 's', '-', 'l', 'i', 'g', 'h', 't']
def display : Text := ['d', 'i', 's', 'p', 'l', 'a', 'y']
def block : Text := ['b', 'l', 'o', 'c', 'k']

def semicolonText : Option Text → Text
  | none => []
  | some gap => ';' :: gap

def bodyText (p : Placeholder) : Text :=
  p.beforeBrace ++ '{' :: p.afterBrace ++ display ++ p.beforeColon ++ ':' :: p.afterColon ++ block ++
    p.afterBlock ++ semicolonText p.afterSemicolon ++ ['}']

def written (p : Placeholder) : Text := stem ++ p.digits ++ p.bodyText

/-- The rule that stands for the import of an index. -/
def tight (index : Int) : Text :=
  stem ++ Text.ofInt index ++ ['{'] ++ display ++ [':'] ++ block ++ ['}']

def index (p : Placeholder) : Nat := Text.readDecimal p.digits

def readGap (s : Text) : Text × Text := (s.takeWhile Text.isBlank, s.dropWhile Text.isBlank)

theorem readGap_append (s : Text) : (readGap s).1 ++ (readGap s).2 = s :=
  List.takeWhile_append_dropWhile

def readClose (s : Text) : Option (Option Text × Text) :=
  match s with
  | '}' :: r => some (none, r)
  | ';' :: r => match readGap r with
    | (gap, '}' :: r') => some (some gap, r')
    | _ => none
  | _ => none

theorem eq_of_readClose {s r : Text} {t : Option Text} (h : readClose s = some (t, r)) :
    s = semicolonText t ++ '}' :: r := by
  unfold readClose at h
  split at h
  · simp only [Option.some.injEq, Prod.mk.injEq] at h
    obtain ⟨rfl, rfl⟩ := h
    simp [semicolonText]
  · rename_i u
    split at h
    · rename_i gap r' hg
      have hu := readGap_append u
      simp only [Option.some.injEq, Prod.mk.injEq] at h
      obtain ⟨rfl, rfl⟩ := h
      rw [hg] at hu
      simp [semicolonText, ← hu]
    · simp at h
  · simp at h

def read (s : Text) : Option (Placeholder × Text) := do
  let s ← Text.after? stem s
  let digits := s.takeWhile Text.isDecimalDigit
  let (beforeBrace, s) := readGap (s.dropWhile Text.isDecimalDigit)
  let s ← Text.after? ['{'] s
  let (afterBrace, s) := readGap s
  let s ← Text.after? display s
  let (beforeColon, s) := readGap s
  let s ← Text.after? [':'] s
  let (afterColon, s) := readGap s
  let s ← Text.after? block s
  let (afterBlock, s) := readGap s
  let (afterSemicolon, s) ← readClose s
  if h : digits ≠ [] then
    some (⟨digits, beforeBrace, afterBrace, beforeColon, afterColon, afterBlock, afterSemicolon, h⟩, s)
  else none

theorem eq_of_read {s r : Text} {t : Placeholder} (h : read s = some (t, r)) : s = t.written ++ r := by
  simp only [read, Option.bind_eq_bind, Option.bind_eq_some_iff, Text.after?_eq_some_iff] at h
  obtain ⟨s₁, rfl, s₂, h₂, s₃, h₃, s₄, h₄, s₅, h₅, ⟨close, s₆⟩, h₆, h⟩ := h
  simp only [Option.dite_none_right_eq_some, Option.some.injEq, Prod.mk.injEq] at h
  obtain ⟨hn, rfl, rfl⟩ := h
  have d₁ := List.takeWhile_append_dropWhile (p := Text.isDecimalDigit) (l := s₁)
  have g₁ := readGap_append (s₁.dropWhile Text.isDecimalDigit)
  have g₂ := readGap_append s₂
  have g₃ := readGap_append s₃
  have g₄ := readGap_append s₄
  have g₅ := readGap_append s₅
  rw [h₂] at g₁
  rw [h₃] at g₂
  rw [h₄] at g₃
  rw [h₅] at g₄
  rw [eq_of_readClose h₆] at g₅
  simp only [written, bodyText, List.append_assoc, List.cons_append, List.nil_append] at *
  rw [g₅, g₄, g₃, g₂, g₁, d₁]

def lexeme : Lexeme Placeholder where
  written := written
  read := read
  written_ne_nil := by simp [written, stem]
  eq_of_read := eq_of_read

end Placeholder
end StyleShield
