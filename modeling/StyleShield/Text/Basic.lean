/-! Text is a list of Unicode scalar values. Splitting at a character, joining and
trimming are the operations the rest of the library needs; each comes with the law
that says what it keeps. -/
namespace StyleShield

abbrev Text := List Char

namespace Text

/-- Texts are told apart character by character. -/
instance : LawfulBEq Text := inferInstance

/-- The parts between occurrences of `c`; there is always at least one. -/
def splitOn (c : Char) : Text → List Text
  | [] => [[]]
  | x :: xs =>
    if x = c then [] :: splitOn c xs
    else match splitOn c xs with
      | [] => [[x]]
      | p :: ps => (x :: p) :: ps

@[simp] theorem splitOn_nil (c : Char) : splitOn c [] = [[]] := rfl

theorem splitOn_ne_nil (c : Char) (s : Text) : splitOn c s ≠ [] := by
  cases s with
  | nil => simp
  | cons x xs =>
    rw [splitOn]
    split
    · simp
    · split <;> simp

def join (sep : Text) : List Text → Text
  | [] => []
  | [p] => p
  | p :: q :: ps => p ++ sep ++ join sep (q :: ps)

@[simp] theorem join_nil (sep : Text) : join sep [] = [] := rfl
@[simp] theorem join_singleton (sep p : Text) : join sep [p] = p := rfl
@[simp] theorem join_cons_cons (sep p q : Text) (ps : List Text) :
    join sep (p :: q :: ps) = p ++ sep ++ join sep (q :: ps) := rfl

theorem join_splitOn (c : Char) (s : Text) : join [c] (splitOn c s) = s := by
  induction s with
  | nil => rfl
  | cons x xs ih =>
    have hn := splitOn_ne_nil c xs
    rw [splitOn]
    split
    · next h =>
      cases hs : splitOn c xs with
      | nil => exact absurd hs hn
      | cons p ps => rw [hs] at ih; simp [ih, h]
    · split
      · next h => exact absurd h hn
      · next p ps h => rw [h] at ih; cases ps <;> simp_all

def trimStart (blank : Char → Bool) (s : Text) : Text := s.dropWhile blank

def trimEnd (blank : Char → Bool) (s : Text) : Text := (s.reverse.dropWhile blank).reverse

def trim (blank : Char → Bool) (s : Text) : Text := trimEnd blank (trimStart blank s)

@[simp] theorem trimStart_nil (blank : Char → Bool) : trimStart blank [] = [] := rfl
@[simp] theorem trimEnd_nil (blank : Char → Bool) : trimEnd blank [] = [] := rfl

theorem trimEnd_append (blank : Char → Bool) (s : Text) :
    ∃ t, s = trimEnd blank s ++ t ∧ ∀ c ∈ t, blank c = true := by
  refine ⟨(s.reverse.takeWhile blank).reverse, ?_, ?_⟩
  · rw [trimEnd, ← List.reverse_append, List.takeWhile_append_dropWhile, List.reverse_reverse]
  · intro c hc
    exact List.all_eq_true.1 List.all_takeWhile c (by simpa using hc)

def startsWith (opening s : Text) : Bool := opening.isPrefixOf s

def endsWith (closing s : Text) : Bool := closing.isSuffixOf s

def after? : (opening s : Text) → Option Text
  | [], s => some s
  | _ :: _, [] => none
  | p :: ps, c :: s => if p = c then after? ps s else none

@[simp] theorem after?_append (opening s : Text) : after? opening (opening ++ s) = some s := by
  induction opening <;> simp_all [after?]

theorem after?_eq_some_iff {opening s r : Text} : after? opening s = some r ↔ s = opening ++ r := by
  refine ⟨fun h => ?_, fun h => h ▸ after?_append opening r⟩
  induction opening generalizing s with
  | nil => simpa [after?] using h
  | cons p ps ih =>
    cases s with
    | nil => simp [after?] at h
    | cons c s =>
      by_cases hc : p = c
      · subst hc; simp only [after?, ite_true] at h; simp [ih h]
      · simp [after?, hc] at h

def ofNat (n : Nat) : Text := Nat.toDigits 10 n

def ofInt : Int → Text
  | .ofNat n => ofNat n
  | .negSucc n => '-' :: ofNat (n + 1)

end Text
end StyleShield
