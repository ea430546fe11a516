import StyleShield.Text.Basic

/-! Bracketed sets of characters. The body between the brackets lists single characters
and ranges `a-b`; a hyphen that has no character on one side stands for itself. A
range must not run backwards. -/
namespace StyleShield.Glob

structure CharSet where
  negated : Bool
  body : Text
  deriving DecidableEq

namespace CharSet

def listed (c : Char) : Text → Bool
  | [] => false
  | a :: '-' :: b :: rest => (a ≤ c && c ≤ b) || listed c rest
  | a :: rest => a == c || listed c rest

def ordered : Text → Bool
  | [] => true
  | a :: '-' :: b :: rest => a ≤ b && ordered rest
  | _ :: rest => ordered rest

def has (s : CharSet) (c : Char) : Bool := listed c s.body != s.negated

def isOrdered (s : CharSet) : Bool := ordered s.body

/-- The set that follows an opening bracket, and the text after its closing one. The set
is negated by `!` or `^`; a closing bracket that comes first belongs to the body. -/
def read? (s : Text) : Option (CharSet × Text) :=
  let (negated, s) := match s with
    | '!' :: r => (true, r)
    | '^' :: r => (true, r)
    | _ => (false, s)
  let (first, s) := match s with
    | ']' :: r => ([']'], r)
    | _ => ([], s)
  match s.dropWhile (· ≠ ']') with
  | [] => none
  | _ :: rest => some (⟨negated, first ++ s.takeWhile (· ≠ ']')⟩, rest)

theorem length_dropWhile_le (p : Char → Bool) (s : Text) : (s.dropWhile p).length ≤ s.length :=
  (List.dropWhile_suffix p).length_le

theorem length_lt_of_read? {s r : Text} {set : CharSet} (h : read? s = some (set, r)) :
    r.length < s.length := by
  unfold read? at h
  split at h
  rename_i n s' hs'
  split at h
  rename_i f s'' hs''
  have h₁ : s'.length ≤ s.length := by
    split at hs' <;> simp_all
  have h₂ : s''.length ≤ s'.length := by
    split at hs'' <;> simp_all
  split at h
  · simp at h
  · rename_i hd
    have h₃ := length_dropWhile_le (· ≠ ']') s''
    rw [hd] at h₃
    simp only [List.length_cons, Option.some.injEq, Prod.mk.injEq] at h h₃
    obtain ⟨-, rfl⟩ := h
    omega

end CharSet
end StyleShield.Glob
