import StyleShield.Fault
import StyleShield.Glob.Pattern
import StyleShield.Text.Blank

/-! Patterns from their written form. A blank line or a comment stands for no pattern.
A pattern without an inner slash matches at any depth, one that ends in a slash
matches what lies below a directory. -/
namespace StyleShield.Glob

/-- The tokens of a segment; none if it ends in a lone backslash. -/
def tokens? : Text → Option (List Token)
  | [] => some []
  | '\\' :: s => match s with
    | [] => none
    | c :: r => (tokens? r).map (.exactly c :: ·)
  | '*' :: r => (tokens? r).map (.anyRun :: ·)
  | '?' :: r => (tokens? r).map (.anyOne :: ·)
  | '[' :: r => match _h : CharSet.read? r with
    | some (set, r') => (tokens? r').map (.oneOf set :: ·)
    | none => (tokens? r).map (.exactly '[' :: ·)
  | c :: r => (tokens? r).map (.exactly c :: ·)
termination_by s => s.length
decreasing_by
  all_goals simp only [List.length_cons]
  all_goals first | omega | skip
  have := CharSet.length_lt_of_read? _h
  omega

def globstar : Text := ['*', '*']

/-- Segments with the implied double stars put in: in front of a name that stands alone,
and for the empty segment after a final slash. -/
def completed (segments : List Text) : List Text :=
  let anchored := match segments with
    | [] :: rest => rest
    | [n] => if n = globstar then [n] else [globstar, n]
    | [n, []] => if n = globstar then [n, []] else [globstar, n, []]
    | ns => ns
  match anchored.getLast? with
  | some [] => anchored.dropLast ++ [globstar]
  | _ => anchored

def collapsed : List Text → List Text
  | a :: b :: rest => if a = globstar ∧ b = globstar then collapsed (b :: rest) else a :: collapsed (b :: rest)
  | ns => ns

/-- The parts of the segments from the second on; `needSlash` says that a slash comes before
the next segment. -/
def laterParts? : (needSlash : Bool) → List Text → Option (List Part)
  | _, [] => some []
  | needSlash, n :: rest =>
    let last := rest.isEmpty
    if n = globstar then
      if last then some [.slash] else (laterParts? true rest).map (.anyBetween :: ·)
    else
      let before := if needSlash then [.slash] else []
      let own? : Option (List Part) :=
        if n = ['*'] then some (.anySegment :: if last then [.close] else [])
        else (tokens? n).map fun ts => .segment ts :: if last then [.boundary] else []
      match own?, laterParts? true rest with
      | some own, some later => some (before ++ own ++ later)
      | _, _ => none

def parts? : List Text → Option (List Part)
  | n :: rest =>
    if n = globstar then (laterParts? false rest).map (.anyAbove :: ·) else laterParts? false (n :: rest)
  | [] => some []

/-- The shape of a pattern without its negation mark; none if it is empty or ends in a
lone backslash. -/
def shape? (body : Text) : Option Shape :=
  let segments := Text.splitOn '/' body
  let belowDirectory := segments.getLast? = some [] ∧ body ≠ ['/']
  match collapsed (completed segments) with
  | [] => none
  | ns =>
    if ns = [globstar] then some (if belowDirectory then .someSlash else .someChar)
    else if ns = [globstar, ['*']] then some .someChar
    else if ns = [globstar, ['*'], globstar] then some .someSlash
    else (parts? ns).map .parts

def Token.isOrdered : Token → Bool
  | oneOf set => set.isOrdered
  | _ => true

def Part.isOrdered : Part → Bool
  | segment ts => ts.all Token.isOrdered
  | _ => true

def Shape.isOrdered : Shape → Bool
  | parts ps => ps.all Part.isOrdered
  | _ => true

/-- Blanks at the end do not count, unless the last one is an escaped space. -/
def significant (line : Text) : Text :=
  if Text.endsWith ['\\', ' '] line then line else Text.trimEnd Text.isBlank line

def Pattern.ofLine? (line : Text) : Except Fault (Option Pattern) :=
  let resolve (negated : Bool) (body : Text) : Except Fault (Option Pattern) :=
    match shape? body with
    | none => .error (.invalidPattern line)
    | some shape => if shape.isOrdered then .ok (some ⟨negated, shape⟩) else .error .badCharacterRange
  match significant line with
  | [] => .ok none
  | '#' :: _ => .ok none
  | '!' :: body => resolve true body
  | body => resolve false body

def patternsOf : List Text → Except Fault (List Pattern)
  | [] => .ok []
  | line :: lines => do
    let p ← Pattern.ofLine? line
    let ps ← patternsOf lines
    return p.toList ++ ps

end StyleShield.Glob
