import StyleShield.Text.Basic

/-! Regular expressions for lines. An expression leads from a spot in a line to the spots
where it can end; of the matches that start leftmost the longest one counts. Every
repetition moves on or stops, so the search ends. -/
namespace StyleShield.Shell

inductive CharTest where
  | any
  | exactly (c : Char)
  | oneOf (negated : Bool) (ranges : List (Char × Char))
  deriving DecidableEq

inductive Edge where
  | start | finish | either
  deriving DecidableEq

inductive Regex where
  | nothing
  | one (t : CharTest)
  | both (first second : Regex)
  | either (left right : Regex)
  | many (least : Nat) (most : Option Nat) (body : Regex)
  | group (number : Nat) (body : Regex)
  | again (number : Nat)
  | lineStart
  | lineEnd
  | wordEdge (e : Edge)
  deriving DecidableEq

/-- A place in a line: what is before it, last character first, what follows, and what the groups
matched on the way. -/
structure Spot where
  before : Text
  rest : Text
  groups : List (Nat × Text)

namespace CharTest

def inRanges (ranges : List (Char × Char)) (c : Char) : Bool := ranges.any fun (a, b) => a ≤ c && c ≤ b

/-- Whether a character passes; `fold` takes letters of both cases for one. -/
def fits (fold : Bool) (c : Char) : CharTest → Bool
  | any => true
  | exactly x => x == c || (fold && x.toLower == c.toLower)
  | oneOf negated ranges =>
    (inRanges ranges c || (fold && (inRanges ranges c.toLower || inRanges ranges c.toUpper))) != negated

end CharTest

namespace Spot

def start (line : Text) : Spot := ⟨[], line, []⟩

def step (s : Spot) : Spot :=
  match s.rest with
  | [] => s
  | c :: r => { s with before := c :: s.before, rest := r }

def since (s e : Spot) : Text := s.rest.take (s.rest.length - e.rest.length)

def group (s : Spot) (n : Nat) : Text := ((s.groups.find? fun g => g.1 = n).map Prod.snd).getD []

def distinct : List Spot → List Spot
  | [] => []
  | s :: ss => s :: (distinct ss).filter fun e => e.rest.length ≠ s.rest.length

def isWord (c : Char) : Bool := c.isAlphanum || c == '_'

def hasEdge (s : Spot) : Edge → Bool
  | .start => !inside s.before && inside s.rest
  | .finish => inside s.before && !inside s.rest
  | .either => inside s.before != inside s.rest
where
  inside (t : Text) : Bool := t.head?.any isWord

end Spot

namespace Regex

/-- The ends of a step taken between `least` and `most` times, the most taken first. A step that
stays where it is counts only as long as steps are owed. -/
def repeated (step : Spot → List Spot) : (fuel least : Nat) → (most : Option Nat) → Spot → List Spot
  | 0, least, _, s => if least = 0 then [s] else []
  | fuel + 1, least, most, s =>
    let next := if most = some 0 then [] else
      (step s).filter fun e => 0 < least || e.rest.length < s.rest.length
    let further := next.flatMap (repeated step fuel (least - 1) (most.map (· - 1)))
    if least = 0 then further ++ [s] else further

def ends (fold : Bool) : Regex → Spot → List Spot
  | nothing, s => [s]
  | one t, s => if s.rest.head?.any (t.fits fold) then [s.step] else []
  | both a b, s => Spot.distinct ((ends fold a s).flatMap (ends fold b))
  | either a b, s => Spot.distinct (ends fold a s ++ ends fold b s)
  | many least most a, s => repeated (ends fold a) (s.rest.length + least + 1) least most s
  | group n a, s => (ends fold a s).map fun e => { e with groups := (n, s.since e) :: e.groups }
  | again n, s => match Text.after? (s.group n) s.rest with
    | some r => [{ s with before := (s.group n).reverse ++ s.before, rest := r }]
    | none => []
  | lineStart, s => if s.before = [] then [s] else []
  | lineEnd, s => if s.rest = [] then [s] else []
  | wordEdge e, s => if s.hasEdge e then [s] else []

def longest : List Spot → Option Spot
  | [] => none
  | e :: es => match longest es with
    | some e' => if e'.rest.length < e.rest.length then some e' else some e
    | none => some e

/-- The first match at or after a spot: where it starts and where it ends. -/
def findFrom? (r : Regex) (fold : Bool) : (fuel : Nat) → Spot → Option (Spot × Spot)
  | 0, _ => none
  | fuel + 1, s => match longest (r.ends fold s) with
    | some e => some (s, e)
    | none => if s.rest = [] then none else findFrom? r fold fuel s.step

def find? (r : Regex) (fold : Bool) (s : Spot) : Option (Spot × Spot) :=
  findFrom? r fold (s.rest.length + 1) s

def occursIn (r : Regex) (fold : Bool) (line : Text) : Bool := (r.find? fold (Spot.start line)).isSome

def literal (s : Text) : Regex := s.foldr (fun c r => both (one (.exactly c)) r) nothing

/-- Which signs have a meaning: without a backslash, and whether a stray closing one is taken as
it stands. -/
structure Dialect where
  extended : Bool
  lenient : Bool

inductive Fault where
  | openGroup | strayClose | openBracket | badRepeat | openInterval | badInterval | badRange | badClass
  | trailingBackslash | badReference
  deriving DecidableEq

def Fault.message : Fault → String
  | openGroup => "Unmatched ( or \\("
  | strayClose => "Unmatched ) or \\)"
  | openBracket => "Unmatched [, [^, [:, [., or [="
  | badRepeat => "Invalid preceding regular expression"
  | openInterval => "Unmatched \\\x7b"
  | badInterval => "Invalid content of \\\x7b\\\x7d"
  | badRange => "Invalid range end"
  | badClass => "Invalid character class name"
  | trailingBackslash => "Trailing backslash"
  | badReference => "Invalid back reference"

def classes : List (String × List (Char × Char)) :=
  [("alpha", [('a', 'z'), ('A', 'Z')]), ("upper", [('A', 'Z')]), ("lower", [('a', 'z')]),
   ("digit", [('0', '9')]), ("alnum", [('a', 'z'), ('A', 'Z'), ('0', '9')]),
   ("space", [('\t', '\r'), (' ', ' ')]), ("blank", [('\t', '\t'), (' ', ' ')]),
   ("punct", [('!', '/'), (':', '@'), ('[', '\x60'), ('\x7b', '~')]),
   ("xdigit", [('0', '9'), ('a', 'f'), ('A', 'F')]), ("cntrl", [('\x00', '\x1f'), ('\x7f', '\x7f')]),
   ("print", [(' ', '~')]), ("graph", [('!', '~')])]

def class? (name : Text) : Option (List (Char × Char)) :=
  (classes.find? fun e => e.1.toList = name).map Prod.snd

def members : (fuel : Nat) → Text → Except Fault (List (Char × Char) × Text)
  | 0, _ => .error .openBracket
  | _, [] => .error .openBracket
  | _, ']' :: s => .ok ([], s)
  | fuel + 1, '[' :: ':' :: s => do
    let name := s.takeWhile (· ≠ ':')
    match s.dropWhile (· ≠ ':'), class? name with
    | ':' :: ']' :: s, some rs =>
      let (more, s) ← members fuel s
      return (rs ++ more, s)
    | ':' :: ']' :: _, none => .error .badClass
    | _, _ => .error .openBracket
  | fuel + 1, a :: '-' :: b :: s =>
    if b = ']' then do
      let (more, s) ← members fuel ('-' :: b :: s)
      return ((a, a) :: more, s)
    else if b < a then .error .badRange
    else do
      let (more, s) ← members fuel s
      return ((a, b) :: more, s)
  | fuel + 1, a :: s => do
    let (more, s) ← members fuel s
    return ((a, a) :: more, s)

/-- A bracketed set after its opening bracket; a closing bracket that comes first is a member. -/
def bracket (s : Text) : Except Fault (CharTest × Text) := do
  let (negated, s) := match s with
    | '^' :: r => (true, r)
    | _ => (false, s)
  let (first, s) := match s with
    | ']' :: '-' :: r => ([(']', ']')], '-' :: r)
    | ']' :: r => ([(']', ']')], r)
    | _ => ([], s)
  let (rs, s) ← members (s.length + 1) s
  return (.oneOf negated (first ++ rs), s)

def wordRanges : List (Char × Char) := [('a', 'z'), ('A', 'Z'), ('0', '9'), ('_', '_')]

def afterBar? (d : Dialect) : Text → Option Text
  | '|' :: s => if d.extended then some s else none
  | '\\' :: '|' :: s => if d.extended then none else some s
  | _ => none

def afterOpen? (d : Dialect) : Text → Option Text
  | '(' :: s => if d.extended then some s else none
  | '\\' :: '(' :: s => if d.extended then none else some s
  | _ => none

def afterClose? (d : Dialect) : Text → Option Text
  | ')' :: s => if d.extended then some s else none
  | '\\' :: ')' :: s => if d.extended then none else some s
  | _ => none

def readNumber (s : Text) : Option Nat × Text :=
  let ds := s.takeWhile Char.isDigit
  (if ds = [] then none else some (ds.foldl (fun n c => 10 * n + (c.toNat - 48)) 0), s.dropWhile Char.isDigit)

def interval (d : Dialect) (s : Text) : Except Fault (Nat × Option Nat × Text) :=
  let (least, s) := readNumber s
  let (most, s) := match s with
    | ',' :: s => readNumber s
    | _ => (least, s)
  let closed := if d.extended then Text.after? ['\x7d'] s else Text.after? ['\\', '\x7d'] s
  match closed with
  | some s => .ok (least.getD 0, most, s)
  | none => if s = [] then .error .openInterval else .error .badInterval

def bounds? (d : Dialect) (s : Text) : Except Fault (Option (Nat × Option Nat × Text)) :=
  match s with
  | '*' :: s => .ok (some (0, none, s))
  | '+' :: s => .ok (if d.extended then some (1, none, s) else none)
  | '?' :: s => .ok (if d.extended then some (0, some 1, s) else none)
  | '\\' :: '+' :: s => .ok (if d.extended then none else some (1, none, s))
  | '\\' :: '?' :: s => .ok (if d.extended then none else some (0, some 1, s))
  | '\x7b' :: s => if d.extended then
      match interval d s with
      | .ok b => .ok (some b)
      | .error e => if d.lenient then .ok none else .error e
    else .ok none
  | '\\' :: '\x7b' :: s => if d.extended then .ok none else (interval d s).map some
  | _ => .ok none

def repetitions (d : Dialect) : (fuel : Nat) → Regex → Text → Except Fault (Regex × Text)
  | 0, r, s => .ok (r, s)
  | fuel + 1, r, s => do
    match ← bounds? d s with
    | some (least, most, s) => repetitions d fuel (many least most r) s
    | none => return (r, s)

def atom (d : Dialect) (isFirst : Bool) (groups : Nat) (s : Text) : Except Fault (Regex × Text) :=
  match s with
  | [] => .ok (nothing, [])
  | ['\\'] => .error .trailingBackslash
  | '.' :: s => .ok (one .any, s)
  | '[' :: s => (bracket s).map fun (t, s) => (one t, s)
  | '^' :: s => .ok (if d.extended || isFirst then lineStart else one (.exactly '^'), s)
  | '$' :: s =>
    let isLast := s = [] || (afterBar? d s).isSome || (afterClose? d s).isSome
    .ok (if d.extended || isLast then lineEnd else one (.exactly '$'), s)
  | '\\' :: c :: s =>
    if c.isDigit ∧ c ≠ '0' then
      if c.toNat - 48 ≤ groups then .ok (again (c.toNat - 48), s) else .error .badReference
    else .ok (match c with
      | 'n' => one (.exactly '\n')
      | 't' => one (.exactly '\t')
      | 'w' => one (.oneOf false wordRanges)
      | 'W' => one (.oneOf true wordRanges)
      | 's' => one (.oneOf false [('\t', '\r'), (' ', ' ')])
      | 'S' => one (.oneOf true [('\t', '\r'), (' ', ' ')])
      | 'b' => wordEdge .either
      | '<' => wordEdge .start
      | '>' => wordEdge .finish
      | c => one (.exactly c), s)
  | c :: s => .ok (one (.exactly c), s)

mutual
/-- Choices up to the end or a closing sign, with the number of groups so far. -/
def choices (d : Dialect) : (fuel depth groups : Nat) → Text → Except Fault (Regex × Nat × Text)
  | 0, _, groups, s => .ok (nothing, groups, s)
  | fuel + 1, depth, groups, s => do
    let (r, groups, s) ← sequence d fuel true depth groups s
    match afterBar? d s with
    | some s => do
      let (r', groups, s) ← choices d fuel depth groups s
      return (either r r', groups, s)
    | none => return (r, groups, s)

def sequence (d : Dialect) : (fuel : Nat) → (isFirst : Bool) → (depth groups : Nat) → Text →
    Except Fault (Regex × Nat × Text)
  | 0, _, _, groups, s => .ok (nothing, groups, s)
  | fuel + 1, isFirst, depth, groups, s => do
    if s = [] ∨ (afterBar? d s).isSome then return (nothing, groups, s)
    if (afterClose? d s).isSome ∧ (0 < depth ∨ ¬d.lenient ∨ ¬d.extended) then
      if 0 < depth then return (nothing, groups, s) else .error .strayClose
    let (r, groups, s) ← match afterOpen? d s with
      | some inner => do
        let number := groups + 1
        let (r, groups, s) ← choices d fuel (depth + 1) number inner
        match afterClose? d s with
        | some s => pure (group number r, groups, s)
        | none => .error .openGroup
      | none =>
        if isFirst ∧ s.head? = some '*' ∧ ¬d.extended then pure (one (.exactly '*'), groups, s.drop 1)
        else if isFirst ∧ (← bounds? d s).isSome then
          if d.lenient then pure (nothing, groups, s) else .error .badRepeat
        else do
          let (r, s) ← atom d isFirst groups s
          pure (r, groups, s)
    let (r, s) ← if r = lineStart ∧ ¬d.extended then pure (r, s) else repetitions d fuel r s
    let (r', groups, s) ← sequence d fuel (r = lineStart ∧ ¬d.extended) depth groups s
    return (both r r', groups, s)
end

def ofText (d : Dialect) (s : Text) : Except Fault (Regex × Nat) := do
  let (r, groups, _) ← choices d (3 * s.length + 4) 0 0 s
  return (r, groups)

end Regex
end StyleShield.Shell
