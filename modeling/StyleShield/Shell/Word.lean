import StyleShield.Text.Basic

/-! Words of a shell script: fragments that stand as they are, in quotes or not, and
fragments that something is put in for. What is put in is kept as it was written. -/
namespace StyleShield.Shell

inductive Fragment where
  | plain (s : Text)
  | quoted (s : Text)
  | parameter (name operator word : Text) (isQuoted : Bool)
  | command (script : Text) (isQuoted : Bool)
  | arithmetic (expression : Text) (isQuoted : Bool)
  deriving DecidableEq

abbrev Word := List Fragment

inductive SyntaxCause where
  | openQuote
  | openBackquote
  | openBrace
  | openParentheses
  | badLoopVariable
  | badFunctionName
  | unexpected (shown : Text) (expecting : Option Text)
  deriving DecidableEq

structure SyntaxFault where
  line : Nat
  cause : SyntaxCause
  deriving DecidableEq

def SyntaxFault.message (f : SyntaxFault) : Text :=
  "Syntax error: ".toList ++ match f.cause with
    | .openQuote => "Unterminated quoted string".toList
    | .openBackquote => "EOF in backquote substitution".toList
    | .openBrace => "Missing '\x7d'".toList
    | .openParentheses => "Missing '))'".toList
    | .badLoopVariable => "Bad for loop variable".toList
    | .badFunctionName => "Bad function name".toList
    | .unexpected shown expecting => shown ++ " unexpected".toList ++ match expecting with
      | some e => " (expecting ".toList ++ e ++ [')']
      | none => []

namespace Word

def isNameStart (c : Char) : Bool := c.isAlpha || c == '_'
def isNameChar (c : Char) : Bool := c.isAlphanum || c == '_'
def isSpecial (c : Char) : Bool := c.isDigit || c ∈ ['$', '?', '#', '@', '*', '!', '-']

/-- The text up to a closing sign on the same level, and what follows it. Signs in quotes and
after a backslash do not count; `quote` is the quote that is open. -/
def untilClose (opening closing : Char) : (quote : Option Char) → (depth : Nat) → Text → Option (Text × Text)
  | _, _, [] => none
  | some '\'', depth, c :: s =>
    (untilClose opening closing (if c = '\'' then none else some '\'') depth s).map fun (t, r) => (c :: t, r)
  | quote, depth, '\\' :: c :: s => (untilClose opening closing quote depth s).map fun (t, r) => ('\\' :: c :: t, r)
  | some q, depth, c :: s =>
    (untilClose opening closing (if c = q then none else some q) depth s).map fun (t, r) => (c :: t, r)
  | none, depth, c :: s =>
    let more (quote : Option Char) (depth : Nat) : Option (Text × Text) :=
      (untilClose opening closing quote depth s).map fun (t, r) => (c :: t, r)
    if c = '\'' ∨ c = '"' then more (some c) depth
    else if c = closing then (if depth = 0 then some ([], s) else more none (depth - 1))
    else if c = opening then more none (depth + 1)
    else more none depth

/-- The script between backquotes; backslashes in front of the signs that matter are dropped. -/
def untilBackquote (isQuoted : Bool) : Text → Option (Text × Text)
  | [] => none
  | '\x60' :: s => some ([], s)
  | '\\' :: c :: s => (untilBackquote isQuoted s).map fun (t, r) =>
    (if c = '\x60' ∨ c = '\\' ∨ c = '$' ∨ (isQuoted ∧ c = '"') then c :: t else '\\' :: c :: t, r)
  | c :: s => (untilBackquote isQuoted s).map fun (t, r) => (c :: t, r)

def bracedName (s : Text) : Text × Text :=
  match s with
  | c :: r =>
    if isNameStart c then (s.takeWhile isNameChar, s.dropWhile isNameChar)
    else if c.isDigit then (s.takeWhile Char.isDigit, s.dropWhile Char.isDigit)
    else if isSpecial c then ([c], r) else ([], s)
  | [] => ([], [])

def operators : List Text :=
  [":-", ":=", ":+", ":?", "%%", "##", "-", "=", "+", "?", "%", "#"].map String.toList

/-- A parameter in braces. An operator that is not known is kept whole. -/
def braced (inner : Text) (isQuoted : Bool) : Fragment :=
  match inner with
  | '#' :: c :: s => if isNameStart c ∨ c.isDigit then .parameter (c :: s) "length".toList [] isQuoted
      else plain ('#' :: c :: s)
  | s => plain s
where
  plain (s : Text) : Fragment :=
    let (name, rest) := bracedName s
    if rest = [] then .parameter name [] [] isQuoted
    else match operators.findSome? fun o => (Text.after? o rest).map fun w => (o, w) with
      | some (o, w) => .parameter name o w isQuoted
      | none => .parameter [] [] [] isQuoted

/-- What a dollar sign starts, and what follows; none if the sign stands for itself. -/
def dollar (isQuoted : Bool) (s : Text) : Except SyntaxCause (Option (Fragment × Text)) :=
  match s with
  | '(' :: '(' :: r => match untilClose '(' ')' none 0 r with
    | some (t, ')' :: r) => .ok (some (.arithmetic t isQuoted, r))
    | _ => .error .openParentheses
  | '(' :: r => match untilClose '(' ')' none 0 r with
    | some (t, r) => .ok (some (.command t isQuoted, r))
    | none => .error (.unexpected "end of file".toList (some "\")\"".toList))
  | '\x7b' :: r => match untilClose '\x7b' '\x7d' none 0 r with
    | some (t, r) => .ok (some (braced t isQuoted, r))
    | none => .error (if isQuoted then .openQuote else .openBrace)
  | c :: r =>
    if isNameStart c then .ok (some (.parameter (s.takeWhile isNameChar) [] [] isQuoted, s.dropWhile isNameChar))
    else if isSpecial c then .ok (some (.parameter [c] [] [] isQuoted, r)) else .ok none
  | [] => .ok none

/-- Text in double quotes up to the closing one, or a text to its end if `closing` is none. -/
def doubleQuoted (closing : Option Char) : (fuel : Nat) → Text → Except SyntaxCause (Word × Text)
  | 0, _ => .error .openQuote
  | _, [] => if closing.isNone then .ok ([], []) else .error .openQuote
  | fuel + 1, '\\' :: c :: s => do
    let (w, r) ← doubleQuoted closing fuel s
    let kept := if c ∈ ['\\', '$', '\x60'] ∨ some c = closing then [c] else if c = '\n' then [] else ['\\', c]
    return (.quoted kept :: w, r)
  | fuel + 1, '$' :: s => do
    match ← dollar true s with
    | some (f, r) => do
      let (w, r) ← doubleQuoted closing fuel r
      return (f :: w, r)
    | none => do
      let (w, r) ← doubleQuoted closing fuel s
      return (.quoted ['$'] :: w, r)
  | fuel + 1, '\x60' :: s => match untilBackquote true s with
    | none => .error .openBackquote
    | some (t, r) => do
      let (w, r) ← doubleQuoted closing fuel r
      return (.command t true :: w, r)
  | fuel + 1, c :: s =>
    if some c = closing then .ok ([], s)
    else do
      let (w, r) ← doubleQuoted closing fuel s
      return (.quoted [c] :: w, r)

def isEnd (c : Char) : Bool := c ∈ [' ', '\t', '\n', ';', '&', '|', '<', '>', '(', ')']

def read (stops : Char → Bool) : (fuel : Nat) → Text → Except SyntaxCause (Word × Text)
  | 0, s => .ok ([], s)
  | _, [] => .ok ([], [])
  | fuel + 1, '\'' :: s => match s.dropWhile (· ≠ '\'') with
    | [] => .error .openQuote
    | _ :: r => do
      let (w, r) ← read stops fuel r
      return (.quoted (s.takeWhile (· ≠ '\'')) :: w, r)
  | fuel + 1, '"' :: s => do
    let (q, r) ← doubleQuoted (some '"') (s.length + 1) s
    let (w, r) ← read stops fuel r
    return (.quoted [] :: q ++ w, r)
  | fuel + 1, '\\' :: c :: s => do
    let (w, r) ← read stops fuel s
    return (if c = '\n' then w else .quoted [c] :: w, r)
  | fuel + 1, '$' :: s => do
    match ← dollar false s with
    | some (f, r) => do
      let (w, r) ← read stops fuel r
      return (f :: w, r)
    | none => do
      let (w, r) ← read stops fuel s
      return (.plain ['$'] :: w, r)
  | fuel + 1, '\x60' :: s => match untilBackquote false s with
    | none => .error .openBackquote
    | some (t, r) => do
      let (w, r) ← read stops fuel r
      return (.command t false :: w, r)
  | fuel + 1, c :: s =>
    if stops c then .ok ([], c :: s)
    else do
      let (w, r) ← read stops fuel s
      return (.plain [c] :: w, r)

def ofText (isQuoted : Bool) (s : Text) : Word :=
  let r := if isQuoted then doubleQuoted none (s.length + 1) s else read (fun _ => false) (s.length + 1) s
  (r.map Prod.fst).toOption.getD []

/-- The spelling of a word that has no quotes and nothing to put in. -/
def bare? : Word → Option Text
  | [] => some []
  | .plain s :: w => (bare? w).map (s ++ ·)
  | _ => none

def spelling : Word → Text
  | [] => []
  | .plain s :: w => s ++ spelling w
  | .quoted s :: w => s ++ spelling w
  | _ :: w => spelling w

end Word

/-! ### Wildcards -/

/-- Characters of a pattern, each with whether it stands for itself. -/
abbrev Marked := List (Char × Bool)

namespace Marked

def text (m : Marked) : Text := m.map Prod.fst

@[simp] theorem text_append (m n : Marked) : text (m ++ n) = text m ++ text n := List.map_append

def hasWildcard (m : Marked) : Bool := m.any fun (c, fixed) => !fixed && (c == '*' || c == '?' || c == '[')

/-- A set after its opening bracket: negated or not, its members, and the rest of the pattern. -/
def set? (m : Marked) : Option (Bool × List (Char × Char) × Marked) :=
  let (negated, m) := match m with
    | ('!', false) :: r => (true, r)
    | ('^', false) :: r => (true, r)
    | _ => (false, m)
  let (first, rest) := match m with
    | (']', f) :: r => ([(']', f)], r)
    | _ => ([], m)
  match rest.dropWhile (· ≠ (']', false)) with
  | _ :: r => some (negated, ranges (text (first ++ rest.takeWhile (· ≠ (']', false)))), r)
  | [] => none
where
  ranges : Text → List (Char × Char)
    | a :: '-' :: b :: s => (a, b) :: ranges s
    | a :: s => (a, a) :: ranges s
    | [] => []

def fits : (fuel : Nat) → Marked → Text → Bool
  | 0, _, _ => false
  | _, [], s => s.isEmpty
  | fuel + 1, ('*', false) :: p, s =>
    fits fuel p s || match s with
      | [] => false
      | _ :: s => fits fuel (('*', false) :: p) s
  | _, _ :: _, [] => false
  | fuel + 1, ('?', false) :: p, _ :: s => fits fuel p s
  | fuel + 1, ('[', false) :: p, c :: s => match set? p with
    | some (negated, ranges, p) =>
      ((ranges.any fun (a, b) => a ≤ c && c ≤ b) != negated) && fits fuel p s
    | none => c == '[' && fits fuel p s
  | fuel + 1, (x, _) :: p, c :: s => x == c && fits fuel p s

def matchesAll (m : Marked) (s : Text) : Bool := fits (m.length + s.length + 1) m s

def withoutEnd (longest : Bool) (m : Marked) (s : Text) : Text :=
  let cuts := List.range (s.length + 1)
  ((if longest then cuts else cuts.reverse).find? fun i => matchesAll m (s.drop i)).elim s (s.take ·)

def withoutStart (longest : Bool) (m : Marked) (s : Text) : Text :=
  let cuts := List.range (s.length + 1)
  ((if longest then cuts.reverse else cuts).find? fun i => matchesAll m (s.take i)).elim s (s.drop ·)

end Marked
end StyleShield.Shell
