import StyleShield.Text.Basic

/-! Arithmetic in scripts: terms over whole numbers of sixty-four bits and variables, read by
the strength of their signs. A term that is not chosen is not evaluated. -/
namespace StyleShield.Shell.Arithmetic

inductive Term where
  | number (n : Int)
  | named (x : Text)
  | unary (sign : Char) (a : Term)
  | binary (sign : Text) (a b : Term)
  | choose (condition yes no : Term)
  | assign (name sign : Text) (a : Term)
  deriving DecidableEq

inductive Cause where
  | expectingPrimary
  | expectingClose
  | expectingColon
  | expectingEnd
  | divisionByZero
  | illegalNumber (value : Text)
  deriving DecidableEq

def Cause.message (expression : Text) (c : Cause) : Text :=
  let about (what : String) : Text :=
    "arithmetic expression: ".toList ++ what.toList ++ ": \"".toList ++ expression ++ ['"']
  match c with
  | .expectingPrimary => about "expecting primary"
  | .expectingClose => about "expecting ')'"
  | .expectingColon => about "expecting ':'"
  | .expectingEnd => about "expecting EOF"
  | .divisionByZero => about "division by zero"
  | .illegalNumber v => "Illegal number: ".toList ++ v

/-! ### Reading -/

def isBlank (c : Char) : Bool := c == ' ' || c == '\t' || c == '\n'

/-- Signs between terms with their strength, longest first. -/
def signs : List (Text × Nat) :=
  [("<<", 8), (">>", 8), ("<=", 7), (">=", 7), ("==", 6), ("!=", 6), ("&&", 2), ("||", 1), ("<", 7), (">", 7),
    ("&", 5), ("^", 4), ("|", 3), ("+", 9), ("-", 9), ("*", 10), ("/", 10), ("%", 10)].map
    fun e => (e.1.toList, e.2)

def signOf (s : Text) : Option (Text × Nat × Text) :=
  signs.findSome? fun (o, strength) => (Text.after? o s).map fun r => (o, strength, r)

def assignmentOf (s : Text) : Option (Text × Text) :=
  let plain : Option (Text × Text) := match s with
    | '=' :: '=' :: _ => none
    | '=' :: r => some ([], r)
    | _ => none
  plain.or (["<<", ">>", "&", "^", "|", "+", "-", "*", "/", "%"].findSome? fun o =>
    (Text.after? (o.toList ++ ['=']) s).map fun r => (o.toList, r))

def digit? (base : Nat) (c : Char) : Option Nat :=
  let n := if c.isDigit then c.toNat - 48 else if 'a' ≤ c ∧ c ≤ 'f' then c.toNat - 87
    else if 'A' ≤ c ∧ c ≤ 'F' then c.toNat - 55 else base
  if n < base then some n else none

def digits (base : Nat) (s : Text) : Nat × Text :=
  (s.takeWhile fun c => (digit? base c).isSome).foldl (fun n c => base * n + (digit? base c).getD 0) 0
    |> fun n => (n, s.dropWhile fun c => (digit? base c).isSome)

/-- A number with the base that its start tells. -/
def numeral (s : Text) : Nat × Text :=
  match s with
  | '0' :: 'x' :: r | '0' :: 'X' :: r => digits 16 r
  | '0' :: r => digits 8 r
  | s => digits 10 s

def isNameStart (c : Char) : Bool := c.isAlpha || c == '_'
def isNameChar (c : Char) : Bool := c.isAlphanum || c == '_'

mutual
def primaryOf : (fuel : Nat) → Text → Except Cause (Term × Text)
  | 0, _ => .error .expectingPrimary
  | fuel + 1, s => match s.dropWhile isBlank with
    | '(' :: r => do
      let (t, r) ← termOf fuel r
      match r.dropWhile isBlank with
      | ')' :: r => return (t, r)
      | _ => .error .expectingClose
    | c :: r =>
      if c ∈ ['!', '~', '-', '+'] then do
        let (t, r) ← primaryOf fuel r
        return (.unary c t, r)
      else if c.isDigit then
        let (n, r) := numeral (c :: r)
        .ok (.number n, r)
      else if isNameStart c then
        .ok (.named ((c :: r).takeWhile isNameChar), (c :: r).dropWhile isNameChar)
      else .error .expectingPrimary
    | [] => .error .expectingPrimary

/-- Terms joined by signs of some strength at least, after `left`. -/
def joinedOf : (fuel strength : Nat) → (left : Term) → Text → Except Cause (Term × Text)
  | 0, _, left, s => .ok (left, s)
  | fuel + 1, strength, left, s => match signOf (s.dropWhile isBlank) with
    | some (sign, found, r) =>
      if found < strength then .ok (left, s)
      else do
        let (b, r) ← primaryOf fuel r
        let (b, r) ← joinedOf fuel (found + 1) b r
        joinedOf fuel strength (.binary sign left b) r
    | none => .ok (left, s)

def termOf : (fuel : Nat) → Text → Except Cause (Term × Text)
  | 0, _ => .error .expectingPrimary
  | fuel + 1, s =>
    let s := s.dropWhile isBlank
    let name := match s with
      | c :: _ => if isNameStart c then s.takeWhile isNameChar else []
      | [] => []
    match if name = [] then none else assignmentOf ((s.drop name.length).dropWhile isBlank) with
    | some (sign, r) => do
      let (t, r) ← termOf fuel r
      return (.assign name sign t, r)
    | none => do
      let (a, r) ← primaryOf fuel s
      let (c, r) ← joinedOf fuel 0 a r
      match r.dropWhile isBlank with
      | '?' :: r => do
        let (yes, r) ← termOf fuel r
        match r.dropWhile isBlank with
        | ':' :: r => do
          let (no, r) ← termOf fuel r
          return (.choose c yes no, r)
        | _ => .error .expectingColon
      | _ => return (c, r)
end

def ofText (s : Text) : Except Cause Term := do
  let (t, r) ← termOf (2 * s.length + 4) s
  if r.dropWhile isBlank = [] then return t else .error .expectingEnd

/-! ### Values -/

def size : Nat := 18446744073709551616

/-- The number that stands for another one in sixty-four bits. -/
def wrap (n : Int) : Int := n.bmod size

/-- The number that a variable's value spells; nothing spells zero. -/
def numberOf (value : Text) : Except Cause Int :=
  let s := Text.trim isBlank value
  let (isNegative, ds) := match s with
    | '-' :: r => (true, r)
    | '+' :: r => (false, r)
    | r => (false, r)
  if s = [] then .ok 0
  else match ds, numeral ds with
    | c :: _, (n, []) => if c.isDigit then .ok (wrap (if isNegative then -n else n)) else .error (.illegalNumber value)
    | _, _ => .error (.illegalNumber value)

def ofBool (b : Bool) : Int := if b then 1 else 0

def bits (f : Nat → Nat → Nat) (a b : Int) : Int :=
  wrap (f (a % size).toNat (b % size).toNat)

def applied (sign : Text) (a b : Int) : Except Cause Int :=
  match String.ofList sign with
  | "+" => .ok (wrap (a + b))
  | "-" => .ok (wrap (a - b))
  | "*" => .ok (wrap (a * b))
  | "/" => if b = 0 then .error .divisionByZero else .ok (wrap (a.tdiv b))
  | "%" => if b = 0 then .error .divisionByZero else .ok (wrap (a.tmod b))
  | "<" => .ok (ofBool (a < b))
  | ">" => .ok (ofBool (b < a))
  | "<=" => .ok (ofBool (a ≤ b))
  | ">=" => .ok (ofBool (b ≤ a))
  | "==" => .ok (ofBool (a = b))
  | "!=" => .ok (ofBool (a ≠ b))
  | "<<" => .ok (wrap (a * Nat.shiftLeft 1 (b % 64).toNat))
  | ">>" => .ok (a.fdiv (Nat.shiftLeft 1 (b % 64).toNat))
  | "&" => .ok (bits Nat.land a b)
  | "|" => .ok (bits Nat.lor a b)
  | "^" => .ok (bits Nat.xor a b)
  | _ => .ok b

/-- The value of a term, and the assignments made on the way, latest first. -/
def Term.value (valueOf : Text → Text) : Term → (made : List (Text × Text)) → Except Cause (Int × List (Text × Text))
  | .number n, made => .ok (wrap n, made)
  | .named x, made => do
    let n ← numberOf (lookUp x made)
    return (n, made)
  | .unary sign a, made => do
    let (n, made) ← a.value valueOf made
    return (if sign = '-' then wrap (-n) else if sign = '~' then -n - 1
      else if sign = '!' then ofBool (n = 0) else n, made)
  | .binary sign a b, made => do
    let (n, made) ← a.value valueOf made
    if sign = ['&', '&'] ∧ n = 0 then return (0, made)
    else if sign = ['|', '|'] ∧ n ≠ 0 then return (1, made)
    else do
      let (m, made) ← b.value valueOf made
      if sign = ['&', '&'] ∨ sign = ['|', '|'] then return (ofBool (m ≠ 0), made)
      else do
        let v ← applied sign n m
        return (v, made)
  | .choose c yes no, made => do
    let (n, made) ← c.value valueOf made
    if n ≠ 0 then yes.value valueOf made else no.value valueOf made
  | .assign x sign a, made => do
    let (n, made) ← a.value valueOf made
    let v ← if sign = [] then Except.ok n else do
      let old ← numberOf (lookUp x made)
      applied sign old n
    return (v, (x, Text.ofInt v) :: made)
where
  lookUp (x : Text) (made : List (Text × Text)) : Text :=
    ((made.find? fun e => e.1 = x).map Prod.snd).getD (valueOf x)

def evaluate (valueOf : Text → Text) (s : Text) : Except Cause (Int × List (Text × Text)) := do
  let t ← ofText s
  t.value valueOf []

end StyleShield.Shell.Arithmetic
