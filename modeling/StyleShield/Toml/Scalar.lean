import StyleShield.Fault
import StyleShield.Text.DecimalDigit

/-! Scalars of a settings document: strings in their four notations, keys, numbers and
dates. A reading takes the start of a text and gives a value and the rest. -/
namespace StyleShield.Toml

abbrev Reading (α : Type) := Text → Except Fault (α × Text)

def malformed {α : Type} : Except Fault α := .error .malformedToml

def isGap (c : Char) : Bool := c == ' ' || c == '\t'
def skipGap (s : Text) : Text := s.dropWhile isGap

def isControl (c : Char) : Bool := (c.toNat < 0x20 && c != '\t') || c.toNat == 0x7F

/-- Control characters that may not stand in a string of many lines. -/
def isInnerControl (c : Char) : Bool := isControl c && c != '\n'

def isHexDigit (c : Char) : Bool := c.isDigit || ('a' ≤ c && c ≤ 'f') || ('A' ≤ c && c ≤ 'F')

def hexValue (c : Char) : Nat :=
  if c.isDigit then c.toNat - 48 else if 'a' ≤ c then c.toNat - 87 else c.toNat - 55

def readScalarValue (width : Nat) : Reading Char := fun s =>
  let ds := s.take width
  let n := ds.foldl (fun n c => 16 * n + hexValue c) 0
  if ds.length = width ∧ ds.all isHexDigit ∧ (n < 0xD800 ∨ (0xE000 ≤ n ∧ n < 0x110000)) then
    .ok (Char.ofNat n, s.drop width)
  else malformed

def simpleEscape? : Char → Option Char
  | 'b' => some '\x08' | 't' => some '\t' | 'n' => some '\n' | 'f' => some '\x0c' | 'r' => some '\r'
  | '"' => some '"' | '\\' => some '\\' | _ => none

/-- What an escape stands for, after its backslash. In a string of many lines a backslash
at the end of a line takes away all blanks and line ends that follow. -/
def readEscape (manyLines : Bool) : Reading Text
  | 'u' :: s => do
    let (c, r) ← readScalarValue 4 s
    return ([c], r)
  | 'U' :: s => do
    let (c, r) ← readScalarValue 8 s
    return ([c], r)
  | c :: s =>
    if manyLines ∧ (isGap c ∨ c = '\n') then
      match skipGap (c :: s) with
      | [] => .ok ([], [])
      | '\n' :: r => .ok ([], r.dropWhile fun c => isGap c || c == '\n')
      | _ => malformed
    else match simpleEscape? c with
      | some d => .ok ([d], s)
      | none => malformed
  | [] => malformed

def readBasic (manyLines : Bool) : (fuel : Nat) → Reading Text
  | 0, _ => malformed
  | _, [] => malformed
  | fuel + 1, '"' :: s =>
    if manyLines then
      match s with
      | '"' :: '"' :: r => .ok ([], r)
      | _ => do
        let (t, r) ← readBasic manyLines fuel s
        return ('"' :: t, r)
    else .ok ([], s)
  | fuel + 1, '\\' :: s => do
    let (e, r) ← readEscape manyLines s
    let (t, r) ← readBasic manyLines fuel r
    return (e ++ t, r)
  | fuel + 1, c :: s =>
    if (if manyLines then isInnerControl c else isControl c) then malformed
    else do
      let (t, r) ← readBasic manyLines fuel s
      return (c :: t, r)

def readLine : Reading Text := fun s => readBasic false (s.length + 1) s

def readLiteral : Reading Text := fun s =>
  match s.dropWhile (· ≠ '\'') with
  | [] => malformed
  | _ :: r =>
    let t := s.takeWhile (· ≠ '\'')
    if t.any isControl then malformed else .ok (t, r)

def splitAtTriple : Text → Option (Text × Text)
  | '\'' :: '\'' :: '\'' :: r => some ([], r)
  | c :: s => (splitAtTriple s).map fun (t, r) => (c :: t, r)
  | [] => none

/-- Up to two more quotes that belong to the end of a string of many lines. -/
def readExtraQuotes (quote : Char) (t s : Text) : Text × Text :=
  match s with
  | a :: b :: r => if a = quote then (if b = quote then (t ++ [a, b], r) else (t ++ [a], b :: r)) else (t, s)
  | [a] => if a = quote then (t ++ [a], []) else (t, s)
  | [] => (t, s)

def dropNewline : Text → Text
  | '\n' :: s => s
  | s => s

def readManyLines (literal : Bool) : Reading Text := fun s =>
  let s := dropNewline s
  if literal then
    match splitAtTriple s with
    | none => malformed
    | some (t, r) => if t.any isInnerControl then malformed else .ok (readExtraQuotes '\'' t r)
  else do
    let (t, r) ← readBasic true (s.length + 1) s
    return readExtraQuotes '"' t r

def isBareKey (c : Char) : Bool := c.isAlphanum || c == '-' || c == '_'

def readKeyPart : Reading Text
  | '\'' :: s => readLiteral s
  | '"' :: s => readLine s
  | s =>
    let t := s.takeWhile isBareKey
    if t = [] then malformed else .ok (t, s.dropWhile isBareKey)

def readKey : (fuel : Nat) → Reading (List Text)
  | 0, _ => malformed
  | fuel + 1, s => do
    let (k, r) ← readKeyPart s
    match skipGap r with
    | '.' :: r => do
      let (ks, r) ← readKey fuel (skipGap r)
      return (k :: ks, r)
    | r => return ([k], r)

def moreDigits (isDigit : Char → Bool) : Text → Text × Text
  | '_' :: c :: s =>
    if isDigit c then
      let (ds, r) := moreDigits isDigit s
      (c :: ds, r)
    else ([], '_' :: c :: s)
  | c :: s =>
    if isDigit c then
      let (ds, r) := moreDigits isDigit s
      (c :: ds, r)
    else ([], c :: s)
  | [] => ([], [])

/-- Digits with single underscores between them; the underscores are left out. -/
def readDigits? (isDigit : Char → Bool) : Text → Option (Text × Text)
  | c :: s =>
    if isDigit c then
      let (ds, r) := moreDigits isDigit s
      some (c :: ds, r)
    else none
  | [] => none

def ofDigits (base : Nat) (ds : Text) : Nat := ds.foldl (fun n c => base * n + hexValue c) 0

def isBinaryDigit (c : Char) : Bool := c == '0' || c == '1'
def isOctalDigit (c : Char) : Bool := '0' ≤ c && c ≤ '7'

def readPrefixed? : Text → Option (Nat × Text)
  | '0' :: 'x' :: s => (readDigits? isHexDigit s).map fun (ds, r) => (ofDigits 16 ds, r)
  | '0' :: 'b' :: s => (readDigits? isBinaryDigit s).map fun (ds, r) => (ofDigits 2 ds, r)
  | '0' :: 'o' :: s => (readDigits? isOctalDigit s).map fun (ds, r) => (ofDigits 8 ds, r)
  | _ => none

def readWhole? : Text → Option (Text × Text)
  | '0' :: s => some (['0'], s)
  | s => readDigits? Char.isDigit s

def skipFraction : Text → Text
  | '.' :: s => match readDigits? Char.isDigit s with
    | some (_, r) => r
    | none => '.' :: s
  | s => s

def skipSign : Text → Text
  | '+' :: s => s
  | '-' :: s => s
  | s => s

def skipExponent : Text → Text
  | c :: s =>
    if c = 'e' ∨ c = 'E' then
      match readDigits? Char.isDigit (skipSign s) with
      | some (_, r) => r
      | none => c :: s
    else c :: s
  | [] => []

/-- What was taken of a text whose rest is known. -/
def taken (s rest : Text) : Text := s.take (s.length - rest.length)

/-- A number, if the text starts with one. Long whole numbers are refused. -/
def readNumber? (s : Text) : Option (Except Fault (Value × Text)) :=
  match readPrefixed? s with
  | some (n, r) => some (.ok (.integer n, r))
  | none => (readWhole? (skipSign s)).map fun (ds, r) =>
    let r' := skipExponent (skipFraction r)
    if r'.length < r.length then .ok (.float (taken s r'), r')
    else if Text.digitLimit < ds.length then .error (.digitLimit ds.length)
    else
      let n : Int := ofDigits 10 ds
      .ok (.integer (if s.head? = some '-' then -n else n), r)

def readField? (width low high : Nat) (s : Text) : Option (Nat × Text) :=
  let ds := s.take width
  let n := ofDigits 10 ds
  if ds.length = width ∧ ds.all Char.isDigit ∧ low ≤ n ∧ n ≤ high then some (n, s.drop width) else none

def skipSecondFraction : Text → Text
  | '.' :: s => if (s.takeWhile Char.isDigit) = [] then '.' :: s else s.dropWhile Char.isDigit
  | s => s

def afterTime? (s : Text) : Option Text := do
  let (_, s) ← readField? 2 0 23 s
  let s ← Text.after? [':'] s
  let (_, s) ← readField? 2 0 59 s
  let s ← Text.after? [':'] s
  let (_, s) ← readField? 2 0 59 s
  some (skipSecondFraction s)

def skipOffset (s : Text) : Text :=
  match s with
  | [] => []
  | c :: r =>
    if c = 'Z' ∨ c = 'z' then r
    else if c = '+' ∨ c = '-' then
      (do
        let (_, r) ← readField? 2 0 23 r
        let r ← Text.after? [':'] r
        let (_, r) ← readField? 2 0 59 r
        some r).getD s
    else s

def isLeapYear (y : Nat) : Bool := y % 4 = 0 && (y % 100 != 0 || y % 400 = 0)

def daysIn (y m : Nat) : Nat :=
  if m = 2 then (if isLeapYear y then 29 else 28) else if m ∈ [4, 6, 9, 11] then 30 else 31

/-- A date, perhaps with a time after it, if the text starts with the form of one. A day
that the calendar does not have is malformed. -/
def readDate? (s : Text) : Option (Except Fault (Value × Text)) := do
  let (y, r) ← readField? 4 0 9999 s
  let r ← Text.after? ['-'] r
  let (m, r) ← readField? 2 1 12 r
  let r ← Text.after? ['-'] r
  let (d, r) ← readField? 2 1 31 r
  let time? : Option Text := match r with
    | c :: t => if c = 'T' ∨ c = 't' ∨ c = ' ' then afterTime? t else none
    | [] => none
  if y = 0 ∨ daysIn y m < d then some malformed
  else match time? with
    | some t => some (.ok (.dateTime (taken s (skipOffset t)), skipOffset t))
    | none => some (.ok (.date (taken s r), r))

def readTime? (s : Text) : Option (Value × Text) := (afterTime? s).map fun r => (.time (taken s r), r)

def readSpecial? (s : Text) : Option (Value × Text) :=
  let body := skipSign s
  match body with
  | 'i' :: 'n' :: 'f' :: r => some (.float (taken s r), r)
  | 'n' :: 'a' :: 'n' :: r => some (.float (taken s r), r)
  | _ => none

end StyleShield.Toml
