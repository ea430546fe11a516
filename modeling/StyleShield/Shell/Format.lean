import StyleShield.Shell.Tool

/-! Printing by a format: text with escapes, and directives that take arguments. The format
is used again until the arguments are used up. -/
namespace StyleShield.Shell.Format

def letterEscape? : Char → Option Char
  | 'a' => some '\x07' | 'b' => some '\x08' | 'f' => some '\x0c' | 'n' => some '\n' | 'r' => some '\r'
  | 't' => some '\t' | 'v' => some '\x0b' | '\\' => some '\\' | _ => none

/-- An argument with its escapes put in, where a number starts with a zero; the flag says that
printing goes on after it. -/
def unescape : (fuel : Nat) → Text → Text × Bool
  | 0, _ => ([], true)
  | _, [] => ([], true)
  | fuel + 1, '\\' :: c :: s =>
    if c = 'c' then ([], false)
    else match letterEscape? c with
      | some e => let (t, goesOn) := unescape fuel s; (e :: t, goesOn)
      | none =>
        let ds := if c = '0' then Tool.octalDigits 3 s else Tool.octalDigits 3 (c :: s)
        if c = '0' ∨ ds ≠ [] then
          let (t, goesOn) := unescape fuel ((if c = '0' then s else c :: s).drop ds.length)
          (Tool.octal ds :: t, goesOn)
        else
          let (t, goesOn) := unescape fuel (c :: s)
          ('\\' :: t, goesOn)
  | fuel + 1, c :: s => let (t, goesOn) := unescape fuel s; (c :: t, goesOn)

def unescaped (s : Text) : Text × Bool := unescape (s.length + 1) s

def echo (args : List Text) : Text :=
  let (args, newline) := match args with
    | ['-', 'n'] :: rest => (rest, false)
    | _ => (args, true)
  let (t, goesOn) := unescaped (Text.join [' '] args)
  t ++ if newline && goesOn then ['\n'] else []

/-! ### Numbers -/

structure Directive where
  left : Bool
  signed : Bool
  spaced : Bool
  zeros : Bool
  alternative : Bool
  width : Nat
  precision : Option Nat

def Directive.padded (d : Directive) (mayFill : Bool) (lead body : Text) : Text :=
  let missing := d.width - (lead.length + body.length)
  if d.left then lead ++ body ++ List.replicate missing ' '
  else if d.zeros && mayFill then lead ++ List.replicate missing '0' ++ body
  else List.replicate missing ' ' ++ lead ++ body

def Directive.word (d : Directive) (s : Text) : Text :=
  d.padded false [] (match d.precision with
    | some n => s.take n
    | none => s)

def Directive.number (d : Directive) (lead digits : Text) : Text :=
  match d.precision with
  | some n => d.padded false lead (if n = 0 ∧ digits = ['0'] then [] else List.replicate (n - digits.length) '0' ++ digits)
  | none => d.padded true lead digits

def Directive.integer (d : Directive) (n : Int) : Text :=
  d.number (if n < 0 then ['-'] else if d.signed then ['+'] else if d.spaced then [' '] else [])
    (Text.ofNat n.natAbs)

def Directive.unsigned (d : Directive) (letter : Char) (n : Nat) : Text :=
  let base := if letter = 'o' then 8 else if letter = 'u' then 10 else 16
  let digits := (Nat.toDigits base n).map fun c => if letter = 'X' then c.toUpper else c
  if d.alternative && letter == 'o' && digits.head? != some '0' then d.number [] ('0' :: digits)
  else d.number (if d.alternative && base == 16 && n != 0 then ['0', letter] else []) digits

def digit? (base : Nat) (c : Char) : Option Nat :=
  let n := if c.isDigit then c.toNat - 48 else if 'a' ≤ c ∧ c ≤ 'f' then c.toNat - 87
    else if 'A' ≤ c ∧ c ≤ 'F' then c.toNat - 55 else base
  if n < base then some n else none

def leadingNumber (s : Text) : Option (Int × Text) :=
  let s' := s.dropWhile fun c => c = ' ' ∨ ('\t' ≤ c ∧ c ≤ '\r')
  let (negative, r) := match s' with
    | '-' :: r => (true, r)
    | '+' :: r => (false, r)
    | r => (false, r)
  let (base, r') := match r with
    | '0' :: 'x' :: h :: t | '0' :: 'X' :: h :: t => if (digit? 16 h).isSome then (16, h :: t) else (8, r)
    | '0' :: _ => (8, r)
    | _ => (10, r)
  let ds := r'.takeWhile fun c => (digit? base c).isSome
  let n : Nat := ds.foldl (fun n c => base * n + (digit? base c).getD 0) 0
  if ds = [] then none else some (if negative then -n else n, r'.drop ds.length)

def numberOf (s : Text) : Int × Option Text :=
  match s with
  | [] => (0, none)
  | '"' :: c :: _ | '\'' :: c :: _ => (c.toNat, none)
  | s => match leadingNumber s with
    | some (n, []) => (n, none)
    | some (n, _) => (n, some (s ++ ": not completely converted".toList))
    | none => (0, some (s ++ ": expected numeric value".toList))

/-! ### Formats -/

structure Printed where
  output : Text
  complaints : List Text
  /-- A mistake in the format, which ends the printing. -/
  mistake : Option Text
  goesOn : Bool

namespace Printed

def nothing : Printed := ⟨[], [], none, true⟩

def withFront (s : Text) (p : Printed) : Printed := { p with output := s ++ p.output }

def withComplaint (c : Option Text) (p : Printed) : Printed := { p with complaints := c.toList ++ p.complaints }

end Printed

def countOf (s : Text) (args : List Text) : Option Int × Text × List Text :=
  match s with
  | '*' :: r => (some (numberOf (args.head?.getD [])).1, r, args.drop 1)
  | s =>
    let ds := s.takeWhile Char.isDigit
    (if ds = [] then none else some (ds.foldl (fun (n : Int) c => 10 * n + (c.toNat - 48)) 0), s.drop ds.length, args)

def directiveOf (s : Text) (args : List Text) : Directive × Text × List Text :=
  let flags := s.takeWhile fun c => c ∈ ['#', '-', '+', ' ', '0']
  let (width, r, args) := countOf (s.drop flags.length) args
  let (precision, r, args) : Option Nat × Text × List Text := match r with
    | '.' :: r => let (n, r, args) := countOf r args; (some (n.getD 0).toNat, r, args)
    | r => (none, r, args)
  (⟨flags.contains '-' || width.any (· < 0), flags.contains '+', flags.contains ' ', flags.contains '0',
    flags.contains '#', (width.getD 0).natAbs, precision⟩, r, args)

def least : Int := -9223372036854775808
def greatest : Int := 9223372036854775807

def wrapUnsigned (n : Int) : Nat := (n % 18446744073709551616).toNat

/-- One pass over a format: what it prints, and the arguments that are left. -/
def once : (fuel : Nat) → Text → List Text → Printed × List Text
  | 0, _, args => (.nothing, args)
  | _, [], args => (.nothing, args)
  | fuel + 1, '%' :: '%' :: s, args =>
    let (p, rest) := once fuel s args
    (p.withFront ['%'], rest)
  | fuel + 1, '%' :: s, args =>
    let (d, r, args) := directiveOf s args
    let a := args.head?.getD []
    let goOn (shown : Text) (complaint : Option Text) (letters : Text) : Printed × List Text :=
      let (p, rest) := once fuel letters (args.drop 1)
      ((p.withFront shown).withComplaint complaint, rest)
    match r with
    | [] => (⟨[], [], some "missing format character".toList, false⟩, args)
    | 's' :: r => goOn (d.word a) none r
    | 'c' :: r => goOn (d.word (if a = [] then ['\x00'] else a.take 1)) none r
    | 'b' :: r =>
      let (t, goesOn) := unescaped a
      if goesOn then goOn (d.word t) none r else (⟨d.word t, [], none, false⟩, args.drop 1)
    | c :: r =>
      let (n, complaint) := numberOf a
      if c = 'd' ∨ c = 'i' then goOn (d.integer (max least (min greatest n))) complaint r
      else if c ∈ ['o', 'u', 'x', 'X'] then goOn (d.unsigned c (wrapUnsigned n)) complaint r
      else (⟨[], [], some ('%' :: s.take (s.length - r.length) ++ ": invalid directive".toList), false⟩, args)
  | fuel + 1, '\\' :: c :: s, args =>
    match letterEscape? c with
    | some e => let (p, rest) := once fuel s args; (p.withFront [e], rest)
    | none =>
      let ds := Tool.octalDigits 3 (c :: s)
      if ds ≠ [] then
        let (p, rest) := once fuel ((c :: s).drop ds.length) args
        (p.withFront [Tool.octal ds], rest)
      else
        let (p, rest) := once fuel (c :: s) args
        (p.withFront ['\\'], rest)
  | fuel + 1, c :: s, args =>
    let (p, rest) := once fuel s args
    (p.withFront [c], rest)

def repeated (format : Text) : (fuel : Nat) → List Text → Printed
  | 0, _ => .nothing
  | fuel + 1, args =>
    let (p, rest) := once (format.length + 1) format args
    if !p.goesOn || rest = [] || rest.length = args.length then p
    else
      let q := repeated format fuel rest
      { q with output := p.output ++ q.output, complaints := p.complaints ++ q.complaints }

def print (format : Text) (args : List Text) : Printed := repeated format (args.length + 1) args

end StyleShield.Shell.Format
