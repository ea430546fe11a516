import StyleShield.Text.Quoted

/-! Encodings of text as bytes. Each has a writer and a strict reader, which refuses every
byte sequence that it cannot read, and marks each longest piece that cannot be read where
the reading goes on. A signed encoding writes a byte order mark and drops one when it reads. -/
namespace StyleShield

abbrev Bytes := List UInt8

namespace Encoding

inductive Failure where
  | unknownEncoding | undecodable | unencodable
  /-- What else a codec may complain of. -/
  | foreign (message : Text)
  deriving DecidableEq

def byteOrderMark : Bytes := [0xEF, 0xBB, 0xBF]

def replacement : Char := '\uFFFD'

def utf8Bytes (s : Text) : Bytes := s.flatMap String.utf8EncodeChar

def utf8Text? (b : Bytes) : Option Text := (String.fromUTF8? b.toByteArray).map String.toList

theorem utf8Text?_utf8Bytes (s : Text) : utf8Text? (utf8Bytes s) = some s := by
  have h : (utf8Bytes s).toByteArray = (String.ofList s).toByteArray := by
    rw [String.toByteArray_ofList]; rfl
  have hv := (String.ofList s).isValidUTF8
  simp only [utf8Text?, String.fromUTF8?, h, hv, dite_true, Option.map_some, Option.some.injEq]
  exact String.toList_ofList

/-- Characters below `bound`, one byte each. -/
def narrowBytes? (bound : Nat) (s : Text) : Option Bytes :=
  if s.all (·.toNat < bound) then some (s.map fun c => UInt8.ofNat c.toNat) else none

def narrowText? (bound : Nat) (b : Bytes) : Option Text :=
  if b.all (·.toNat < bound) then some (b.map fun x => Char.ofNat x.toNat) else none

def unitBytes (n : Nat) : Bytes := [UInt8.ofNat (n % 256), UInt8.ofNat (n / 256)]

def utf16CharBytes (c : Char) : Bytes :=
  let n := c.toNat
  if n < 0x10000 then unitBytes n
  else unitBytes (0xD800 + (n - 0x10000) / 0x400) ++ unitBytes (0xDC00 + (n - 0x10000) % 0x400)

def isHighHalf (n : Nat) : Bool := 0xD800 ≤ n && n < 0xDC00
def isLowHalf (n : Nat) : Bool := 0xDC00 ≤ n && n < 0xE000
def joinHalves (hi lo : Nat) : Char := Char.ofNat (0x10000 + (hi - 0xD800) * 0x400 + (lo - 0xDC00))

/-- Reading of pairs of bytes, with what cannot be read marked `none`. -/
def utf16Marks : Bytes → List (Option Char)
  | [] => []
  | [_] => [none]
  | a :: b :: rest =>
    let n := a.toNat + 256 * b.toNat
    if isLowHalf n then none :: utf16Marks rest
    else if isHighHalf n then
      match rest with
      | c :: d :: rest' =>
        let m := c.toNat + 256 * d.toNat
        if isLowHalf m then some (joinHalves n m) :: utf16Marks rest'
        else none :: utf16Marks (c :: d :: rest')
      | _ => [none]
    else some (Char.ofNat n) :: utf16Marks rest

def allRead : List (Option Char) → Option Text
  | [] => some []
  | none :: _ => none
  | some c :: ms => (allRead ms).map (c :: ·)

/-- How many continuation bytes a leading byte asks for, and the range of the first. -/
def continuation? (b : UInt8) : Option (Nat × UInt8 × UInt8) :=
  if 0xC2 ≤ b ∧ b ≤ 0xDF then some (1, 0x80, 0xBF)
  else if b = 0xE0 then some (2, 0xA0, 0xBF)
  else if b = 0xED then some (2, 0x80, 0x9F)
  else if 0xE1 ≤ b ∧ b ≤ 0xEF then some (2, 0x80, 0xBF)
  else if b = 0xF0 then some (3, 0x90, 0xBF)
  else if 0xF1 ≤ b ∧ b ≤ 0xF3 then some (3, 0x80, 0xBF)
  else if b = 0xF4 then some (3, 0x80, 0x8F)
  else none

/-- Continuation bytes that fit, at most `n`, the first within its own range. -/
def continued : (n : Nat) → (lo hi : UInt8) → Bytes → Bytes
  | 0, _, _, _ => []
  | _, _, _, [] => []
  | n + 1, lo, hi, b :: rest =>
    if lo ≤ b ∧ b ≤ hi then b :: continued n 0x80 0xBF rest else []

/-- Characters read from bytes, the replacement character for each piece that is no character. -/
def utf8Lossy : Bytes → Text
  | [] => []
  | b :: rest =>
    if b < 0x80 then Char.ofNat b.toNat :: utf8Lossy rest
    else match continuation? b with
      | none => replacement :: utf8Lossy rest
      | some (n, lo, hi) =>
        let more := continued n lo hi rest
        let c := if more.length = n then ((utf8Text? (b :: more)).bind List.head?).getD replacement
          else replacement
        c :: utf8Lossy (rest.drop more.length)
termination_by b => b.length
decreasing_by all_goals simp; try omega

def dropMark (b : Bytes) : Bytes :=
  match b with
  | 0xEF :: 0xBB :: 0xBF :: rest => rest
  | b => b

def scalar? (n : Nat) : Option Char :=
  if n < 0xD800 ∨ (0xE000 ≤ n ∧ n < 0x110000) then some (Char.ofNat n) else none

def hexDigit? (b : UInt8) : Option Nat :=
  if 0x30 ≤ b ∧ b ≤ 0x39 then some (b.toNat - 48)
  else if 0x41 ≤ b ∧ b ≤ 0x46 then some (b.toNat - 55)
  else if 0x61 ≤ b ∧ b ≤ 0x66 then some (b.toNat - 87)
  else none

/-- Where a reading of escapes stands: between two of them, right behind a backslash, or at a
number with so many digits left. -/
inductive EscapeState where
  | plain
  | opened
  | digits (left value : Nat)

namespace EscapeState

def start (b : UInt8) : List (Option Char) × EscapeState :=
  if b = 0x5C then ([], opened) else ([some (Char.ofNat b.toNat)], plain)

/-- The characters that one more byte settles. A byte that is no digit ends a number and is
then read as any other. -/
def step : EscapeState → UInt8 → List (Option Char) × EscapeState
  | plain, b => start b
  | opened, b =>
    if b = 0x75 then ([], digits 4 0)
    else if b = 0x55 then ([], digits 8 0)
    else ([some '\\', some (Char.ofNat b.toNat)], plain)
  | digits left value, b =>
    match hexDigit? b with
    | none => (none :: (start b).1, (start b).2)
    | some d =>
      if left ≤ 1 then ([scalar? (16 * value + d)], plain) else ([], digits (left - 1) (16 * value + d))

def close : EscapeState → List (Option Char)
  | plain => []
  | opened => [some '\\']
  | digits _ _ => [none]

end EscapeState

/-- Bytes as characters of their own, but for a backslash with a number behind it. -/
def escapeMarks : EscapeState → Bytes → List (Option Char)
  | e, [] => e.close
  | e, b :: rest => (e.step b).1 ++ escapeMarks (e.step b).2 rest

/-- The escape of a character that has no byte of its own. A backslash in the text is written
as it is, so what looks like an escape there becomes one. -/
def escapeBytes (c : Char) : Bytes :=
  let n := c.toNat
  if n < 0x100 then [UInt8.ofNat n]
  else if n < 0x10000 then utf8Bytes ('\\' :: 'u' :: Text.hexDigits 4 n)
  else utf8Bytes ('\\' :: 'U' :: Text.hexDigits 8 n)

end Encoding
end StyleShield
