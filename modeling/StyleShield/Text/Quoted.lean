import StyleShield.Text.Basic
import StyleShield.Text.Printable
import StyleShield.Text.WordChar

/-! Quoted text for messages. The text stands between single quotes, or between
double quotes when it holds a single quote and no double one. Line ends, tabs,
backslashes, the quote in use and characters that cannot be shown are escaped. -/
namespace StyleShield.Text

def hexDigits (width n : Nat) : Text :=
  let ds := Nat.toDigits 16 n
  List.replicate (width - ds.length) '0' ++ ds

def quoteMark (s : Text) : Char := if '\'' ∈ s ∧ '"' ∉ s then '"' else '\''

def escapeChar (mark c : Char) : Text :=
  if c = mark ∨ c = '\\' then ['\\', c]
  else if c = '\n' then ['\\', 'n']
  else if c = '\r' then ['\\', 'r']
  else if c = '\t' then ['\\', 't']
  else if isPrintable c then [c]
  else
    let n := c.toNat
    if n ≤ 0xFF then '\\' :: 'x' :: hexDigits 2 n
    else if n ≤ 0xFFFF then '\\' :: 'u' :: hexDigits 4 n
    else '\\' :: 'U' :: hexDigits 8 n

def quoted (s : Text) : Text :=
  let mark := quoteMark s
  mark :: s.flatMap (escapeChar mark) ++ [mark]

/-- Characters that need no quotes around them in a path. -/
def isPlain (c : Char) : Bool := isWordChar c || "@%+=:,./~-".toList.contains c

def quotedIfNeeded (s : Text) : Text := if s ≠ [] ∧ s.all isPlain then s else quoted s

end StyleShield.Text
