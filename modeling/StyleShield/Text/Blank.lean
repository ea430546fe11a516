import StyleShield.Text.Basic

/-! Blank characters: the Unicode white space characters and the four information
separators. Trimming and the gaps inside recognised rules use this one class. -/
namespace StyleShield.Text

/-- Tabs, line ends, separators, spaces of every width. -/
def isBlank (c : Char) : Bool :=
  let n := c.toNat
  (0x09 ≤ n && n ≤ 0x0D) || (0x1C ≤ n && n ≤ 0x20) || n == 0x85 || n == 0xA0 || n == 0x1680 ||
  (0x2000 ≤ n && n ≤ 0x200A) || n == 0x2028 || n == 0x2029 || n == 0x202F || n == 0x205F || n == 0x3000

def strip (s : Text) : Text := trim isBlank s

/-- Spaces and tabs, which do not end a line. -/
def isInlineBlank (c : Char) : Bool := c == ' ' || c == '\t'

end StyleShield.Text
