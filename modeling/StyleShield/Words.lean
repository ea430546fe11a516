import StyleShield.Fault

/-! Command lines as lists of words. Words stand between spaces, tabs and line ends;
quotes and backslashes keep such characters inside a word. `join` writes a line that
`split` reads back. -/
namespace StyleShield.Words

def isSeparator (c : Char) : Bool := c == ' ' || c == '\t' || c == '\r' || c == '\n'

inductive Mode where
  | plain | single | double
  deriving DecidableEq

/-- The words of a line, read on in `mode` with `word` begun, if one is. -/
def splitFrom : Mode → (word : Option Text) → Text → Except Fault (List Text)
  | .plain, word, [] => .ok word.toList
  | .single, _, [] => .error .unclosedQuote
  | .double, _, [] => .error .unclosedQuote
  | .plain, _, ['\\'] => .error .danglingEscape
  | .double, _, ['\\'] => .error .danglingEscape
  | .plain, word, '\\' :: c :: s => splitFrom .plain (some (word.getD [] ++ [c])) s
  | .double, word, '\\' :: c :: s =>
    let kept := if c = '"' ∨ c = '\\' then [c] else ['\\', c]
    splitFrom .double (some (word.getD [] ++ kept)) s
  | .plain, word, c :: s =>
    if isSeparator c then (splitFrom .plain none s).map (word.toList ++ ·)
    else if c = '\'' then splitFrom .single (some (word.getD [])) s
    else if c = '"' then splitFrom .double (some (word.getD [])) s
    else splitFrom .plain (some (word.getD [] ++ [c])) s
  | .single, word, c :: s =>
    if c = '\'' then splitFrom .plain word s else splitFrom .single (some (word.getD [] ++ [c])) s
  | .double, word, c :: s =>
    if c = '"' then splitFrom .plain word s else splitFrom .double (some (word.getD [] ++ [c])) s

def split (line : Text) : Except Fault (List Text) := splitFrom .plain none line

def isSafe (c : Char) : Bool :=
  c.isAlphanum || c ∈ ['_', '@', '%', '+', '=', ':', ',', '.', '/', '-']

/-- A single quote inside single quotes: close them, quote it with double ones, open again. -/
def quoteInside (c : Char) : Text := if c = '\'' then ['\'', '"', '\'', '"', '\''] else [c]

def quote (word : Text) : Text :=
  if word ≠ [] ∧ word.all isSafe then word
  else '\'' :: word.flatMap quoteInside ++ ['\'']

def join (words : List Text) : Text := Text.join [' '] (words.map quote)

end StyleShield.Words
