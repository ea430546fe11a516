import StyleShield.Glob.CharSet

/-! Glob patterns and what they match. A pattern is a sequence of parts; each part
takes a beginning of the text and leaves a rest, in all the ways it can. A text
matches when some choice carries through the whole sequence; what stands after the
last part is free. -/
namespace StyleShield.Glob

inductive Token where
  | exactly (c : Char)
  | anyOne
  | anyRun
  | oneOf (set : CharSet)
  deriving DecidableEq

inductive Part where
  /-- Any number of leading directories. -/
  | anyAbove
  /-- Any number of directories in between, with the slash before them. -/
  | anyBetween
  | slash
  | segment (tokens : List Token)
  /-- A segment of any characters. -/
  | anySegment
  /-- The end of the path, with or without a slash. -/
  | close
  /-- A slash, or the end of the path. -/
  | boundary
  deriving DecidableEq

inductive Shape where
  /-- Paths that have some slash. -/
  | someSlash
  /-- Paths that have some character. -/
  | someChar
  | parts (ps : List Part)
  deriving DecidableEq

structure Pattern where
  negated : Bool
  shape : Shape
  deriving DecidableEq

def runs (allowed : Char → Bool) : Text → List Text
  | [] => [[]]
  | c :: cs => (c :: cs) :: if allowed c then runs allowed cs else []

/-- What is left after each slash of the first line. -/
def afterSlash : Text → List Text
  | [] => []
  | c :: cs => if c = '/' then cs :: afterSlash cs else if c = '\n' then [] else afterSlash cs

def notSlash (c : Char) : Bool := c ≠ '/'
def notNewline (c : Char) : Bool := c ≠ '\n'

/-- The end of the text, or of its last line. -/
def atEnd (s : Text) : Bool := s = [] || s = ['\n']

def Token.rests : Token → Text → List Text
  | anyRun, s => runs notSlash s
  | _, [] => []
  | exactly x, c :: cs => if c = x then [cs] else []
  | anyOne, c :: cs => if notSlash c then [cs] else []
  | oneOf set, c :: cs => if set.has c then [cs] else []

def restsAll : List Token → Text → List Text
  | [], s => [s]
  | t :: ts, s => (t.rests s).flatMap (restsAll ts)

def Part.rests : Part → Text → List Text
  | anyAbove, s => s :: match s with
    | [] => []
    | c :: cs => if notNewline c then afterSlash cs else []
  | anyBetween, s => s :: match s with
    | '/' :: c :: cs => if notNewline c then runs notNewline cs else []
    | _ => []
  | slash, s => match s with
    | '/' :: cs => [cs]
    | _ => []
  | segment ts, s => restsAll ts s
  | anySegment, s => match s with
    | [] => []
    | c :: cs => if notSlash c then runs notSlash cs else []
  | close, s => match s with
    | '/' :: cs => if atEnd cs then [[]] else []
    | s => if atEnd s then [[]] else []
  | boundary, s => match s with
    | '/' :: cs => [cs]
    | s => if atEnd s then [[]] else []

def matchParts : List Part → Text → Bool
  | [], _ => true
  | p :: ps, s => (p.rests s).any (matchParts ps)

@[simp] theorem matchParts_nil (s : Text) : matchParts [] s = true := rfl
theorem matchParts_cons (p : Part) (ps : List Part) (s : Text) :
    matchParts (p :: ps) s = (p.rests s).any (matchParts ps) := rfl

def Shape.fits : Shape → Text → Bool
  | someSlash, s => s.contains '/'
  | someChar, s => s.any notNewline
  | parts ps, s => matchParts ps s

/-- The candidate without one leading slash, or else without one leading dot and slash. -/
def localName : Text → Text
  | '/' :: s => s
  | '.' :: '/' :: s => s
  | s => s

/-- The last fitting pattern decides, for or against; without one, the answer is no. -/
def decides : List Pattern → Text → Bool
  | [], _ => false
  | p :: ps, s => if ps.any (·.shape.fits s) then decides ps s else p.shape.fits s && !p.negated

def matchPath (ps : List Pattern) (candidate : Text) : Bool := decides ps (localName candidate)

end StyleShield.Glob
