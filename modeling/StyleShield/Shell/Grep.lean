import StyleShield.Shell.Regex
import StyleShield.Shell.Tool

/-! Picking lines that match. A pattern of several lines is a choice of patterns. -/
namespace StyleShield.Shell.Tool

structure GrepOptions where
  given : List (Char × Text)

namespace GrepOptions

def has (o : GrepOptions) (c : Char) : Bool := o.given.any fun g => g.1 = c

def inverted (o : GrepOptions) : Bool := o.has 'v'
def folds (o : GrepOptions) : Bool := o.has 'i' || o.has 'y'

def most? (o : GrepOptions) : Option Nat :=
  (o.given.find? fun g => g.1 = 'm').bind fun g => (Regex.readNumber g.2).1

/-- The last option that says how patterns are read decides. -/
def reading (o : GrepOptions) : Char :=
  (((o.given.map Prod.fst).filter fun c => "FEGP".toList.contains c).getLast?).getD 'G'

/-- The pattern for one line of a pattern text, held to whole words or whole lines if asked. -/
def patternOf (o : GrepOptions) (s : Text) : Except Regex.Fault Regex := do
  let r ← if o.reading = 'F' then pure (Regex.literal s)
    else (Regex.ofText ⟨o.reading ≠ 'G', true⟩ s).map Prod.fst
  let r := if o.has 'w' then .both (.wordEdge .start) (.both r (.wordEdge .finish)) else r
  return if o.has 'x' then .both .lineStart (.both r .lineEnd) else r

def patternsOf (o : GrepOptions) : List Text → Except Regex.Fault Regex
  | [] => .ok .nothing
  | [s] => o.patternOf s
  | s :: ss => do
    let r ← o.patternOf s
    let r' ← o.patternsOf ss
    return .either r r'

end GrepOptions

def grepOptions : Options :=
  ⟨"viyqcnFEGPowxlLhHsaIrRzU".toList, "emABC".toList,
   [("invert-match", 'v'), ("ignore-case", 'i'), ("quiet", 'q'), ("silent", 'q'), ("count", 'c'),
    ("line-number", 'n'), ("fixed-strings", 'F'), ("extended-regexp", 'E'), ("basic-regexp", 'G'),
    ("only-matching", 'o'), ("word-regexp", 'w'), ("line-regexp", 'x'), ("files-with-matches", 'l'),
    ("files-without-match", 'L'), ("no-filename", 'h'), ("with-filename", 'H'), ("no-messages", 's'),
    ("text", 'a'), ("regexp", 'e'), ("max-count", 'm')]⟩

def grepUsage : Text := "Usage: grep [OPTION]... PATTERNS [FILE]...\nTry 'grep --help' for more information.\n".toList

def matchesIn (r : Regex) (fold : Bool) : (fuel : Nat) → Spot → List Text
  | 0, _ => []
  | fuel + 1, s => match r.find? fold s with
    | none => []
    | some (b, e) =>
      if e.rest.length = b.rest.length then
        if e.rest = [] then [] else matchesIn r fold fuel e.step
      else b.since e :: matchesIn r fold fuel e

def picked (o : GrepOptions) (r : Regex) (contents : Text) : List (Text × Nat) :=
  let all := ((lines contents).map withoutNewline).zipIdx 1
  let chosen := all.filter fun l => r.occursIn o.folds l.1 != o.inverted
  match o.most? with
  | some n => chosen.take n
  | none => chosen

def reportFor (o : GrepOptions) (r : Regex) (label : Text) (chosen : List (Text × Nat)) : Text :=
  let mark (sign : Char) : Text := if label = [] then [] else label ++ [sign]
  if o.has 'q' then []
  else if o.has 'l' || o.has 'L' then []
  else if o.has 'c' then mark ':' ++ Text.ofNat chosen.length ++ ['\n']
  else chosen.flatMap fun (l, i) =>
    let front := mark ':' ++ if o.has 'n' then Text.ofNat i ++ [':'] else []
    if o.has 'o' then
      if o.inverted then []
      else (matchesIn r o.folds (l.length + 1) (Spot.start l)).flatMap fun m => front ++ m ++ ['\n']
    else front ++ l ++ ['\n']

def sourceName (n : Text) : Text := if n = ['-'] then "(standard input)".toList else n

def grepWith (o : GrepOptions) (patterns names : List Text) (s : Setting) (input : Text) : Effect :=
  let lines := patterns.flatMap (Text.splitOn '\n')
  match o.patternsOf lines, o.patternsOf (lines.map spelled) with
  | .error f, _ | _, .error f =>
    .refused ("grep: ".toList ++ f.message.toList ++ ['\n']) 2 input
  | .ok byBytes, .ok byChars =>
    let (parts, errors, rest) := gather (fun n e =>
      if o.has 's' then ['\x00'] else "grep: ".toList ++ n ++ ": ".toList ++ e ++ ['\n']) s (orInput names) input
    let failed := errors ≠ []
    let named := (o.has 'H' || 1 < names.length) && !o.has 'h'
    let results := parts.map fun (n, c) =>
      let label := if named then sourceName n else []
      match Encoding.utf8Text? (bytesOf c) with
      | some t =>
        let chosen := picked o byChars t
        (n, !chosen.isEmpty, argument (reportFor o byChars (spelled label) chosen))
      | none =>
        let chosen := picked o byBytes c
        (n, !chosen.isEmpty, reportFor o byBytes label chosen)
    let listed (wanted : Bool) : Text :=
      results.flatMap fun (n, hit, _) => if hit = wanted then sourceName n ++ ['\n'] else []
    let hit := results.any fun r => r.2.1
    let output := if o.has 'q' then [] else if o.has 'l' then listed true else if o.has 'L' then listed false
      else results.flatMap fun r => r.2.2
    let status : Int := if failed ∧ ¬(o.has 'q' ∧ hit) then 2 else if hit then 0 else 1
    ⟨output, errors.filter (· ≠ '\x00'), status, rest⟩

def grep : Tool := fun s args input =>
  match readOptions grepOptions args with
  | .error f => .refused (f.message "grep".toList ++ grepUsage) 2 input
  | .ok (given, operands) =>
    let o : GrepOptions := ⟨given⟩
    let typed := (given.filter fun g => g.1 = 'e').map Prod.snd
    match typed, operands with
    | [], [] => .refused grepUsage 2 input
    | [], pattern :: names => grepWith o [pattern] names s input
    | typed, names => grepWith o typed names s input

end StyleShield.Shell.Tool
