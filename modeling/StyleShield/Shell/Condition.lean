import StyleShield.Shell.Tool

/-! Conditions on words, numbers and files. -/
namespace StyleShield.Shell.Condition

inductive Cause where
  | missingBracket
  | unexpectedOperator (word : Text)
  | missingArgument (operator : Text)
  | openParenthesis
  | illegalNumber (word : Text)
  deriving DecidableEq

def Cause.message : Cause → Text
  | missingBracket => "missing ]".toList
  | unexpectedOperator w => w ++ ": unexpected operator".toList
  | missingArgument o => o ++ ": argument expected".toList
  | openParenthesis => "closing paren expected".toList
  | illegalNumber w => "Illegal number: ".toList ++ w

def fileSigns : List Text := ["-r", "-w", "-x", "-e", "-f", "-d", "-s", "-h", "-L", "-b", "-c", "-p", "-S", "-u",
  "-g", "-k", "-O", "-G", "-t"].map String.toList

def wordSigns : List Text := ["-z", "-n"].map String.toList

def numberSigns : List Text := ["-eq", "-ne", "-lt", "-le", "-gt", "-ge"].map String.toList

def otherSigns : List Text := ["=", "!=", "<", ">", "-nt", "-ot", "-ef"].map String.toList

def isBetween (w : Text) : Bool := numberSigns.contains w || otherSigns.contains w
def isFront (w : Text) : Bool := fileSigns.contains w || wordSigns.contains w

def numberOf (w : Text) : Except Cause Int :=
  let isBlank (c : Char) : Bool := c == ' ' || ('\t' ≤ c && c ≤ '\r')
  let s := Text.trim isBlank w
  let (negative, ds) := match s with
    | '-' :: r => (true, r)
    | '+' :: r => (false, r)
    | r => (false, r)
  let n : Nat := ds.foldl (fun n c => 10 * n + (c.toNat - 48)) 0
  if ds ≠ [] ∧ ds.all Char.isDigit then .ok (if negative then -n else n) else .error (.illegalNumber w)

def compareNumbers (sign : Text) (a b : Int) : Bool :=
  match String.ofList sign with
  | "-eq" => a == b
  | "-ne" => a != b
  | "-lt" => a < b
  | "-le" => a ≤ b
  | "-gt" => b < a
  | _ => b ≤ a

def compare (sign a b : Text) : Except Cause Bool :=
  if numberSigns.contains sign then do
    let n ← numberOf a
    let m ← numberOf b
    return compareNumbers sign n m
  else match String.ofList sign with
    | "=" => .ok (a == b)
    | "!=" => .ok (a != b)
    | "<" => .ok (Path.compareText a b == .lt)
    | ">" => .ok (Path.compareText a b == .gt)
    | _ => .ok false

def isLink (s : Setting) (p : Path) : Bool :=
  match s.tree.locateSelf s.directory p with
  | .ok place => match s.tree.entryAt? place with
    | some (.link _) => true
    | _ => false
  | .error _ => false

def holdsOf (s : Setting) (sign a : Text) : Bool :=
  let p := Path.ofText (spelled a)
  let isNull := a = Tool.nullFile
  let entry := if a = [] then none else (s.tree.find s.directory p).toOption
  match String.ofList sign with
  | "-z" => a == []
  | "-n" => a != []
  | "-t" => false
  | "-h" | "-L" => a != [] && isLink s p
  | "-f" => match entry with
    | some (.file _) => true
    | _ => false
  | "-d" => entry == some .directory
  | "-x" => entry == some .directory
  | "-s" => match entry with
    | some (.file b) => b != []
    | some _ => true
    | none => false
  | "-c" => isNull
  | "-b" | "-p" | "-S" | "-u" | "-g" | "-k" => false
  | _ => entry.isSome || isNull

/-- Whether a sign in front is meant as a word because of what follows it. -/
def isOperand : List Text → Bool
  | [] => true
  | [_] => false
  | sign :: _ => isBetween sign

abbrev Step := Except Cause (Bool × Text × List Text)

mutual
/-- A condition in one of its plain forms; with its value come the last word taken and the rest. -/
def primary (s : Setting) : (fuel : Nat) → List Text → Step
  | 0, _ => .ok (false, [], [])
  | _, [] => .ok (false, [], [])
  | fuel + 1, w :: ws =>
    if w = ['('] ∧ ws ≠ [] then
      match ws with
      | [')'] :: rest => .ok (false, [')'], rest)
      | ws => do
        let (v, _, rest) ← disjunction s fuel ws
        match rest with
        | [')'] :: rest => return (v, [')'], rest)
        | _ => .error .openParenthesis
    else if isFront w && !isOperand ws then
      match ws with
      | a :: rest => .ok (holdsOf s w a, a, rest)
      | [] => .error (.missingArgument w)
    else match ws with
      | sign :: rest =>
        if isBetween sign then match rest with
          | b :: rest => do
            let v ← compare sign w b
            return (v, b, rest)
          | [] => .error (.missingArgument sign)
        else .ok (w ≠ [], w, ws)
      | [] => .ok (w ≠ [], w, [])

def negation (s : Setting) : (fuel : Nat) → List Text → Step
  | 0, _ => .ok (false, [], [])
  | fuel + 1, ws => match ws with
    | ['!'] :: rest => do
      let (v, last, rest) ← negation s fuel rest
      return (!v, last, rest)
    | ws => primary s fuel ws

def conjunction (s : Setting) : (fuel : Nat) → List Text → Step
  | 0, _ => .ok (false, [], [])
  | fuel + 1, ws => do
    let (v, last, rest) ← negation s fuel ws
    match rest with
    | ['-', 'a'] :: rest => do
      let (u, last, rest) ← conjunction s fuel rest
      return (v && u, last, rest)
    | rest => return (v, last, rest)

def disjunction (s : Setting) : (fuel : Nat) → List Text → Step
  | 0, _ => .ok (false, [], [])
  | fuel + 1, ws => do
    let (v, last, rest) ← conjunction s fuel ws
    match rest with
    | ['-', 'o'] :: rest => do
      let (u, last, rest) ← disjunction s fuel rest
      return (v || u, last, rest)
    | rest => return (v, last, rest)
end

/-- Three and four words have their own reading before the general one. -/
def holds (s : Setting) : (fuel : Nat) → List Text → Except Cause Bool
  | 0, _ => .ok false
  | fuel + 1, ws =>
    let whole : Except Cause Bool := do
      let (v, last, rest) ← disjunction s (4 * ws.length + 8) ws
      if rest = [] then return v else .error (.unexpectedOperator last)
    match ws with
    | [] => .ok false
    | [a, sign, b] =>
      if isBetween sign then compare sign a b
      else if a = ['('] ∧ b = [')'] then holds s fuel [sign]
      else if a = ['!'] then (holds s fuel [sign, b]).map (!·)
      else whole
    | [a, b, c, d] =>
      if a = ['('] ∧ d = [')'] then holds s fuel [b, c]
      else if a = ['!'] then (holds s fuel [b, c, d]).map (!·)
      else whole
    | _ => whole

/-- A condition from its words; in brackets the last word is the closing one. -/
def ofWords (s : Setting) (inBrackets : Bool) (ws : List Text) : Except Cause Bool :=
  if inBrackets then
    if ws.getLast? = some [']'] then holds s 4 ws.dropLast else .error .missingBracket
  else holds s 4 ws

end StyleShield.Shell.Condition
