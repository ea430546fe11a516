import StyleShield.FileTree.Basic

/-! Tools that commands are made of. A tool gets arguments and an input and gives an output,
a complaint and a status; it may read the file tree but changes nothing. Text stands
for bytes here, one character for each byte. -/
namespace StyleShield.Shell

/-- Bytes as characters of the same number. -/
def textOf (b : Bytes) : Text := b.map fun x => Char.ofNat x.toNat

def bytesOf (s : Text) : Bytes := s.map fun c => UInt8.ofNat c.toNat

def argument (s : Text) : Text := textOf (Encoding.utf8Bytes s)

def spelled (s : Text) : Text := (Encoding.utf8Text? (bytesOf s)).getD s

structure Setting where
  tree : FileTree
  directory : Place

/-- What a tool did; `rest` is the input that it left. -/
structure Effect where
  output : Text
  complaint : Text
  status : Int
  rest : Text

namespace Effect

def quiet (status : Int) (rest : Text) : Effect := ⟨[], [], status, rest⟩

def refused (complaint : Text) (status : Int) (rest : Text) : Effect := ⟨[], complaint, status, rest⟩

end Effect

abbrev Tool := Setting → (arguments : List Text) → (input : Text) → Effect

namespace Tool

def reasonOf : Fault → Text
  | .system c _ => c.reason.toList
  | f => f.message

def nullFile : Text := "/dev/null".toList
def inputFiles : List Text := ["/dev/stdin".toList, "/dev/fd/0".toList]

def contents (s : Setting) (name : Text) : Except Text Text :=
  if name = [] then .error SystemError.noEntry.reason.toList
  else if name = nullFile then .ok []
  else match s.tree.read s.directory (Path.ofText (spelled name)) with
    | .ok b => .ok (textOf b)
    | .error f => .error (reasonOf f)

def isSpecial (c : Char) : Bool := " !\"$&'()*;<=>[^|\x60?\\:\t\n".toList.contains c

/-- A file name in a message: between quotes if a shell would want them. -/
def shownName (name : Text) : Text :=
  let isFirst := match name with
    | '#' :: _ | '~' :: _ => true
    | _ => false
  if !name.isEmpty && !isFirst && name.all (!isSpecial ·) then name
  else if name.contains '\'' ∧ name.all (fun c => c ∉ ['"', '$', '\x60', '\\', '!']) then ['"'] ++ name ++ ['"']
  else ['\''] ++ name.flatMap (fun c => if c = '\'' then "'\\''".toList else [c]) ++ ['\'']

/-- Each named file with its name, the input for a hyphen or without names; the input is read
once. -/
def gather (complain : Text → Text → Text) (s : Setting) : (names : List Text) → (input : Text) →
    List (Text × Text) × Text × Text
  | [], input => ([], [], input)
  | n :: ns, input =>
    if n = ['-'] ∨ inputFiles.contains n then
      let (parts, errors, rest) := gather complain s ns []
      ((n, input) :: parts, errors, rest)
    else match contents s n with
      | .ok c =>
        let (parts, errors, rest) := gather complain s ns input
        ((n, c) :: parts, errors, rest)
      | .error e =>
        let (parts, errors, rest) := gather complain s ns input
        (parts, complain n e ++ errors, rest)

def plainComplaint (tool : Text) (name reason : Text) : Text :=
  tool ++ ": ".toList ++ shownName name ++ ": ".toList ++ reason ++ ['\n']

def orInput (names : List Text) : List Text := if names = [] then [['-']] else names

def lines : Text → List Text
  | [] => []
  | '\n' :: s => ['\n'] :: lines s
  | c :: s => match lines s with
    | [] => [[c]]
    | l :: ls => if s = [] then [[c]] else (c :: l) :: ls

def withoutNewline (l : Text) : Text := if l.getLast? = some '\n' then l.dropLast else l

/-! ### Options -/

inductive OptionFault where
  | invalid (c : Char)
  | unrecognized (word : Text)
  | needsValue (c : Char)
  deriving DecidableEq

def OptionFault.message (tool : Text) (f : OptionFault) : Text :=
  tool ++ ": ".toList ++ (match f with
    | invalid c => "invalid option -- '".toList ++ [c]
    | unrecognized w => "unrecognized option '".toList ++ w
    | needsValue c => "option requires an argument -- '".toList ++ [c]) ++
    (match f with
    | needsValue _ => "'".toList
    | _ => "'".toList) ++ ['\n']

structure Options where
  plain : List Char
  valued : List Char
  long : List (String × Char)

/-- One word of short options: each with its value, and a last one that still needs its value. -/
def readCluster (o : Options) : Text → Except OptionFault (List (Char × Text) × Option Char)
  | [] => .ok ([], none)
  | c :: cs =>
    if c ∈ o.valued then .ok (if cs = [] then ([], some c) else ([(c, cs)], none))
    else if c ∈ o.plain then do
      let (more, open?) ← readCluster o cs
      return ((c, []) :: more, open?)
    else .error (.invalid c)

/-- Options and operands of a command, in any order; after two hyphens all are operands. -/
def readOptions (o : Options) : List Text → Except OptionFault (List (Char × Text) × List Text)
  | [] => .ok ([], [])
  | ['-', '-'] :: rest => .ok ([], rest)
  | ('-' :: '-' :: name) :: rest =>
    let key := name.takeWhile (· ≠ '=')
    match o.long.find? fun e => e.1.toList = key with
    | none => .error (.unrecognized ('-' :: '-' :: name))
    | some (_, c) => do
      let (more, names) ← readOptions o rest
      return ((c, (name.dropWhile (· ≠ '=')).drop 1) :: more, names)
  | ('-' :: c :: cs) :: rest => do
    let (found, open?) ← readCluster o (c :: cs)
    match open?, rest with
    | none, rest => do
      let (more, names) ← readOptions o rest
      return (found ++ more, names)
    | some c, v :: rest => do
      let (more, names) ← readOptions o rest
      return (found ++ (c, v) :: more, names)
    | some c, [] => .error (.needsValue c)
  | w :: rest => do
    let (more, names) ← readOptions o rest
    return (more, w :: names)

def hint (tool : Text) : Text := "Try '".toList ++ tool ++ " --help' for more information.\n".toList

/-! ### Copying -/

structure CatOptions where
  numbers : Bool
  numbersFilled : Bool
  squeezes : Bool
  showsEnds : Bool
  showsTabs : Bool
  showsOthers : Bool

def CatOptions.of (given : List Char) : CatOptions :=
  let any (cs : List Char) : Bool := given.any (cs.contains ·)
  ⟨any ['n'], any ['b'], any ['s'], any ['A', 'e', 'E'], any ['A', 't', 'T'], any ['A', 'v', 'e', 't']⟩

def caret (c : Char) : Text :=
  let low (n : Nat) : Text :=
    if n < 32 then ['^', Char.ofNat (n + 64)] else if n = 127 then ['^', '?'] else [Char.ofNat n]
  if c.toNat < 128 then low c.toNat else ['M', '-'] ++ low (c.toNat - 128)

def CatOptions.showChar (o : CatOptions) (c : Char) : Text :=
  if c = '\t' then (if o.showsTabs then ['^', 'I'] else ['\t'])
  else if o.showsOthers then caret c else [c]

/-- Lines shown as the options ask; `number` is the last number given, and `wasEmpty` says whether
the line before was empty. -/
def CatOptions.showLines (o : CatOptions) : (number : Nat) → (wasEmpty : Bool) → List Text → Text
  | _, _, [] => []
  | number, wasEmpty, l :: ls =>
    let isEmpty := l = ['\n']
    if o.squeezes && isEmpty && wasEmpty then showLines o number true ls
    else
      let counts := if o.numbersFilled then !isEmpty else o.numbers
      let n := if counts then number + 1 else number
      let digits := Text.ofNat n
      let label := if counts then List.replicate (6 - digits.length) ' ' ++ digits ++ ['\t'] else []
      let ending := if l.getLast? = some '\n' then (if o.showsEnds then ['$', '\n'] else ['\n']) else []
      label ++ (withoutNewline l).flatMap o.showChar ++ ending ++ showLines o n isEmpty ls

def catOptions : Options :=
  ⟨"AbeEnstTuv".toList, [],
   [("show-all", 'A'), ("number-nonblank", 'b'), ("show-ends", 'E'), ("number", 'n'),
    ("squeeze-blank", 's'), ("show-tabs", 'T'), ("show-nonprinting", 'v')]⟩

def cat : Tool := fun s args input =>
  let name := "cat".toList
  match readOptions catOptions args with
  | .error f => .refused (f.message name ++ hint name) 1 input
  | .ok (given, names) =>
    let (parts, errors, rest) := gather (plainComplaint name) s (orInput names) input
    let all := (parts.map Prod.snd).flatten
    let output := if given.all fun g => g.1 = 'u' then all
      else (CatOptions.of (given.map Prod.fst)).showLines 0 false (lines all)
    ⟨output, errors, if errors = [] then 0 else 1, rest⟩

/-! ### Exchanging characters -/

def inQuotes (s : Text) : Text := argument ['‘'] ++ s ++ argument ['’']

def escaped : Char → Char
  | 'n' => '\n' | 't' => '\t' | 'r' => '\r' | 'a' => '\x07' | 'b' => '\x08' | 'f' => '\x0c'
  | 'v' => '\x0b' | c => c

def octalDigits (limit : Nat) (s : Text) : Text :=
  (s.take limit).takeWhile fun c => '0' ≤ c && c ≤ '7'

def octal (ds : Text) : Char := Char.ofNat (ds.foldl (fun n c => 8 * n + (c.toNat - 48)) 0 % 256)

def charsBetween (a b : Char) : Text :=
  (List.range (b.toNat + 1 - a.toNat)).map fun i => Char.ofNat (a.toNat + i)

def classSets : List (String × Text) :=
  [("upper", charsBetween 'A' 'Z'), ("lower", charsBetween 'a' 'z'), ("digit", charsBetween '0' '9'),
   ("alpha", charsBetween 'A' 'Z' ++ charsBetween 'a' 'z'),
   ("alnum", charsBetween '0' '9' ++ charsBetween 'A' 'Z' ++ charsBetween 'a' 'z'),
   ("space", charsBetween '\t' '\r' ++ [' ']), ("blank", ['\t', ' ']),
   ("punct", charsBetween '!' '/' ++ charsBetween ':' '@' ++ charsBetween '[' '\x60' ++ charsBetween '\x7b' '~'),
   ("cntrl", charsBetween '\x00' '\x1f' ++ ['\x7f']), ("print", charsBetween ' ' '~'),
   ("graph", charsBetween '!' '~'), ("xdigit", charsBetween '0' '9' ++ charsBetween 'A' 'F' ++ charsBetween 'a' 'f')]

inductive SetItem where
  | char (c : Char)
  | hyphen
  | all (cs : Text)

inductive SetFault where
  | reversed (a b : Char)
  | unknownClass (name : Text)

def SetFault.message : SetFault → Text
  | reversed a b => "tr: range-endpoints of '".toList ++ [a, '-', b] ++
      "' are in reverse collating sequence order\n".toList
  | unknownClass name => "tr: invalid character class ".toList ++ inQuotes name ++ ['\n']

/-- The items that a set is written with; an unescaped hyphen is kept apart. -/
def setItems : (fuel : Nat) → Text → Except SetFault (List SetItem)
  | 0, _ => .ok []
  | _, [] => .ok []
  | fuel + 1, '[' :: ':' :: s =>
    let name := s.takeWhile (· ≠ ':')
    match s.dropWhile (· ≠ ':'), classSets.find? fun e => e.1.toList = name with
    | ':' :: ']' :: r, some (_, cs) => (setItems fuel r).map (.all cs :: ·)
    | ':' :: ']' :: _, none => .error (.unknownClass name)
    | _, _ => (setItems fuel (':' :: s)).map (.char '[' :: ·)
  | fuel + 1, '\\' :: c :: s =>
    let ds := octalDigits 3 (c :: s)
    if ds = [] then (setItems fuel s).map (.char (escaped c) :: ·)
    else (setItems fuel ((c :: s).drop ds.length)).map (.char (octal ds) :: ·)
  | fuel + 1, '-' :: s => (setItems fuel s).map (.hyphen :: ·)
  | fuel + 1, c :: s => (setItems fuel s).map (.char c :: ·)

def setChars : List SetItem → Except SetFault Text
  | .char a :: .hyphen :: .char b :: rest =>
    if b < a then .error (.reversed a b)
    else (setChars rest).map (charsBetween a b ++ ·)
  | .char a :: .hyphen :: .hyphen :: rest =>
    if '-' < a then .error (.reversed a '-')
    else (setChars rest).map (charsBetween a '-' ++ ·)
  | .char c :: rest => (setChars rest).map (c :: ·)
  | .hyphen :: rest => (setChars rest).map ('-' :: ·)
  | .all cs :: rest => (setChars rest).map (cs ++ ·)
  | [] => .ok []

def readSet (s : Text) : Except SetFault Text := (setItems (s.length + 1) s).bind setChars

def complement (set : Text) : Text := (charsBetween '\x00' '\xff').filter fun c => c ∉ set

/-- The counterpart of a character; the last one of a short second set serves for the rest, and
of several places in the first set the last one counts. -/
def counterpart : (left right : Text) → (last c : Char) → Char
  | [], _, _, c => c
  | a :: left, b :: right, _, c => if a = c ∧ a ∉ left then b else counterpart left right b c
  | a :: left, [], last, c => if a = c then last else counterpart left [] last c

def squeeze (set : Text) : Text → Text
  | a :: b :: s => if a = b ∧ a ∈ set then squeeze set (b :: s) else a :: squeeze set (b :: s)
  | s => s

def exchangeOptions : Options :=
  ⟨"cCdst".toList, [], [("complement", 'c'), ("delete", 'd'), ("squeeze-repeats", 's'), ("truncate-set1", 't')]⟩

/-- How many sets a call wants, and what to say if there are too few or too many. -/
def exchangeRefusal (deletes squeezes : Bool) (operands : List Text) : Option Text :=
  let name := "tr: ".toList
  let atLeast := if deletes = squeezes then 2 else 1
  let atMost := if deletes && !squeezes then 1 else 2
  match operands with
  | [] => some (name ++ "missing operand\n".toList ++ hint "tr".toList)
  | _ =>
    if operands.length < atLeast then
      some (name ++ "missing operand after ".toList ++ inQuotes (operands.getLast?.getD []) ++ ['\n'] ++
        (if deletes then "Two strings must be given when both deleting and squeezing repeats.\n"
          else "Two strings must be given when translating.\n").toList ++ hint "tr".toList)
    else match operands.drop atMost with
      | [] => none
      | extra :: _ => some (name ++ "extra operand ".toList ++ inQuotes extra ++ ['\n'] ++
          (if deletes && operands.length = 2 then
            "Only one string may be given when deleting without squeezing repeats.\n".toList else []) ++
          hint "tr".toList)

def exchangeSets (deletes squeezes complements truncates : Bool) (left right : Text) (hasRight : Bool)
    (input : Text) : Text :=
  let left := if complements then complement left else left
  if deletes then
    let kept := input.filter fun c => c ∉ left
    if squeezes then squeeze right kept else kept
  else if hasRight then
    let left := if truncates then left.take right.length else left
    let out := input.map (counterpart left right 'x')
    if squeezes then squeeze right out else out
  else squeeze left input

def exchange : Tool := fun _ args input =>
  let name := "tr".toList
  match readOptions exchangeOptions args with
  | .error f => .refused (f.message name ++ hint name) 1 input
  | .ok (given, operands) =>
    let has (c : Char) : Bool := given.any fun g => g.1 = c
    match exchangeRefusal (has 'd') (has 's') operands with
    | some refusal => .refused refusal 1 input
    | none =>
      let hasRight := operands.length = 2
      match readSet (operands.head?.getD []), readSet (operands[1]?.getD []) with
      | .ok left, .ok right =>
        if hasRight && !has 'd' && right = [] && left ≠ [] then
          .refused "tr: when not truncating set1, string2 must be non-empty\n".toList 1 input
        else ⟨exchangeSets (has 'd') (has 's') (has 'c' || has 'C') (has 't') left right hasRight input, [], 0, []⟩
      | .error f, _ | _, .error f => .refused f.message 1 input

/-! ### The rest -/

def pwd : Tool := fun s _ input => ⟨argument (FileTree.pathOf s.directory).text ++ ['\n'], [], 0, input⟩

def succeed : Tool := fun _ _ input => .quiet 0 input

def failing : Tool := fun _ _ input => .quiet 1 input

end Tool
end StyleShield.Shell
