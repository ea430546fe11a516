import StyleShield.Shell.Regex
import StyleShield.Shell.Tool

/-! Editing lines by a script. The script is read into a list of commands with selectors;
blocks and labels are commands too, and a jump goes on at another command. The lines
are worked on one after another in a space that commands change and print. -/
namespace StyleShield.Shell.Sed

inductive Address where
  | line (n : Nat)
  | last
  | matching (r : Regex) (fold : Bool)
  | every (first step : Nat)
  | after (count : Nat)

inductive Selector where
  | all
  | one (a : Address)
  | range (a b : Address)

/-- A part of a replacement: a character, or what a group matched; group 0 is the match. -/
inductive Part where
  | char (c : Char)
  | group (n : Nat)

inductive Act where
  | substitute (r : Regex) (fold : Bool) (parts : List Part) (which : Nat) (everywhere shows : Bool)
  | exchange (left right : Text)
  | delete | deleteFirst | print | printFirst | number
  | quit (status : Nat) (silently : Bool)
  | append (t : Text) | insert (t : Text) | change (t : Text)
  | next | nextInto
  | hold | holdInto | get | getInto | swap
  | label (name : Text) | jump (name : Text) | jumpIfChanged (name : Text)
  | openBlock | closeBlock

structure Command where
  selector : Selector
  inverted : Bool
  act : Act

/-! ### Reading -/

/-- What is wrong with a script, and how much of it was left. -/
structure Fault where
  message : Text
  left : Nat

abbrev Reading (α : Type) := Text → Except Fault (α × Text)

def fail {α : Type} (message : String) (rest : Text) : Except Fault α := .error ⟨message.toList, rest.length⟩

def bracketed (s : Text) : Text × Text :=
  let (front, s) := match s with
    | '^' :: ']' :: r => (['^', ']'], r)
    | ']' :: r => ([']'], r)
    | r => ([], r)
  (front ++ s.takeWhile (· ≠ ']'), s.dropWhile (· ≠ ']'))

/-- The text up to a delimiter. In a pattern a delimiter in brackets does not count. -/
def upTo (delimiter : Char) (isPattern : Bool) : (fuel : Nat) → Text → Option (Text × Text)
  | 0, _ => none
  | _, [] => none
  | fuel + 1, '\\' :: c :: s =>
    (upTo delimiter isPattern fuel s).map fun (t, r) => (if c = delimiter then c :: t else '\\' :: c :: t, r)
  | fuel + 1, c :: s =>
    if c = delimiter then some ([], s)
    else if isPattern ∧ c = '[' then
      let (set, r) := bracketed s
      (upTo delimiter isPattern fuel r).map fun (t, r) => ('[' :: set ++ t, r)
    else (upTo delimiter isPattern fuel s).map fun (t, r) => (c :: t, r)

def replacementParts : Text → List Part
  | '\\' :: c :: s =>
    (if c.isDigit then .group (c.toNat - 48) else if c = 'n' then .char '\n' else if c = 't' then .char '\t'
      else .char c) :: replacementParts s
  | '&' :: s => .group 0 :: replacementParts s
  | c :: s => .char c :: replacementParts s
  | [] => []

def highestGroup (parts : List Part) : Nat :=
  parts.foldl (fun n p => match p with
    | .group m => max n m
    | .char _ => n) 0

def isCommandEnd (c : Char) : Bool := c == ';' || c == '\n' || c == '}' || c == '#'

def isGap (c : Char) : Bool := c == ' ' || c == '\t'

/-- The end of a command: its separator is taken, a closing brace and a comment are left. -/
def endOfCommand : Reading Unit := fun s =>
  match s.dropWhile isGap with
  | [] => .ok ((), [])
  | c :: r =>
    if c = ';' ∨ c = '\n' then .ok ((), r)
    else if c = '}' ∨ c = '#' then .ok ((), c :: r)
    else fail "extra characters after command" r

structure SubstituteFlags where
  fold : Bool
  everywhere : Bool
  shows : Bool
  which : Nat

def substituteFlags : (fuel : Nat) → SubstituteFlags → Reading SubstituteFlags
  | 0, f, s => .ok (f, s)
  | _, f, [] => .ok (f, [])
  | fuel + 1, f, c :: s =>
    if c = 'g' then
      if f.everywhere then fail "multiple \x60g' options to \x60s' command" s
      else substituteFlags fuel { f with everywhere := true } s
    else if c = 'p' then
      if f.shows then fail "multiple \x60p' options to \x60s' command" s
      else substituteFlags fuel { f with shows := true } s
    else if c = 'i' ∨ c = 'I' then substituteFlags fuel { f with fold := true } s
    else if c = 'm' ∨ c = 'M' then substituteFlags fuel f s
    else if c.isDigit then
      let (n, r) := Regex.readNumber (c :: s)
      if n = some 0 then fail "number option to \x60s' command may not be zero" s
      else if 0 < f.which then fail "multiple number options to \x60s' command" s
      else substituteFlags fuel { f with which := n.getD 1 } r
    else if isCommandEnd c ∨ isGap c then
      (endOfCommand (c :: s)).map fun ((), r) => (f, r)
    else fail "unknown option to \x60s'" s

def regexOf (extended : Bool) (pattern rest : Text) : Except Fault (Regex × Nat) :=
  match Regex.ofText ⟨extended, false⟩ pattern with
  | .ok r => .ok r
  | .error f => fail f.message rest

def substitution (extended : Bool) : Reading Act := fun s =>
  let unterminated : Except Fault (Act × Text) := fail "unterminated \x60s' command" []
  match s with
  | [] => unterminated
  | d :: s => match upTo d true (s.length + 1) s with
    | none => unterminated
    | some (pattern, s) => match upTo d false (s.length + 1) s with
      | none => unterminated
      | some (replacement, s) => do
        let (f, r) ← substituteFlags (s.length + 1) ⟨false, false, false, 0⟩ s
        let parts := replacementParts replacement
        let (regex, groups) ← regexOf extended pattern r
        if groups < highestGroup parts then
          .error ⟨"invalid reference \\".toList ++ Text.ofNat (highestGroup parts) ++
            " on \x60s' command's RHS".toList, r.length⟩
        return (.substitute regex f.fold parts (max f.which 1) f.everywhere f.shows, r)

def plainSet : Text → Text
  | '\\' :: 'n' :: s => '\n' :: plainSet s
  | '\\' :: c :: s => c :: plainSet s
  | c :: s => c :: plainSet s
  | [] => []

def exchange : Reading Act := fun s =>
  let unterminated : Except Fault (Act × Text) := fail "unterminated \x60y' command" []
  match s with
  | [] => unterminated
  | d :: s => match upTo d false (s.length + 1) s with
    | none => unterminated
    | some (left, s) => match upTo d false (s.length + 1) s with
      | none => unterminated
      | some (right, s) =>
        let (left, right) := (plainSet left, plainSet right)
        if left.length ≠ right.length then fail "strings for \x60y' command are different lengths" s
        else do
          let ((), r) ← endOfCommand s
          return (.exchange left right, r)

def addedText : Text → Text × Text
  | '\\' :: c :: s => let (t, r) := addedText s; (c :: t, r)
  | '\n' :: s => (['\n'], s)
  | c :: s => let (t, r) := addedText s; (c :: t, r)
  | [] => (['\n'], [])

def addition (make : Text → Act) : Reading Act := fun s =>
  match s.dropWhile isGap with
  | [] => fail "expected \\ after \x60a', \x60c' or \x60i'" []
  | '\\' :: s =>
    let s := match s.dropWhile isGap with
      | '\n' :: r => r
      | _ => s
    let (t, r) := addedText s
    .ok (make t, r)
  | s =>
    let (t, r) := addedText s
    .ok (make t, r)

def isLabelEnd (c : Char) : Bool := c == '\n' || c == ';' || c == '}'

def labelName (s : Text) : Text × Text :=
  let s := s.dropWhile isGap
  let name := s.takeWhile (!isLabelEnd ·)
  (Text.trimEnd isGap name, (s.drop name.length))

def plainCommand? : Char → Option Act
  | 'd' => some .delete | 'D' => some .deleteFirst | 'p' => some .print | 'P' => some .printFirst
  | '=' => some .number | 'n' => some .next | 'N' => some .nextInto | 'h' => some .hold
  | 'H' => some .holdInto | 'g' => some .get | 'G' => some .getInto | 'x' => some .swap
  | _ => none

def readAct (extended : Bool) : Reading Act := fun s =>
  match s with
  | [] => fail "missing command" []
  | 's' :: s => substitution extended s
  | 'y' :: s => exchange s
  | 'a' :: s => addition .append s
  | 'i' :: s => addition .insert s
  | 'c' :: s => addition .change s
  | '\x7b' :: s => .ok (.openBlock, s)
  | '\x7d' :: s => (endOfCommand s).map fun ((), r) => (.closeBlock, r)
  | ':' :: s =>
    let (name, r) := labelName s
    if name = [] then fail "\":\" lacks a label" r else .ok (.label name, r)
  | 'b' :: s => let (name, r) := labelName s; (endOfCommand r).map fun ((), r) => (.jump name, r)
  | 't' :: s => let (name, r) := labelName s; (endOfCommand r).map fun ((), r) => (.jumpIfChanged name, r)
  | 'q' :: s => quitting false s
  | 'Q' :: s => quitting true s
  | c :: s => match plainCommand? c with
    | some act => (endOfCommand s).map fun ((), r) => (act, r)
    | none => .error ⟨"unknown command: \x60".toList ++ [c, '\''], s.length⟩
where
  quitting (silently : Bool) : Reading Act := fun s =>
    let (n, r) := Regex.readNumber (s.dropWhile isGap)
    (endOfCommand r).map fun ((), r) => (.quit (n.getD 0) silently, r)

def readAddress (extended : Bool) : Reading (Option Address) := fun s =>
  match s with
  | '$' :: r => .ok (some .last, r)
  | '/' :: r => pattern '/' r
  | '\\' :: d :: r => pattern d r
  | c :: _ =>
    if c.isDigit then
      let (n, r) := Regex.readNumber s
      match r with
      | '~' :: r =>
        let (step, r) := Regex.readNumber r
        .ok (some (.every (n.getD 0) (step.getD 0)), r)
      | r => .ok (some (.line (n.getD 0)), r)
    else .ok (none, s)
  | [] => .ok (none, [])
where
  pattern (d : Char) (s : Text) : Except Fault (Option Address × Text) :=
    match upTo d true (s.length + 1) s with
    | none => fail "unterminated address regex" []
    | some (p, r) => do
      let (fold, r) := match r with
        | 'I' :: r => (true, r)
        | r => (false, r)
      let (regex, _) ← regexOf extended p r
      return (some (.matching regex fold), r)

def readSelector (extended : Bool) : Reading Selector := fun s => do
  let (first, r) ← readAddress extended s
  match first, r.dropWhile isGap with
  | none, r => return (.all, r)
  | some a, ',' :: r =>
    match r.dropWhile isGap with
    | '+' :: r =>
      let (n, r) := Regex.readNumber r
      return (.range a (.after (n.getD 0)), r.dropWhile isGap)
    | r => do
      let (second, r') ← readAddress extended r
      match second with
      | some b => return (.range a b, r'.dropWhile isGap)
      | none => fail "unexpected \x60,'" (r.drop 1)
  | some a, r => return (.one a, r)

def isBetween (c : Char) : Bool := isGap c || c == ';' || c == '\n'

/-- The commands of a script. `depth` counts the blocks that are open. -/
def readCommands (extended : Bool) : (fuel depth : Nat) → Text → Except Fault (List Command)
  | 0, _, _ => .ok []
  | fuel + 1, depth, s =>
    match s.dropWhile isBetween with
    | [] => if depth = 0 then .ok [] else .error ⟨"unmatched \x60\x7b'".toList, s.length + 1⟩
    | '#' :: s => readCommands extended fuel depth (s.dropWhile (· ≠ '\n'))
    | s => do
      let (selector, s) ← readSelector extended s
      let (inverted, s) := match s with
        | '!' :: s => (true, s.dropWhile fun c => isGap c || c == '!')
        | s => (false, s)
      let (act, r) ← readAct extended s
      match act with
      | .openBlock => do
        let more ← readCommands extended fuel (depth + 1) r
        return ⟨selector, inverted, act⟩ :: more
      | .closeBlock =>
        if depth = 0 then fail "unexpected \x60\x7d'" (s.drop 1)
        else do
          let more ← readCommands extended fuel (depth - 1) r
          return ⟨selector, inverted, act⟩ :: more
      | act => do
        let more ← readCommands extended fuel depth r
        return ⟨selector, inverted, act⟩ :: more

/-! ### Running -/

/-- The work on the lines: what is still to be read, the space, the store, and what was put out.
`terminated` says whether the space ends a line, `owed` that a line end is still missing in the
output, which has its latest piece first, and `active` which ranges are open and where they end. -/
structure Desk where
  coming : List (Text × Bool)
  number : Nat
  space : Text
  terminated : Bool
  store : Text
  storeTerminated : Bool
  output : List Text
  owed : Bool
  queue : List Text
  changed : Bool
  active : List (Nat × Nat)
  status : Nat

namespace Desk

def emit (k : Desk) (t : Text) (terminated : Bool) : Desk :=
  { k with
    output := ((if k.owed then ['\n'] else []) ++ t ++ if terminated then ['\n'] else []) :: k.output
    owed := !terminated }

def emitSpace (k : Desk) : Desk := k.emit k.space k.terminated

def settle (k : Desk) : Desk := if k.owed then { k with output := ['\n'] :: k.output, owed := false } else k

def flush (k : Desk) : Desk :=
  k.queue.foldl (fun k t => { k.settle with output := t :: k.settle.output }) { k with queue := [] }

def isLast (k : Desk) : Bool := k.coming.isEmpty

def holds (k : Desk) : Address → Bool
  | .line n => n == k.number
  | .last => k.isLast
  | .matching r fold => r.occursIn fold k.space
  | .every first step =>
    if step = 0 then k.number == first else first ≤ k.number && (k.number - first) % step == 0
  | .after _ => false

def selects (k : Desk) (index : Nat) : Selector → Bool × List (Nat × Nat)
  | .all => (true, k.active)
  | .one a => (k.holds a, k.active)
  | .range a b =>
    let others := k.active.filter fun e => e.1 ≠ index
    match k.active.find? fun e => e.1 = index with
    | none =>
      if k.holds a then match b with
        | .line n => (true, if n ≤ k.number then others else (index, n) :: others)
        | .after n => (true, if n = 0 then others else (index, k.number + n) :: others)
        | _ => (true, (index, 0) :: others)
      else (false, k.active)
    | some (_, finish) => match b with
      | .matching r fold => (true, if r.occursIn fold k.space then others else k.active)
      | .last => (true, if k.isLast then others else k.active)
      | _ =>
        if finish < k.number then (k.holds a, others)
        else (true, if finish ≤ k.number then others else k.active)

def partsFor (s e : Spot) (parts : List Part) : Text :=
  parts.flatMap fun
    | .char c => [c]
    | .group 0 => s.since e
    | .group n => e.group n

/-- The line with matches replaced from the `which`th on; the flag says that one was. -/
def substituted (r : Regex) (fold : Bool) (parts : List Part) (everywhere : Bool) :
    (fuel : Nat) → (which : Nat) → (afterMatch : Bool) → Spot → Text × Bool
  | 0, _, _, s => (s.rest, false)
  | fuel + 1, which, afterMatch, s => match r.find? fold { s with groups := [] } with
    | none => (s.rest, false)
    | some (b, e) =>
      let isEmpty := e.rest.length = b.rest.length
      let skips := isEmpty && afterMatch && b.rest.length == s.rest.length
      let before := s.since b
      let shown := if skips then [] else if which ≤ 1 then partsFor b e parts else b.since e
      let did := !skips && which ≤ 1
      if did && !everywhere then (before ++ shown ++ e.rest, true)
      else if isEmpty then
        match e.rest with
        | [] => (before ++ shown, did)
        | c :: _ =>
          let (t, more) := substituted r fold parts everywhere fuel (if skips then which else which - 1) false e.step
          (before ++ shown ++ c :: t, did || more)
      else
        let (t, more) := substituted r fold parts everywhere fuel (which - 1) true e
        (before ++ shown ++ t, did || more)

end Desk

inductive Ending where
  | done | deleted | again | quit (silently : Bool)

def blockEnd (commands : Array Command) : (fuel depth i : Nat) → Nat
  | 0, _, i => i
  | fuel + 1, depth, i => match commands[i]? with
    | none => i
    | some c => match c.act with
      | .openBlock => blockEnd commands fuel (depth + 1) (i + 1)
      | .closeBlock => if depth = 0 then i + 1 else blockEnd commands fuel (depth - 1) (i + 1)
      | _ => blockEnd commands fuel depth (i + 1)

def labelIndex (commands : Array Command) (name : Text) : Nat :=
  if name = [] then commands.size
  else (commands.findIdx? fun c => match c.act with
    | .label n => n = name
    | _ => false).getD commands.size

def firstLine (s : Text) : Text := s.takeWhile (· ≠ '\n')

def exchangeChar (left right : Text) (c : Char) : Char :=
  ((left.zip right).find? fun p => p.1 = c).elim c Prod.snd

def exec (commands : Array Command) (silent : Bool) : (fuel i : Nat) → Desk → Desk × Ending
  | 0, _, k => (k, .quit true)
  | fuel + 1, i, k => match commands[i]? with
    | none => (k, .done)
    | some c =>
      let (chosen, active) := k.selects i c.selector
      let k := { k with active := active }
      let go (k : Desk) : Desk × Ending := exec commands silent fuel (i + 1) k
      if chosen = c.inverted then
        match c.act with
        | .openBlock => exec commands silent fuel (blockEnd commands commands.size 0 (i + 1)) k
        | _ => go k
      else match c.act with
        | .substitute r fold parts which everywhere shows =>
          let (t, did) := Desk.substituted r fold parts everywhere (k.space.length + 2) which false (Spot.start k.space)
          let k := if did then { k with space := t, changed := true } else k
          go (if did && shows then k.emitSpace else k)
        | .exchange left right => go { k with space := k.space.map (exchangeChar left right) }
        | .delete => (k, .deleted)
        | .deleteFirst =>
          if k.space.contains '\n' then
            ({ k with space := (k.space.dropWhile (· ≠ '\n')).drop 1 }, .again)
          else (k, .deleted)
        | .print => go k.emitSpace
        | .printFirst => go (k.emit (firstLine k.space) true)
        | .number => go (k.emit (Text.ofNat k.number) true)
        | .quit status silently => ({ k with status := status }, .quit silently)
        | .append t => go { k with queue := k.queue ++ [t] }
        | .insert t => go { k.settle with output := t :: k.settle.output }
        | .change t =>
          let inRange := match c.selector with
            | .range _ _ => active.any fun e => e.1 = i
            | _ => false
          if inRange && !c.inverted then (k, .deleted)
          else ({ k.settle with output := t :: k.settle.output }, .deleted)
        | .next => match k.coming with
          | [] => (k, .quit false)
          | (l, terminated) :: rest =>
            let k := (if silent then k else k.emitSpace).flush
            go { k with space := l, terminated := terminated, coming := rest, number := k.number + 1 }
        | .nextInto => match k.coming with
          | [] => (k, .quit false)
          | (l, terminated) :: rest =>
            let k := k.flush
            go { k with
              space := k.space ++ '\n' :: l, terminated := terminated, coming := rest, number := k.number + 1 }
        | .hold => go { k with store := k.space, storeTerminated := k.terminated }
        | .holdInto => go { k with store := k.store ++ '\n' :: k.space }
        | .get => go { k with space := k.store, terminated := k.storeTerminated }
        | .getInto => go { k with space := k.space ++ '\n' :: k.store }
        | .swap => go { k with
            space := k.store, terminated := k.storeTerminated
            store := k.space, storeTerminated := k.terminated }
        | .label _ | .openBlock | .closeBlock => go k
        | .jump name => exec commands silent fuel (labelIndex commands name) k
        | .jumpIfChanged name =>
          if k.changed then exec commands silent fuel (labelIndex commands name) { k with changed := false }
          else go k

def stepLimit : Nat := 1000000

/-- One pass for each line; `restarted` keeps the space of the pass before. -/
def cycles (commands : Array Command) (silent : Bool) : (fuel : Nat) → (restarted : Bool) → Desk → Desk
  | 0, _, k => k
  | fuel + 1, restarted, k =>
    let begun : Option Desk := if restarted then some k else match k.coming with
      | [] => none
      | (l, terminated) :: rest =>
        some { k with space := l, terminated := terminated, coming := rest, number := k.number + 1, changed := false }
    match begun with
    | none => k
    | some k => match exec commands silent stepLimit 0 k with
      | (k, .done) => cycles commands silent fuel false (if silent then k else k.emitSpace).flush
      | (k, .deleted) => cycles commands silent fuel false k.flush
      | (k, .again) => cycles commands silent fuel true k.flush
      | (k, .quit silently) =>
        if silently then k else ((if silent then k else k.emitSpace).flush).settle

/-- The lines of several files; only the last line of all may lack its end. -/
def linesOf (files : List Text) : List (Text × Bool) :=
  let all := files.flatMap Tool.lines
  all.zipIdx.map fun (l, i) => (Tool.withoutNewline l, l.getLast? = some '\n' || i + 1 < all.length)

def edit (commands : Array Command) (silent : Bool) (files : List Text) : Desk :=
  let lines := linesOf files
  cycles commands silent (lines.foldl (fun n l => n + l.1.length + 1) 1) false
    ⟨lines, 0, [], true, [], true, [], false, [], false, [], 0⟩

/-! ### The tool -/

def usage : Text := "Usage: sed [OPTION]... \x7bscript-only-if-no-other-script\x7d [input-file]...\n".toList

def options : Tool.Options :=
  ⟨"nErsuz".toList, "e".toList,
   [("quiet", 'n'), ("silent", 'n'), ("regexp-extended", 'E'), ("separate", 's'), ("unbuffered", 'u'),
    ("expression", 'e')]⟩

def complaintOf (script : Text) (f : Fault) : Text :=
  "sed: -e expression #1, char ".toList ++ Text.ofNat (script.length - f.left) ++ ": ".toList ++
    argument f.message ++ ['\n']

def editFiles (given : List (Char × Text)) (script : Text) (names : List Text) (s : Setting) (input : Text) :
    Effect :=
  let has (c : Char) : Bool := given.any fun g => g.1 = c
  let commandsOf (script : Text) := readCommands (has 'E' || has 'r') (script.length + 1) 0 script
  let names := Tool.orInput names
  let isDirectory (n : Text) : Bool := s.tree.isDirectory s.directory (Path.ofText (spelled n)) && n ≠ []
  let readable := names.takeWhile fun n => !isDirectory n
  let broken : Text := (names.drop readable.length).head?.elim [] fun n =>
    "sed: read error on ".toList ++ n ++ ": Is a directory\n".toList
  let (parts, errors, rest) := Tool.gather (fun n e =>
    "sed: can't read ".toList ++ n ++ ": ".toList ++ e ++ ['\n']) s readable input
  let files := parts.map Prod.snd
  let decoded := files.map fun f => Encoding.utf8Text? (bytesOf f)
  let isText := decoded.all (·.isSome)
  let own := if isText then spelled script else script
  match commandsOf own with
  | .error f => .refused (complaintOf own f) 1 input
  | .ok commands =>
    let k := edit commands.toArray (has 'n') (if isText then decoded.map (·.getD []) else files)
    let status : Int := if broken ≠ [] then 4 else if k.status ≠ 0 then k.status else if errors = [] then 0 else 2
    let output := k.output.reverse.flatten
    ⟨if isText then argument output else output, errors ++ broken, status, rest⟩

def tool : Tool := fun s args input =>
  match Tool.readOptions options args with
  | .error f => .refused (f.message "sed".toList ++ usage) 1 input
  | .ok (given, operands) =>
    let scripts := (given.filter fun g => g.1 = 'e').map Prod.snd
    match scripts, operands with
    | [], [] => .refused usage 1 input
    | [], script :: names => editFiles given script names s input
    | scripts, names => editFiles given (Text.join ['\n'] scripts) names s input

end StyleShield.Shell.Sed
