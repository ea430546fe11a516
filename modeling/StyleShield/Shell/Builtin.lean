import StyleShield.Shell.Condition
import StyleShield.Shell.Expansion
import StyleShield.Shell.Format

/-! Commands that the shell does itself, without running another script. A mistake in the use
of some of them ends the shell. -/
namespace StyleShield.Shell.Builtin

open State (outputNumber complaintNumber)

def number? (s : Text) : Option Nat :=
  if s ≠ [] ∧ s.all Char.isDigit then some (s.foldl (fun n c => 10 * n + (c.toNat - 48)) 0) else none

def illegalNumber (s : Text) : Text := "Illegal number: ".toList ++ s

def illegalOption (c : Char) : Text := "Illegal option -".toList ++ [c]

def settingOf (st : State) : Setting := ⟨st.tree, st.directory⟩

/-! ### Saying -/

def echo (st : State) (args : List Text) : State :=
  { st.say outputNumber (Format.echo args) with status := 0 }

def printf (st : State) (args : List Text) : State :=
  let name := "printf".toList
  let printed (f : Text) (rest : List Text) : State :=
    let p := Format.print f rest
    let st := p.complaints.foldl (fun st c => st.complain name c 1) (st.say outputNumber p.output)
    match p.mistake with
    | some m => st.complain name m 2
    | none => { st with status := if p.complaints = [] then 0 else 1 }
  match args with
  | [] | [['-', '-']] => st.complain name "usage: printf format [arg ...]".toList 2
  | ['-', '-'] :: f :: rest => printed f rest
  | ('-' :: c :: _) :: _ => st.complain name (illegalOption c) 2
  | f :: rest => printed f rest

def test (name : Text) (st : State) (args : List Text) : State :=
  match Condition.ofWords (settingOf st) (name = ['[']) args with
  | .ok v => { st with status := if v then 0 else 1 }
  | .error c => st.complain name c.message 2

def pwd (st : State) (_ : List Text) : State :=
  { st.say outputNumber (argument (FileTree.pathOf st.directory).text ++ ['\n']) with status := 0 }

/-! ### Signals -/

def signals : List (String × Nat × String) :=
  [("HUP", 1, "Hangup"), ("INT", 2, ""), ("QUIT", 3, "Quit"), ("ILL", 4, "Illegal instruction"),
    ("TRAP", 5, "Trace/breakpoint trap"), ("ABRT", 6, "Aborted"), ("BUS", 7, "Bus error"),
    ("FPE", 8, "Floating point exception"), ("KILL", 9, "Killed"), ("USR1", 10, "User defined signal 1"),
    ("SEGV", 11, "Segmentation fault"), ("USR2", 12, "User defined signal 2"), ("PIPE", 13, ""),
    ("ALRM", 14, "Alarm clock"), ("TERM", 15, "Terminated"), ("STKFLT", 16, "Stack fault"),
    ("XCPU", 24, "CPU time limit exceeded"), ("XFSZ", 25, "File size limit exceeded"),
    ("VTALRM", 26, "Virtual timer expired"), ("PROF", 27, "Profiling timer expired")]

def harmless : List Nat := [0, 17, 18, 23, 28]

def signalOf (s : Text) : Option Nat :=
  match number? s with
  | some n => if n < 65 then some n else none
  | none => (signals.find? fun e => e.1.toList = s.map Char.toUpper).map fun e => e.2.1

def farewellOf (signal : Nat) : Text :=
  match signals.find? fun e => e.2.1 = signal with
  | some (_, _, what) => if what = "" then [] else what.toList ++ ['\n']
  | none => []

def killUsage : Text :=
  "Usage: kill [-s sigspec | -signum | -sigspec] [pid | job]... or\nkill -l [exitstatus]".toList

/-- A signal sent to some numbers, of which only the shell's own one stands for anything. -/
def sendTo (signal : Nat) (st : State) : List Text → State
  | [] => { st with status := 0 }
  | t :: ts =>
    if t = State.ownNumber then
      if harmless.contains signal then sendTo signal st ts
      else if let some e := st.traps.find? fun e => e.1 = signal then
        sendTo signal { st with pending := st.pending ++ [e.2] } ts
      else { st with status := -(signal : Int), flow := .killed }
    else if (number? t).isSome then { sendTo signal st ts with status := 1 }
    else st.complain "kill".toList (illegalNumber t) 2

def kill (st : State) (args : List Text) : State :=
  let name := "kill".toList
  let send (signal : Option Nat) (word : Text) (targets : List Text) : State :=
    match signal, targets with
    | none, _ => st.complain name (illegalOption (word.head?.getD '-')) 2
    | some _, [] => st.complain name killUsage 2
    | some n, targets => sendTo n st targets
  match args with
  | [] => st.complain name killUsage 2
  | [['-', 'l'], w] => match signals.find? fun e => (number? w).any fun n => e.2.1 = n ∨ e.2.1 + 128 = n with
    | some e => { st.say outputNumber (e.1.toList ++ ['\n']) with status := 0 }
    | none => st.complain name (illegalNumber w) 2
  | ['-', 's'] :: w :: targets => match signalOf w with
    | some n => send (some n) w targets
    | none => st.complain name ("invalid signal number or name: ".toList ++ w) 2
  | ['-', '-'] :: targets => send (some 15) [] targets
  | ('-' :: w) :: targets => send (signalOf w) w targets
  | targets => send (some 15) [] targets

/-! ### Places and variables -/

def cd (st : State) (args : List Text) : State :=
  match (if args.head? = some ['-', '-'] then args.drop 1 else args) with
  | [] => { st with status := 0 }
  | target :: _ =>
    match if target = [] then some st.directory else st.tree.directoryAt? st.directory (Path.ofText (spelled target)) with
    | some d => { st with directory := d, status := 0 }
    | none => st.complain "cd".toList ("can't cd to ".toList ++ target) 2

/-- A line of input without its end, what is left, and whether the end was there. A backslash
keeps the character behind it, and takes a line end away. -/
def readLine (raw : Bool) : Text → Marked × Text × Bool
  | [] => ([], [], false)
  | '\n' :: s => ([], s, true)
  | '\\' :: c :: s =>
    if raw then let (m, r, ended) := readLine raw (c :: s); (('\\', false) :: m, r, ended)
    else
      let (m, r, ended) := readLine raw s
      (if c = '\n' then m else (c, true) :: m, r, ended)
  | c :: s => let (m, r, ended) := readLine raw s; ((c, false) :: m, r, ended)

/-- The values that names get from a line; the last name gets all that is left. -/
def readValues (separators : Text) : (names : List Text) → Marked → List (Text × Text)
  | [], _ => []
  | [x], m =>
    let isEnd (e : Char × Bool) : Bool := !e.2 && separators.contains e.1 && Bit.isSoft e.1
    [(x, Marked.text ((m.reverse.dropWhile isEnd).reverse))]
  | x :: xs, m =>
    let isSeparator (e : Char × Bool) : Bool := !e.2 && separators.contains e.1
    let isSoft (e : Char × Bool) : Bool := isSeparator e && Bit.isSoft e.1
    let after := (m.dropWhile (!isSeparator ·)).dropWhile isSoft
    let after := match after with
      | e :: r => if isSeparator e && !Bit.isSoft e.1 then r.dropWhile isSoft else after
      | [] => []
    (x, Marked.text (m.takeWhile (!isSeparator ·))) :: readValues separators xs after

def read (st : State) (args : List Text) : State :=
  let raw := args.head? = some ['-', 'r']
  match (if raw then args.drop 1 else args) with
  | [] => st.complain "read".toList "arg count".toList 2
  | names =>
    let (m, rest, ended) := readLine raw st.input
    let start := m.dropWhile fun e => !e.2 && st.separators.contains e.1 && Bit.isSoft e.1
    (readValues st.separators names start).foldl (fun st e => st.bind e.1 e.2)
      { st with input := rest, status := if ended then 0 else 1 }

def definition (w : Text) : Text × Option Text :=
  match w.dropWhile (· ≠ '=') with
  | _ :: v => (w.takeWhile (· ≠ '='), some v)
  | [] => (w, none)

def declare (exports : Bool) (st : State) (args : List Text) : State :=
  (args.filter fun w => w.head? ≠ some '-').foldl (fun st w =>
    let (x, v) := definition w
    let st := match v with
      | some v => st.bind x v
      | none => st
    if exports then { st with exports := x :: st.exports } else st) { st with status := 0 }

def unset (st : State) (args : List Text) : State :=
  match args with
  | ['-', 'f'] :: names => { st with functions := st.functions.filter fun f => !names.contains f.1, status := 0 }
  | names => { (names.filter (· ≠ ['-', 'v'])).foldl State.unbind st with status := 0 }

def shift (st : State) (args : List Text) : State :=
  let name := "shift".toList
  let upTo (n : Nat) : State :=
    if st.arguments.length - 1 < n then st.giveUp name "can't shift that many".toList
    else { st with arguments := st.arguments.take 1 ++ st.arguments.drop (n + 1), status := 0 }
  match args with
  | [] => upTo 1
  | w :: _ => match number? w with
    | some n => upTo n
    | none => st.giveUp name (illegalNumber w)

/-! ### Settings -/

def settingLetters : Text := "efIimnsxvVECabu".toList

def settingNames : List (String × Char) :=
  [("errexit", 'e'), ("noglob", 'f'), ("xtrace", 'x'), ("nounset", 'u'), ("verbose", 'v'), ("noexec", 'n'),
    ("allexport", 'a'), ("noclobber", 'C'), ("notify", 'b')]

/-- Settings changed by words in front; what is left are arguments, if any were given. A word
that is no setting is an error. -/
def readSettings : (given : List Char) → List Text → Except Text (List Char × Option (List Text))
  | given, [] => .ok (given, none)
  | given, ['-', '-'] :: rest => .ok (given, some rest)
  | given, ('-' :: 'o' :: []) :: w :: rest => match settingNames.find? fun e => e.1.toList = w with
    | some (_, c) => readSettings (c :: given) rest
    | none => .error ("-o ".toList ++ w)
  | given, ('+' :: 'o' :: []) :: w :: rest => match settingNames.find? fun e => e.1.toList = w with
    | some (_, c) => readSettings (given.filter (· ≠ c)) rest
    | none => .error ("+o ".toList ++ w)
  | given, ('-' :: c :: cs) :: rest => match (c :: cs).find? (!settingLetters.contains ·) with
    | some c => .error (['-', c] ++ if c = 'o' then ' ' :: rest.head?.getD [] else [])
    | none => readSettings (c :: cs ++ given) rest
  | given, ('+' :: c :: cs) :: rest => match (c :: cs).find? (!settingLetters.contains ·) with
    | some c => .error ['+', c]
    | none => readSettings (given.filter (!(c :: cs).contains ·)) rest
  | given, rest => .ok (given, some rest)

def set (st : State) (args : List Text) : State :=
  match readSettings st.settings args with
  | .error w => st.giveUp "set".toList ("Illegal option ".toList ++ w)
  | .ok (settings, none) => { st with settings, status := 0 }
  | .ok (settings, some rest) => { st with settings, arguments := st.arguments.take 1 ++ rest, status := 0 }

/-! ### Leaving -/

def leaving (name : String) (flow : Flow) (st : State) (args : List Text) : State :=
  match args with
  | [] => { st with flow }
  | w :: _ => match number? w with
    | some n => { st with flow, status := n % 256 }
    | none => st.giveUp name.toList (illegalNumber w)

def leaveLoops (name : String) (flow : Nat → Flow) (st : State) (args : List Text) : State :=
  let upTo (n : Nat) : State :=
    if n = 0 then st.giveUp name.toList (illegalNumber ['0'])
    else match min n st.loops with
      | 0 => { st with status := 0 }
      | n => { st with flow := flow n, status := 0 }
  match args with
  | [] => upTo 1
  | w :: _ => match number? w with
    | some n => upTo n
    | none => st.giveUp name.toList (illegalNumber w)

def trap (st : State) (args : List Text) : State :=
  match args with
  | script :: n :: names =>
    (n :: names).foldl (fun st n =>
      match if n = "EXIT".toList then some 0 else signalOf n with
      | some n =>
        let others := st.traps.filter fun e => e.1 ≠ n
        { st with traps := if script = ['-'] then others else (n, script) :: others }
      | none => st.complain "trap".toList (n ++ ": bad trap".toList) 1) { st with status := 0 }
  | _ => { st with status := 0 }

/-- Names that get their old values back at the end of the function. -/
def keep (st : State) (args : List Text) : State :=
  match st.kept with
  | none => st.giveUp "local".toList "not in a function".toList
  | some names =>
    declare false { st with kept := some ((args.map fun w => (definition w).1) ++ names) } args

def settled (status : Int) (st : State) (_ : List Text) : State := { st with status }

/-- Commands whose mistakes end the shell and that no function stands in for. -/
def special? (name : Text) : Option (State → List Text → State) :=
  match String.ofList name with
  | ":" | "times" => some (settled 0)
  | "break" => some (leaveLoops "break" .breaking)
  | "continue" => some (leaveLoops "continue" .continuing)
  | "exit" => some (leaving "exit" .leaving)
  | "return" => some (leaving "return" .returning)
  | "export" => some (declare true)
  | "readonly" => some (declare false)
  | "set" => some set
  | "shift" => some shift
  | "trap" => some trap
  | "unset" => some unset
  | _ => none

def plain? (name : Text) : Option (State → List Text → State) :=
  match String.ofList name with
  | "echo" => some echo
  | "printf" => some printf
  | "test" | "[" => some (test name)
  | "kill" => some kill
  | "cd" => some cd
  | "pwd" => some pwd
  | "read" => some read
  | "local" => some keep
  | "umask" => some fun st _ => { st.say outputNumber "0022\n".toList with status := 0 }
  | "true" | "wait" | "alias" | "unalias" | "hash" => some (settled 0)
  | "false" => some (settled 1)
  | _ => none

end StyleShield.Shell.Builtin
