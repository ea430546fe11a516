import StyleShield.Compiler.Command
import StyleShield.Shell.Builtin
import StyleShield.Shell.Grep
import StyleShield.Shell.Sed

/-! Running scripts and starting commands. `State.run` is the one recursive definition: what a
command needs to have run, a body, a substitution or a shell of its own, it runs one
step lower. Each part of a script either goes on or leaves a reason not to. -/
namespace StyleShield.Shell

inductive Program where
  | tool (t : Tool)
  | shell

def program? (name : Text) : Option Program :=
  match String.ofList name with
  | "sh" => some .shell
  | "cat" => some (.tool Tool.cat)
  | "tr" => some (.tool Tool.exchange)
  | "sed" => some (.tool Sed.tool)
  | "grep" => some (.tool Tool.grep)
  | "pwd" => some (.tool Tool.pwd)
  | "true" => some (.tool Tool.succeed)
  | "false" => some (.tool Tool.failing)
  | _ => none

def systemDirectories : List (List Text) := [["bin".toList], ["usr".toList, "bin".toList]]

open Compiler.Command in
/-- What the first word of a command leads to. A word without a slash is a program's name;
nothing else in the tree may be run. -/
def resolve (tree : FileTree) (directory : Place) (word : Text) : Except Refusal Program :=
  if '/' ∉ word then
    if word = [] ∨ word = ['.'] ∨ word = ['.', '.'] then .error (.system .permissionDenied)
    else match program? word with
      | some p => .ok p
      | none => .error .notFound
  else
    let p := Path.ofText word
    let known := if p.isAbsolute ∧ systemDirectories.any (· = p.parent.names) then program? p.name else none
    match known with
    | some p => .ok p
    | none => match tree.find directory p with
      | .ok _ => .error (.system .permissionDenied)
      | .error .noEntry => .error .notFound
      | .error e => .error (.system e)

inductive Source where
  | text (script : Text)
  | file (name : Text)
  | input

structure Invocation where
  settings : List Char
  source : Source
  arguments : List Text

namespace Invocation

def readFront (settings : List Char) (hasScript : Bool) : List Text →
    Except Text (List Char × Bool × List Text)
  | [] => .ok (settings, hasScript, [])
  | ['-'] :: rest => .ok (settings, hasScript, rest)
  | ['-', '-'] :: rest => .ok (settings, hasScript, rest)
  | ('-' :: cs) :: rest =>
    match cs.find? fun c => !(Builtin.settingLetters.contains c || c == 'c' || c == 'l') with
    | some c => .error (Builtin.illegalOption c)
    | none => readFront (cs.filter (fun c => c ≠ 'c' ∧ c ≠ 'l') ++ settings) (hasScript || cs.contains 'c') rest
  | ('+' :: cs) :: rest => match cs.find? (!Builtin.settingLetters.contains ·) with
    | some c => .error (Builtin.illegalOption c)
    | none => readFront (settings.filter (!cs.contains ·)) hasScript rest
  | rest => .ok (settings, hasScript, rest)

def ofArguments (name : Text) (args : List Text) : Except Text Invocation := do
  let (settings, hasScript, rest) ← readFront [] false args
  match hasScript, rest with
  | true, [] => .error "-c requires an argument".toList
  | true, script :: rest => return ⟨settings, .text script, if rest = [] then [name] else rest⟩
  | false, [] => return ⟨'s' :: settings, .input, [name]⟩
  | false, file :: rest =>
    if settings.contains 's' then return ⟨settings, .input, name :: file :: rest⟩
    else return ⟨settings, .file file, file :: rest⟩

end Invocation

namespace State

/-! ### Scripts in texts -/

abbrev Runner := Script → State → State

def runLines (again : Runner) : List Script → State → State
  | [], st => st
  | s :: ss, st => if st.isGoing && !st.has 'n' then runLines again ss (again s st) else st

/-- The script in a text, run up to a mistake in it, which ends the shell. -/
def runText (again : Runner) (speaker script : Text) (st : State) : State :=
  let (lines, fault) := Script.ofText st.line script
  let st := runLines again lines (if lines = [] then { st with status := 0 } else st)
  match fault with
  | some f => if st.isGoing then { st with line := f.line }.giveUp speaker f.message else st
  | none => st

def apart (step : State → State) : State → State :=
  isolate fun st => step { st with loops := 0, traps := [] }

def substitute (again : Runner) (script : Text) : State → State :=
  apart fun st => runText again [] script { st with guarded := false }

def runFarewell (again : Runner) (st : State) : State :=
  match st.traps.find? fun e => e.1 = 0, st.flow with
  | none, _ | _, .killed => st
  | some (_, script), _ =>
    let last := runText again [] (spelled script) { st with flow := .going, traps := [] }
    if last.flow = .going then { last with status := st.status } else last

/-- The scripts of signals that have come, each once. -/
def runPending (again : Runner) (st : State) : State :=
  st.pending.foldl (fun st script =>
    if st.isGoing then { runText again [] (spelled script) st with status := st.status } else st)
    { st with pending := [] }

/-! ### Redirections -/

def shownReason (creates : Bool) : SystemError → Text
  | .noEntry | .notDirectory => (if creates then "Directory nonexistent" else "No such file").toList
  | e => e.reason.toList

def namedSink (st : State) (name : Text) : Option Sink :=
  if name = Tool.nullFile then some .nowhere
  else if name = "/dev/stdout".toList ∨ name = "/dev/fd/1".toList then st.sinkOf outputNumber
  else if name = "/dev/stderr".toList ∨ name = "/dev/fd/2".toList then st.sinkOf complaintNumber
  else none

def openFile (st : State) (appends : Bool) (name : Text) : Except SystemError (FileTree × Place) :=
  let p := Path.ofText (spelled name)
  match st.tree.locate st.directory p with
  | .ok place => match st.tree.entryAt? place with
    | some (.file b) => .ok (st.tree.put place (.file (if appends then b else [])), place)
    | _ => .error .isDirectory
  | .error .noEntry =>
    if name = [] then .error .noEntry
    else match st.tree.directoryAt? st.directory p.parent with
      | some d => .ok (st.tree.put (d ++ [p.name]) (.file []), d ++ [p.name])
      | none => .error .noEntry
  | .error e => .error e

def openInput (st : State) (name : Text) : Except SystemError Text :=
  if name = Tool.nullFile then .ok []
  else if Tool.inputFiles.contains name then .ok st.input
  else if name = [] then .error .noEntry
  else match st.tree.find st.directory (Path.ofText (spelled name)) with
    | .ok (.file b) => .ok (textOf b)
    | .ok _ => .ok []
    | .error e => .error e

def redirect (again : Runner) (r : Redirection) (st : State) : State × Bool :=
  let refuse (st : State) (message : Text) : State × Bool := (st.complain [] message 2, false)
  match r with
  | .here _ body =>
    let (st, input) := st.value (substitute again) body
    ({ st with input }, st.isGoing)
  | .input descriptor w =>
    let (st, name) := st.value (substitute again) w
    match st.isGoing, st.openInput name with
    | false, _ => (st, false)
    | true, .ok input => (if descriptor = 0 then { st with input } else st, true)
    | true, .error e => refuse st ("cannot open ".toList ++ name ++ ": ".toList ++ shownReason false e)
  | .output descriptor appends w =>
    let (st, name) := st.value (substitute again) w
    match st.isGoing, st.namedSink name, st.openFile appends name with
    | false, _, _ => (st, false)
    | true, some sink, _ => (st.withSink descriptor sink, true)
    | true, none, .ok (tree, place) => ({ st with tree }.withSink descriptor (.file place), true)
    | true, none, .error e => refuse st ("cannot create ".toList ++ name ++ ": ".toList ++ shownReason true e)
  | .duplicate descriptor w =>
    let (st, source) := st.value (substitute again) w
    if !st.isGoing then (st, false)
    else if source = ['-'] then (st.withSink descriptor .nowhere, true)
    else match Builtin.number? source with
      | none => (st.giveUp [] "Syntax error: Bad fd number".toList, false)
      | some n => match st.sinkOf n with
        | some sink => (st.withSink descriptor sink, true)
        | none => if n = 0 then (st, true) else refuse st (source ++ ": Bad file descriptor".toList)

def redirectAll (again : Runner) : List Redirection → State → State × Bool
  | [], st => (st, true)
  | r :: rs, st => match st.redirect again r with
    | (st, true) => redirectAll again rs st
    | (st, false) => (st, false)

def replacesInput (rs : List Redirection) : Bool :=
  rs.any fun
    | .input d _ | .here d _ => d = 0
    | _ => false

/-- A step under redirections, which end with it; another step is for when they fail. -/
def within (again : Runner) (rs : List Redirection) (step failure : State → State) (st : State) : State :=
  let (inner, isDone) := st.redirectAll again rs
  let after := if isDone then step inner else failure inner
  { after with sinks := st.sinks, input := if replacesInput rs then st.input else after.input }

/-! ### Commands -/

def enter (again : Runner) (name : Text) (args : List Text) (st : State) : State :=
  let refuse (message : Text) : State :=
    { st.say complaintNumber (name ++ ": 0: ".toList ++ message ++ ['\n']) with status := 2 }
  let begin (i : Invocation) (script input : Text) : State :=
    { st with input }.isolate fun st =>
      runFarewell again (runText again [] (spelled script)
        { st with
          bindings := st.bindings.filter fun e => st.exports.contains e.1, functions := []
          arguments := i.arguments, settings := i.settings, line := 1, guarded := false, loops := 0
          traps := [], pending := [], kept := none, status := 0 })
  match Invocation.ofArguments name args with
  | .error message => refuse message
  | .ok i => match i.source with
    | .text script => begin i script st.input
    | .input => begin i st.input []
    | .file f => match st.openInput f with
      | .ok script => begin i script st.input
      | .error e => refuse ("cannot open ".toList ++ f ++ ": ".toList ++ shownReason false e)

/-- A shell as a command of this one, which tells how a signal has ended it. -/
def runShell (again : Runner) (name : Text) (args : List Text) (st : State) : State :=
  let done := enter again name args st
  if done.flow = .killed then
    { done.say complaintNumber (Builtin.farewellOf done.status.natAbs) with
      status := 128 - done.status, flow := st.flow }
  else done

def runProgram (again : Runner) (speaker name : Text) (args : List Text) (st : State) : State :=
  match resolve st.tree st.directory (spelled name) with
  | .ok .shell => runShell again name args st
  | .ok (.tool t) =>
    let e := t ⟨st.tree, st.directory⟩ args st.input
    { (st.say outputNumber e.output).say complaintNumber e.complaint with status := e.status, input := e.rest }
  | .error .notFound => st.complain speaker (name ++ ": not found".toList) 127
  | .error (.system e) =>
    if e = .notDirectory then st.complain speaker (name ++ ": not found".toList) 127
    else st.complain speaker (name ++ ": ".toList ++ e.reason.toList) 126

def giveBack (old : State) (names : List Text) (st : State) : State :=
  names.foldl (fun st x => match old.bound? x with
    | some v => { st.bind x v with exports := old.exports }
    | none => { st.unbind x with exports := old.exports }) st

def call (again : Runner) (body : Script) (args : List Text) (st : State) : State :=
  let done := again body { st with arguments := st.arguments.take 1 ++ args, loops := 0, kept := some [] }
  { giveBack st (done.kept.getD []) done with
    arguments := st.arguments, loops := st.loops, kept := st.kept
    flow := if done.flow = .returning then .going else done.flow }

def runFile (again : Runner) (args : List Text) (st : State) : State :=
  let name := ['.']
  match args with
  | [] => { st with status := 0 }
  | f :: _ =>
    if '/' ∉ f then st.giveUp name (f ++ ": not found".toList)
    else match st.openInput f with
      | .ok script =>
        let done := runText again [] (spelled script) { st with line := 1 }
        { done with flow := if done.flow = .returning then .going else done.flow }
      | .error e => st.giveUp name ("cannot open ".toList ++ f ++ ": ".toList ++ shownReason false e)

def runBuiltin (again : Runner) (name : Text) (args : List Text) (st : State) : State :=
  match Builtin.plain? name with
  | some b => b st args
  | none => runProgram again [] name args st

def whereabouts (name : Text) : Option Text :=
  if (Builtin.special? name).isSome || (Builtin.plain? name).isSome then some name
  else (program? (spelled name)).map fun _ => "/usr/bin/".toList ++ name

def runCommand (again : Runner) (args : List Text) (st : State) : State :=
  match args with
  | [] => { st with status := 0 }
  | ['-', 'v'] :: names => names.foldl (fun st n => match whereabouts n with
    | some w => { st.say outputNumber (w ++ ['\n']) with status := 0 }
    | none => { st with status := 127 }) st
  | name :: args => match Builtin.special? name with
    | some b => b st args
    | none => runBuiltin again name args st

/-- A command with its arguments: what changes the shell itself, then functions, then the rest. -/
def perform (again : Runner) (name : Text) (args : List Text) (st : State) : State :=
  match String.ofList name with
  | "eval" => runText again name (spelled (Text.join [' '] args)) st
  | "." => runFile again args st
  | "exec" => match args with
    | [] => { st with status := 0 }
    | program :: args => { runProgram again name program args st with flow := .leaving }
  | _ => match Builtin.special? name with
    | some b => b st args
    | none => match st.functions.find? fun f => f.1 = spelled name with
      | some (_, body) => call again body args st
      | none =>
        if name = "command".toList then runCommand again args st else runBuiltin again name args st

def isSpecial (name : Text) : Bool :=
  name = "eval".toList ∨ name = ['.'] ∨ name = "exec".toList ∨ (Builtin.special? name).isSome

/-- A failure that nobody looks at ends the shell if it is set so. -/
def checked (st : State) : State :=
  if st.has 'e' && !st.guarded && st.status ≠ 0 && st.isGoing then { st with flow := .leaving } else st

def assignAll (again : Runner) : List (Text × Word) → State → State
  | [], st => st
  | (x, w) :: as, st =>
    let (st, v) := st.value (substitute again) w
    if st.isGoing then assignAll again as (st.bind x v) else st

def trace (st : State) (assigned : List (Text × Text)) (args : List Text) : State :=
  if st.has 'x' then
    st.say complaintNumber
      (['+', ' '] ++ Text.join [' '] (assigned.map (fun e => e.1 ++ '=' :: e.2) ++ args) ++ ['\n'])
  else st

def runsScript (w : Word) : Bool :=
  w.any fun
    | .command _ _ => true
    | _ => false

def runSimple (again : Runner) (assignments : List (Text × Word)) (words : List Word)
    (redirections : List Redirection) (st : State) : State :=
  let (st, args) := st.expandAll (substitute again) words
  if !st.isGoing then st
  else
    let names := assignments.map Prod.fst
    let shownOf (st : State) : List (Text × Text) := names.map fun x => (x, (st.bound? x).getD [])
    match args with
    | [] =>
      let st := if words.any runsScript || assignments.any fun a => runsScript a.2 then st else { st with status := 0 }
      checked (st.within again redirections (fun inner =>
        let inner := assignAll again assignments inner
        inner.trace (shownOf inner) []) id)
    | name :: args =>
      let isFixed := isSpecial name
      let step (inner : State) : State :=
        let inner := assignAll again assignments inner
        if !inner.isGoing then inner
        else
          let before := (st.sinkOf complaintNumber).getD .nowhere
          let shown := (inner.withSink complaintNumber before).trace (shownOf inner) (name :: args)
          let inner := { inner with said := shown.said, tree := shown.tree }
          if isFixed then perform again name args inner
          else giveBack st names (perform again name args { inner with exports := names ++ inner.exports })
      if name = "exec".toList ∧ args = [] then
        let (inner, isDone) := st.redirectAll again redirections
        if isDone then step inner else { inner with flow := .leaving }
      else
        checked (runPending again (st.within again redirections
          (fun inner => { step inner with line := inner.line })
          fun inner => if isFixed then { inner with flow := .leaving } else inner))

/-! ### Joined commands -/

def runGuarded (again : Runner) (s : Script) (st : State) : State :=
  { again s { st with guarded := true } with guarded := st.guarded }

/-- The body again and again while the condition ends as wanted; `last` is the body's status. -/
def iterate (again : Runner) (wanted : Bool) (condition body : Script) : (fuel : Nat) → (last : Int) → State → State
  | 0, _, st => { st with flow := .leaving }
  | fuel + 1, last, st =>
    let c := runGuarded again condition st
    match Flow.afterBody c.flow with
    | (false, flow) => { c with flow }
    | (true, flow) =>
      if c.isGoing && (c.status = 0) ≠ wanted then { c with status := last }
      else
        let b := if c.isGoing then again body c else { c with flow }
        match Flow.afterBody b.flow with
        | (false, flow) => { b with flow }
        | (true, flow) => iterate again wanted condition body fuel b.status { b with flow }

def runEach (again : Runner) (name : Text) (body : Script) : List Text → State → State
  | [], st => st
  | v :: vs, st =>
    let b := again body (st.bind name v)
    match Flow.afterBody b.flow with
    | (false, flow) => { b with flow }
    | (true, flow) => runEach again name body vs { b with flow }

/-- Whether one of some patterns fits; those behind it are not expanded. -/
def fitsAny (again : Runner) (subject : Text) : List Word → State → State × Bool
  | [], st => (st, false)
  | w :: ws, st =>
    let (st, m) := st.pattern (substitute again) w
    if m.matchesAll subject then (st, true) else fitsAny again subject ws st

def choose (again : Runner) (subject : Text) : Script → State → State
  | .arm patterns body rest, st =>
    let (st, fits) := fitsAny again subject patterns st
    if fits then (if body = .nothing then { st with status := 0 } else again body st) else choose again subject rest st
  | _, st => { st with status := 0 }

/-- A pipe: the left side's output is the right side's input, and the right side gives the status. -/
def runPipe (again : Runner) (left right : Script) (st : State) : State :=
  let (l, out) := st.capture (apart (again left))
  if !l.isGoing then l
  else { apart (again right) { l with input := out, status := st.status } with input := l.input }

def leaveLoop (loops : Nat) (st : State) : State := { st with loops }

/-- The words that a loop goes over; without any, the arguments. -/
def loopValues (again : Runner) (words : Option (List Word)) (st : State) : State × List Text :=
  match words with
  | some ws => st.expandAll (substitute again) ws
  | none => (st, st.arguments.drop 1)

/-- A script run on a state. Out of fuel, it leaves the shell. -/
def run : (fuel : Nat) → Script → State → State
  | 0, _, st => { st with status := 2, flow := .leaving }
  | fuel + 1, s, st => match s with
    | .nothing => st
    | .simple line assignments words redirections =>
      runSimple (run fuel) assignments words redirections { st with line }
    | .pipe left right => checked (runPipe (run fuel) left right st)
    | .both left right =>
      let l := runGuarded (run fuel) left st
      if l.isGoing && l.status = 0 then run fuel right l else l
    | .either left right =>
      let l := runGuarded (run fuel) left st
      if l.isGoing && l.status ≠ 0 then run fuel right l else l
    | .sequence first second =>
      let l := run fuel first st
      if l.isGoing then run fuel second l else l
    | .inverted s =>
      let l := runGuarded (run fuel) s st
      if l.isGoing then { l with status := if l.status = 0 then 1 else 0 } else l
    | .redirected line body rs => { st with line }.within (run fuel) rs (run fuel body) id
    | .isolated body => checked (apart (run fuel body) st)
    | .detached body =>
      { apart (run fuel body) { st with input := [] } with input := st.input, status := 0 }
    | .choice condition yes no =>
      let c := runGuarded (run fuel) condition st
      if !c.isGoing then c
      else if c.status = 0 then run fuel yes c else run fuel no { c with status := 0 }
    | .loop wanted condition body =>
      leaveLoop st.loops (iterate (run fuel) wanted condition body fuel 0 { st with loops := st.loops + 1 })
    | .each name words body =>
      let (st, values) := loopValues (run fuel) words st
      if !st.isGoing then st
      else leaveLoop st.loops
        (runEach (run fuel) name body values { st with loops := st.loops + 1, status := 0 })
    | .cases subject arms =>
      let (st, v) := st.value (substitute (run fuel)) subject
      if st.isGoing then choose (run fuel) v arms st else st
    | .arm _ _ _ => st
    | .define name body => { st with functions := (name, body) :: st.functions, status := 0 }

@[simp] theorem run_nothing (fuel : Nat) (st : State) : run (fuel + 1) .nothing st = st := rfl

end State

def stepLimit : Nat := 1000000

def startShell (name : Text) (s : Setting) (args : List Text) (input : Text) : Effect :=
  let done := State.enter (State.run stepLimit) name args (State.start s.tree s.directory [name] input)
  ⟨done.said.head?.getD [], done.said[1]?.getD [], done.status, done.input⟩

/-- Starts the commands of this library on a tree, which they do not change. -/
def launcher (tree : FileTree) : Compiler.Command.Launcher := fun words directory input =>
  match words with
  | [] => .error .notFound
  | word :: args => do
    let program ← resolve tree directory word
    let tool := match program with
      | .tool t => t
      | .shell => startShell (argument word)
    let e := tool ⟨tree, directory⟩ (args.map argument) (textOf input)
    return ⟨e.status, bytesOf e.output, bytesOf e.complaint⟩

end StyleShield.Shell
