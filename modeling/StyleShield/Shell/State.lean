import StyleShield.Shell.Script
import StyleShield.Shell.Tool

/-! The state of a running shell. Every open descriptor leads to a sink; what goes to the
ends of a pipe, of a substitution and of the shell itself is kept in numbered stores, so
the order of what is said holds within each. -/
namespace StyleShield.Shell

inductive Sink where
  | store (n : Nat)
  | file (p : Place)
  | nowhere
  deriving DecidableEq

inductive Flow where
  | going
  | leaving
  | returning
  | breaking (loops : Nat)
  | continuing (loops : Nat)
  | killed
  deriving DecidableEq

/-- The flow behind a loop's body: whether the loop goes on, and what is left for those around. -/
def Flow.afterBody : Flow → Bool × Flow
  | .breaking n => (false, if n ≤ 1 then .going else .breaking (n - 1))
  | .continuing n => if n ≤ 1 then (true, .going) else (false, .continuing (n - 1))
  | .going => (true, .going)
  | f => (false, f)

@[simp] theorem Flow.afterBody_going : Flow.afterBody .going = (true, .going) := rfl
@[simp] theorem Flow.afterBody_leaving : Flow.afterBody .leaving = (false, .leaving) := rfl

structure State where
  tree : FileTree
  directory : Place
  bindings : List (Text × Text)
  exports : List Text
  functions : List (Text × Script)
  arguments : List Text
  input : Text
  said : List Text
  sinks : List (Nat × Sink)
  status : Int
  flow : Flow
  line : Nat
  /-- Whether a failure is looked at, so that it does not end the shell. -/
  guarded : Bool
  settings : List Char
  /-- How many loops are around the present command. -/
  loops : Nat
  /-- Scripts to run at signals, and at the end under the number zero. -/
  traps : List (Nat × Text)
  /-- Scripts of signals that have come. -/
  pending : List Text
  /-- The names that a function keeps to itself; none outside of functions. -/
  kept : Option (List Text)
  deriving DecidableEq

namespace State

def outputNumber : Nat := 1
def complaintNumber : Nat := 2

/-- A shell at its start: its two sinks lead to stores of their own. -/
def start (tree : FileTree) (directory : Place) (arguments : List Text) (input : Text) : State :=
  { tree, directory, bindings := [], exports := [], functions := [], arguments, input
    said := [[], []], sinks := [(outputNumber, .store 0), (complaintNumber, .store 1)]
    status := 0, flow := .going, line := 1, guarded := false, settings := [], loops := 0, traps := [], pending := [], kept := none }

def isGoing (st : State) : Bool := st.flow = .going

/-- The number that stands for the running shell. -/
def ownNumber : Text := "4242".toList

def sinkOf (st : State) (descriptor : Nat) : Option Sink :=
  (st.sinks.find? fun e => e.1 = descriptor).map Prod.snd

def withSink (st : State) (descriptor : Nat) (s : Sink) : State :=
  { st with sinks := (descriptor, s) :: st.sinks.filter fun e => e.1 ≠ descriptor }

@[simp] theorem sinkOf_withSink (st : State) (descriptor : Nat) (s : Sink) :
    (st.withSink descriptor s).sinkOf descriptor = some s := by simp [sinkOf, withSink]

def say (st : State) (descriptor : Nat) (s : Text) : State :=
  match st.sinkOf descriptor with
  | some (.store n) => { st with said := st.said.modify n (· ++ s) }
  | some (.file p) => match st.tree.entryAt? p with
    | some (.file b) => { st with tree := st.tree.put p (.file (b ++ bytesOf s)) }
    | _ => st
  | some .nowhere | none => st

def shellName (st : State) : Text := st.arguments.head?.getD []

def complain (st : State) (speaker : Text) (message : Text) (status : Int) : State :=
  let who := if speaker = [] then [] else speaker ++ ": ".toList
  { st.say complaintNumber (st.shellName ++ ": ".toList ++ Text.ofNat st.line ++ ": ".toList ++ who ++
      message ++ ['\n']) with status }

def giveUp (st : State) (speaker : Text) (message : Text) : State :=
  { st.complain speaker message 2 with flow := .leaving }

def bound? (st : State) (name : Text) : Option Text :=
  (st.bindings.find? fun e => e.1 = name).map Prod.snd

def bind (st : State) (name value : Text) : State :=
  { st with bindings := (name, value) :: st.bindings.filter fun e => e.1 ≠ name }

@[simp] theorem bound?_bind (st : State) (name value : Text) : (st.bind name value).bound? name = some value := by
  simp [bound?, bind]

def unbind (st : State) (name : Text) : State :=
  { st with bindings := st.bindings.filter fun e => e.1 ≠ name, exports := st.exports.filter (· ≠ name) }

def has (st : State) (setting : Char) : Bool := st.settings.contains setting

def parameter? (st : State) (name : Text) : Option Text :=
  match name with
  | ['$'] => some ownNumber
  | ['?'] => some (Text.ofInt st.status)
  | ['#'] => some (Text.ofNat (st.arguments.length - 1))
  | ['-'] => some st.settings
  | ['!'] => none
  | _ =>
    if name.head?.any Char.isDigit then st.arguments[name.foldl (fun n c => 10 * n + (c.toNat - 48)) 0]?
    else if name = "PWD".toList then
      (st.bound? name).or (some (argument (FileTree.pathOf st.directory).text))
    else st.bound? name

def separators (st : State) : Text := (st.bound? "IFS".toList).getD [' ', '\t', '\n']

/-- A step made with a part of the state of its own: afterwards only the tree, the input that is
left, what was said, and the status remain. -/
def isolate (step : State → State) (st : State) : State :=
  let inner := step st
  { st with
    tree := inner.tree, input := inner.input, said := inner.said, status := inner.status
    flow := if inner.flow = .killed then .killed else st.flow }

@[simp] theorem bindings_isolate (step : State → State) (st : State) :
    (st.isolate step).bindings = st.bindings := rfl
@[simp] theorem directory_isolate (step : State → State) (st : State) :
    (st.isolate step).directory = st.directory := rfl
@[simp] theorem sinks_isolate (step : State → State) (st : State) : (st.isolate step).sinks = st.sinks := rfl

/-- A step whose output goes to a new store, and what is found there. -/
def capture (step : State → State) (st : State) : State × Text :=
  let n := st.said.length
  let inner := step { st.withSink outputNumber (.store n) with said := st.said ++ [[]] }
  ({ inner with said := inner.said.take n, sinks := st.sinks }, inner.said[n]?.getD [])

@[simp] theorem sinks_capture (step : State → State) (st : State) : (capture step st).1.sinks = st.sinks := rfl

end State
end StyleShield.Shell
