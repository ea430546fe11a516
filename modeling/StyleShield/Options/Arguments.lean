import StyleShield.Options.Basic
import StyleShield.Options.Usage
import StyleShield.Text.DecimalDigit

/-! Reading the arguments of the command line. Each word is told apart first: a flag, in
full or by an unambiguous beginning, perhaps with a value attached; a word that looks
like a flag but is none; a plain word; or the separator, after which all words are
plain. Plain words form one group: those after a later flag are not recognised. -/
namespace StyleShield.Options

/-- What was typed. -/
structure Typed where
  files : List Text
  output : Option Given
  outputDir : Option Given
  compiler : Option Given
  ignores : Option (List Given)
  passIgnored : Bool
  shieldPackages : Bool
  ext : Option Given
  includes : Option (List Given)
  verbosity : Nat
  version : Bool
  deriving DecidableEq

namespace Typed

def nothing : Typed := ⟨[], none, none, none, none, false, false, none, none, 0, false⟩

def addTo (l : Option (List Given)) (v : Given) : Option (List Given) := some (l.getD [] ++ [v])

/-- A flag and what it was given, which does not matter for flags that take no value. -/
def withFlag (t : Typed) (value : Given) : Flag → Typed
  | .help => t
  | .output => { t with output := some value }
  | .outputDir => { t with outputDir := some value }
  | .compiler => { t with compiler := some value }
  | .ignore => { t with ignores := addTo t.ignores value }
  | .passIgnored => { t with passIgnored := true }
  | .shieldPackages => { t with shieldPackages := true }
  | .ext => { t with ext := some value }
  | .includes => { t with includes := addTo t.includes value }
  | .verbose => { t with verbosity := t.verbosity + 1 }
  | .version => { t with version := true }

def options (t : Typed) : Options :=
  let d := Options.default
  ⟨t.files, t.output.getD d.output, t.outputDir, t.compiler, t.ignores.getD d.ignores,
    t.passIgnored, !t.shieldPackages, (t.ext.map Given.orEmpty).getD d.ext, t.includes, t.verbosity, t.version⟩

def hasTyped (t : Typed) : Settings.Field → Bool
  | .compiler => t.compiler.isSome
  | .ignores => t.ignores.isSome
  | .passIgnored => t.passIgnored
  | .ignorePackages => t.shieldPackages
  | .ext => t.ext.isSome
  | .includes => t.includes.isSome

def fields (t : Typed) : List Settings.Field := Settings.Field.all.filter t.hasTyped

end Typed

inductive Kind where
  | plain
  | separator
  | flag (flag : Flag) (isShort : Bool) (attached : Option Text)
  | unknown
  deriving DecidableEq

def splitAtEquals (w : Text) : Text × Option Text :=
  match w.dropWhile (· ≠ '=') with
  | [] => (w, none)
  | _ :: v => (w.takeWhile (· ≠ '='), some v)

/-- A minus sign and a decimal number, with or without a point. -/
def isNegativeNumber (w : Text) : Bool :=
  let w := if w.getLast? = some '\n' then w.dropLast else w
  match w with
  | '-' :: s =>
    match s.dropWhile Text.isDecimalDigit with
    | [] => s ≠ []
    | '.' :: r => r ≠ [] && r.all Text.isDecimalDigit
    | _ => false
  | _ => false

def isShortSpelling (s : Text) : Bool := s.length = 2

/-- Flags that a word may stand for without naming one in full. -/
def interpretations (w : Text) : List (Text × Flag × Option Text) :=
  match w with
  | '-' :: '-' :: _ =>
    let (name, value) := splitAtEquals w
    (Flag.beginningWith name).map fun (s, f) => (s, f, value)
  | '-' :: c :: rest => match Flag.ofSpelling? ['-', c] with
    | some f => [(['-', c], f, some rest)]
    | none => []
  | _ => []

def kindOf (w : Text) : Except Stop Kind :=
  match w with
  | '-' :: _ :: _ =>
    match Flag.ofSpelling? w with
    | some f => .ok (.flag f (isShortSpelling w) none)
    | none =>
      let (name, value) := splitAtEquals w
      match Flag.ofSpelling? name with
      | some f => .ok (.flag f (isShortSpelling name) value)
      | none => match interpretations w with
        | [] => if isNegativeNumber w ∨ ' ' ∈ w then .ok .plain else .ok .unknown
        | [(s, f, v)] => .ok (.flag f (isShortSpelling s) v)
        | several => .error (.faulty (.ambiguous w (several.map Prod.fst)))
  | _ => .ok .plain

def kindsOf : List Text → Except Stop (List (Text × Kind))
  | [] => .ok []
  | w :: ws =>
    if w = ['-', '-'] then .ok ((w, .separator) :: ws.map fun v => (v, .plain))
    else do
      let k ← kindOf w
      let ks ← kindsOf ws
      return (w, k) :: ks

/-- Short flags written in one word: the flags without a value that come first, and the last
one with the value attached to it, if there is one. -/
def unpack (isShort : Bool) : (attached : Text) → Flag → Except Stop (List Flag × Flag × Option Text)
  | [], f => if f.takesValue then .ok ([], f, some []) else .error (.faulty (.ignoredArgument f []))
  | c :: rest, f =>
    if f.takesValue then .ok ([], f, some (c :: rest))
    else match (if isShort then Flag.ofSpelling? ['-', c] else none) with
      | none => .error (.faulty (.ignoredArgument f (c :: rest)))
      | some g =>
        if rest = [] then .ok ([f], g, none)
        else match unpack true rest g with
          | .error e => .error e
          | .ok (fs, last, value) => .ok (f :: fs, last, value)

/-- What an attached value gives. A separator is lost here, as it is with some versions of the argument
parser; with others it is a value like any other. -/
def givenBy (v : Text) : Given := if v = ['-', '-'] then .nothing else .text v

def withFlags (t : Typed) : List Flag → Except Stop Typed
  | [] => .ok t
  | f :: fs => if f = .help then .error .help else withFlags (t.withFlag .nothing f) fs

/-- Where the one group of plain words stands. -/
inductive Group where
  | ahead | running | behind
  deriving DecidableEq

def Group.afterFlag : Group → Group
  | ahead => ahead
  | _ => behind

/-- Words taken one after another; what is not recognised is kept apart. -/
def take : Group → Typed → List Text → List (Text × Kind) → Except Stop (Typed × List Text)
  | _, t, extras, [] => .ok (t, extras)
  | g, t, extras, (w, .plain) :: rest =>
    if g = .behind then take g t (extras ++ [w]) rest
    else take .running { t with files := t.files ++ [w] } extras rest
  | g, t, extras, (w, .separator) :: rest =>
    if g = .behind then take g t (extras ++ [w]) rest else take .running t extras rest
  | g, t, extras, (w, .unknown) :: rest => take g.afterFlag t (extras ++ [w]) rest
  | g, t, extras, (_, .flag f isShort attached) :: rest =>
    let unpacked : Except Stop (List Flag × Flag × Option Text) := match attached with
      | none => .ok ([], f, none)
      | some v => unpack isShort v f
    match unpacked with
    | .error e => .error e
    | .ok (fs, last, some v) => do
      let t ← withFlags t fs
      take g.afterFlag (t.withFlag (givenBy v) last) extras rest
    | .ok (fs, last, none) =>
      if last.takesValue then
        match rest with
        | (v, .plain) :: rest => do
          let t ← withFlags t fs
          take g.afterFlag (t.withFlag (.text v) last) extras rest
        | _ => .error (.faulty (.expectedArgument last))
      else do
        let t ← withFlags t (fs ++ [last])
        take g.afterFlag t extras rest

def ofArguments (args : List Text) : Except Stop Typed := do
  let kinds ← kindsOf args
  let (t, extras) ← take .ahead Typed.nothing [] kinds
  if extras = [] then return t else .error (.faulty (.unrecognized extras))

end StyleShield.Options
