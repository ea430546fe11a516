import StyleShield.Shell.Arithmetic
import StyleShield.Shell.State

/-! What words stand for. A word is put into bits first: characters, each with whether it
stands for itself, and places where a field may end. Bits make fields, and a field with
wildcards stands for the paths that it fits. A script inside a word is run by
`substitute`. -/
namespace StyleShield.Shell

inductive Bit where
  | char (c : Char) (fixed : Bool)
  /-- A field is here even if it has no characters. -/
  | present
  /-- The end of a field, if one has begun. -/
  | gap
  /-- The end of a field, which may be empty. -/
  | cut
  deriving DecidableEq

namespace Bit

def ofText (fixed : Bool) (s : Text) : List Bit := s.map fun c => .char c fixed

@[simp] theorem ofText_append (fixed : Bool) (s t : Text) :
    ofText fixed (s ++ t) = ofText fixed s ++ ofText fixed t := List.map_append

def quoted (s : Text) : List Bit := .present :: ofText true s

def isSoft (c : Char) : Bool := c == ' ' || c == '\t' || c == '\n'

def split (separators : Text) (s : Text) : List Bit :=
  s.map fun c => if separators.contains c then (if isSoft c then .gap else .cut) else .char c false

/-- Fields of bits. `begun` is the field being built; `justEnded` says that a gap has ended a
field, so that a cut behind it belongs to the same end. -/
def fieldsFrom (begun : Option Marked) (justEnded : Bool) : List Bit → List Marked
  | [] => begun.toList
  | .char c fixed :: bs => fieldsFrom (some (begun.getD [] ++ [(c, fixed)])) false bs
  | .present :: bs => fieldsFrom (some (begun.getD [])) false bs
  | .gap :: bs => match begun with
    | some m => m :: fieldsFrom none true bs
    | none => fieldsFrom none justEnded bs
  | .cut :: bs => match begun with
    | some m => m :: fieldsFrom none false bs
    | none => if justEnded then fieldsFrom none false bs else [] :: fieldsFrom none false bs

def fields (bs : List Bit) : List Marked := fieldsFrom none false bs

@[simp] theorem fields_nil : fields [] = [] := rfl
@[simp] theorem fields_present : fields [.present] = [[]] := rfl

def marked (bs : List Bit) : Marked :=
  bs.flatMap fun
    | .char c fixed => [(c, fixed)]
    | .present => []
    | .gap | .cut => [(' ', true)]

@[simp] theorem text_marked_ofText (fixed : Bool) (s : Text) : (marked (ofText fixed s)).text = s := by
  induction s with
  | nil => rfl
  | cons c s ih => simpa [marked, ofText, Marked.text] using ih

end Bit

namespace State

def between (values : List (List Bit)) : List Bit :=
  match values with
  | [] => []
  | v :: vs => v ++ vs.flatMap (.gap :: ·)

def valueBits (st : State) (isQuoted splits : Bool) (value : Text) : List Bit :=
  if isQuoted then Bit.quoted value
  else if splits then Bit.split st.separators value
  else Bit.ofText false value

def argumentBits (st : State) (name : Text) (isQuoted splits : Bool) : List Bit :=
  let values := st.arguments.drop 1
  if name = ['*'] ∧ isQuoted then Bit.quoted (Text.join (st.separators.take 1) values)
  else between (values.map (st.valueBits isQuoted splits))

def trimNewlines (s : Text) : Text := Text.trimEnd (· = '\n') s

def bits (substitute : Text → State → State) : (fuel : Nat) → (splits : Bool) → Word → State → State × List Bit
  | 0, _, _, st => (st, [])
  | _, _, [], st => (st, [])
  | fuel + 1, splits, f :: w, st =>
    let (st, front) : State × List Bit := match f with
      | .plain s => (st, Bit.ofText false (argument s))
      | .quoted s =>
        (st, if s = [] ∧ w.any isAll ∧ st.arguments.length ≤ 1 then [] else Bit.quoted (argument s))
      | .command script isQuoted =>
        let (inner, out) := capture (substitute script) st
        (inner, st.valueBits isQuoted splits (trimNewlines out))
      | .arithmetic e isQuoted =>
        let (st, inner) := bits substitute fuel false (Word.ofText true e) st
        let text := (Bit.marked inner).text
        match Arithmetic.evaluate (fun x => (st.parameter? x).getD []) text with
        | .ok (n, made) =>
          (made.reverse.foldl (fun st e => st.bind e.1 e.2) st, st.valueBits isQuoted splits (Text.ofInt n))
        | .error c => (st.giveUp [] (c.message text), [])
      | .parameter name operator word isQuoted =>
        let isList := name = ['@'] ∨ name = ['*']
        let value? : Option Text :=
          if isList then (if st.arguments.length ≤ 1 then none else some (Text.join [' '] (st.arguments.drop 1)))
          else st.parameter? name
        let isMissing := value? = none ∨ (operator.head? = some ':' ∧ value? = some [])
        let same : List Bit := if isList then st.argumentBits name isQuoted splits
          else st.valueBits isQuoted splits (value?.getD [])
        let needed (st : State) (result : List Bit) : State × List Bit :=
          if st.has 'u' ∧ value? = none ∧ !isList then (st.giveUp [] (name ++ ": parameter not set".toList), [])
          else (st, result)
        let instead (st : State) : State × List Bit :=
          let (st, inner) := bits substitute fuel splits (Word.ofText isQuoted word) st
          (st, if isQuoted then .present :: inner else inner)
        let pattern (change : Marked → Text → Text) : State × List Bit :=
          let (st, inner) := bits substitute fuel false (Word.ofText false word) st
          needed st (st.valueBits isQuoted splits (change (Bit.marked inner) (value?.getD [])))
        match String.ofList operator with
        | "" => if name = [] then (st.giveUp [] "Bad substitution".toList, []) else needed st same
        | "length" => needed st (st.valueBits isQuoted splits (Text.ofNat (value?.getD []).length))
        | "-" | ":-" => if isMissing then instead st else (st, same)
        | "+" | ":+" => if isMissing then (st, if isQuoted then [.present] else []) else instead st
        | "=" | ":=" =>
          if isMissing then
            let (st, inner) := bits substitute fuel false (Word.ofText isQuoted word) st
            let value := (Bit.marked inner).text
            (st.bind name value, st.valueBits isQuoted splits value)
          else (st, same)
        | "?" | ":?" =>
          if isMissing then
            let (st, inner) := bits substitute fuel false (Word.ofText isQuoted word) st
            let what := if word = [] then
                "parameter not set".toList ++ if operator.head? = some ':' then " or null".toList else []
              else (Bit.marked inner).text
            (st.giveUp [] (name ++ ": ".toList ++ what), [])
          else (st, same)
        | "%" => pattern (Marked.withoutEnd false)
        | "%%" => pattern (Marked.withoutEnd true)
        | "#" => pattern (Marked.withoutStart false)
        | _ => pattern (Marked.withoutStart true)
    if st.isGoing then
      let (st, rest) := bits substitute fuel splits w st
      (st, front ++ rest)
    else (st, front)
where
  isAll : Fragment → Bool
    | .parameter ['@'] [] _ true => true
    | _ => false

/-! ### Paths -/

def namesIn (st : State) (directory : Place) : List Text :=
  (st.tree.entries.filterMap fun (p, _) =>
    if p.dropLast = directory ∧ p ≠ [] then (p.getLast?).map argument else none).mergeSort
      fun a b => Path.compareText a b ≠ .gt

def partsOf : Marked → List Marked
  | [] => [[]]
  | ('/', _) :: m => [] :: partsOf m
  | e :: m => match partsOf m with
    | p :: ps => (e :: p) :: ps
    | [] => [[e]]

/-- Paths that fit the parts of a pattern, `done` being the path so far. -/
def pathsFrom (st : State) (done : Text) : List Marked → List Text
  | [] => [done]
  | p :: ps =>
    let directory := st.tree.directoryAt? st.directory (Path.ofText (if done = [] then ['.'] else spelled done))
    let slash := if ps = [] then [] else ['/']
    if p.hasWildcard then
      match directory with
      | none => []
      | some d =>
        let hidden := (p.head?.map Prod.fst) = some '.'
        ((st.namesIn d).filter fun n => (hidden || n.head? ≠ some '.') && p.matchesAll n).flatMap fun n =>
          if ps = [] ∨ (st.tree.directoryAt? d ⟨.none, [spelled n]⟩).isSome then
            pathsFrom st (done ++ n ++ slash) ps
          else []
    else
      let next := done ++ p.text ++ slash
      if ps = [] ∧ p ≠ [] then
        match st.tree.locateSelf st.directory (Path.ofText (spelled next)) with
        | .ok _ => [next]
        | .error _ => []
      else pathsFrom st next ps

/-- The texts that a field stands for: the paths it fits, or itself if there are none. -/
def paths (st : State) (m : Marked) : List Text :=
  if m.hasWildcard ∧ !st.has 'f' then
    match st.pathsFrom [] (partsOf m) with
    | [] => [m.text]
    | found => found
  else [m.text]

/-! ### Words -/

/-- How many fragments a word has at most, with those of the words inside it. -/
def sizeOfWord (w : Word) : Nat :=
  w.foldl (fun n f => n + 2 + match f with
    | .plain _ | .quoted _ | .command _ _ => 0
    | .parameter _ _ word _ => word.length
    | .arithmetic e _ => e.length) 1

def expand (substitute : Text → State → State) (w : Word) (st : State) : State × List Text :=
  let (st, bs) := bits substitute (sizeOfWord w) true w st
  (st, (Bit.fields bs).flatMap st.paths)

def expandAll (substitute : Text → State → State) : List Word → State → State × List Text
  | [], st => (st, [])
  | w :: ws, st =>
    let (st, args) := expand substitute w st
    if st.isGoing then
      let (st, more) := expandAll substitute ws st
      (st, args ++ more)
    else (st, args)

def pattern (substitute : Text → State → State) (w : Word) (st : State) : State × Marked :=
  let (st, bs) := bits substitute (sizeOfWord w) false w st
  (st, Bit.marked bs)

def value (substitute : Text → State → State) (w : Word) (st : State) : State × Text :=
  let (st, m) := st.pattern substitute w
  (st, m.text)

end State
end StyleShield.Shell
