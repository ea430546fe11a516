import StyleShield.Table
import StyleShield.Text.DecimalDigit
import StyleShield.Toml.Scalar

/-! Settings documents: lines that store values under dotted keys and headers that open
tables. `marks` remember which tables were opened by a header or a dotted key and
which values are closed, so that no line can open them again. Values inside one another
are read by calls inside one another, for which there is only so much room. -/
namespace StyleShield.Toml

abbrev Key := List Text

/-- What may no longer be done below certain keys. -/
structure Marks where
  opened : List Key
  closed : List Key
  /-- Tables that count as opened from the next header on. -/
  pending : List Key

namespace Marks

def empty : Marks := ⟨[], [], []⟩

def isOpened (m : Marks) (k : Key) : Bool := k ≠ [] && m.opened.contains k

/-- A closed value closes everything below it. -/
def isClosed (m : Marks) (k : Key) : Bool := k ≠ [] && m.closed.any (·.isPrefixOf k)

def close (m : Marks) (k : Key) : Marks := { m with closed := k :: m.closed }

def settle (m : Marks) : Marks := { m with opened := m.pending ++ m.opened, pending := [] }

def forget (m : Marks) (k : Key) : Marks :=
  { m with
    opened := m.opened.filter fun o => !k.isPrefixOf o
    closed := m.closed.filter fun o => !k.isPrefixOf o }

end Marks

/-- Change the table at a key; missing tables on the way are made. The last table of a list
stands for the list if `throughLists` says so. -/
def changeAt (throughLists : Bool) (change : Table Text Value → Except Fault (Table Text Value)) :
    Key → Table Text Value → Except Fault (Table Text Value)
  | [], t => change t
  | k :: ks, t =>
    match Table.find? t k with
    | none => do
      let inner ← changeAt throughLists change ks []
      return Table.put t k (.table inner)
    | some (.table inner) => do
      let inner ← changeAt throughLists change ks inner
      return Table.put t k (.table inner)
    | some (.array items) =>
      match items.getLast? with
      | some (.table inner) =>
        if throughLists then do
          let inner ← changeAt throughLists change ks inner
          return Table.put t k (.array (items.dropLast ++ [.table inner]))
        else malformed
      | _ => malformed
    | some _ => malformed

def store (throughLists : Bool) (above : Key) (last : Text) (v : Value) (t : Table Text Value) :
    Except Fault (Table Text Value) :=
  changeAt throughLists (fun inner =>
    if (Table.find? inner last).isSome then malformed else .ok (Table.put inner last v)) above t

def appendTable (above : Key) (last : Text) (t : Table Text Value) : Except Fault (Table Text Value) :=
  changeAt true (fun inner =>
    match Table.find? inner last with
    | none => .ok (Table.put inner last (.array [.table []]))
    | some (.array items) => .ok (Table.put inner last (.array (items ++ [.table []])))
    | some _ => malformed) above t

def isGapOrNewline (c : Char) : Bool := isGap c || c == '\n'

def skipComment : Reading Unit := fun s =>
  match s with
  | '#' :: r =>
    if (r.takeWhile (· ≠ '\n')).any isControl then malformed else .ok ((), r.dropWhile (· ≠ '\n'))
  | s => .ok ((), s)

def skipBetween : (fuel : Nat) → Reading Unit
  | 0, s => .ok ((), s)
  | fuel + 1, s => do
    let t := s.dropWhile isGapOrNewline
    let ((), r) ← skipComment t
    if r.length = s.length then return ((), r) else skipBetween fuel r

def isNest : Value → Bool
  | .array _ => true
  | .table _ => true
  | _ => false

/-- The calls that stay open while what is in an array is read, or in an inline table. -/
def arrayCalls : Nat := 2
def inlineCalls : Nat := 3

/-- What is read inside some calls, if there is room for them. Calls that end before another value begins are
not counted. -/
def enter {α : Type} (calls room : Nat) (inside : (room : Nat) → Except Fault α) : Except Fault α :=
  if room < calls then .error .tooDeep else inside (room - calls)

def readString (x : Except Fault (Text × Text)) : Except Fault (Value × Text) :=
  x.map fun (t, r) => (.string t, r)

def readScalar : Reading Value := fun s =>
  match s with
  | '"' :: '"' :: '"' :: r => readString (readManyLines false r)
  | '"' :: r => readString (readLine r)
  | '\'' :: '\'' :: '\'' :: r => readString (readManyLines true r)
  | '\'' :: r => readString (readLiteral r)
  | 't' :: 'r' :: 'u' :: 'e' :: r => .ok (.boolean true, r)
  | 'f' :: 'a' :: 'l' :: 's' :: 'e' :: r => .ok (.boolean false, r)
  | s => match readDate? s with
    | some d => d
    | none => match readTime? s with
      | some t => .ok t
      | none => match readNumber? s with
        | some n => n
        | none => match readSpecial? s with
          | some v => .ok v
          | none => malformed

mutual
def readValue : (fuel room : Nat) → Reading Value
  | 0, _, _ => malformed
  | fuel + 1, room, s =>
    match s with
    | '[' :: r => enter arrayCalls room fun room => do
      let ((), r) ← skipBetween (r.length + 1) r
      match r with
      | ']' :: r => return (.array [], r)
      | r => readItems fuel room [] r
    | '\x7b' :: r => match skipGap r with
      | '\x7d' :: r => .ok (.table [], r)
      | r => enter inlineCalls room fun room => readInline fuel room [] Marks.empty r
    | s => readScalar s

def readItems : (fuel room : Nat) → (done : List Value) → Reading Value
  | 0, _, _, _ => malformed
  | fuel + 1, room, done, s => do
    let (v, r) ← readValue fuel room s
    let ((), r) ← skipBetween (r.length + 1) r
    match r with
    | ']' :: r => return (.array (done ++ [v]), r)
    | ',' :: r => do
      let ((), r) ← skipBetween (r.length + 1) r
      match r with
      | ']' :: r => return (.array (done ++ [v]), r)
      | r => readItems fuel room (done ++ [v]) r
    | _ => malformed

def readPair : (fuel room : Nat) → Reading (Key × Value)
  | 0, _, _ => malformed
  | fuel + 1, room, s => do
    let (k, r) ← readKey (s.length + 1) s
    match r with
    | '=' :: r => do
      let (v, r) ← readValue fuel room (skipGap r)
      return ((k, v), r)
    | _ => malformed

def readInline : (fuel room : Nat) → (done : Table Text Value) → (marks : Marks) → Reading Value
  | 0, _, _, _, _ => malformed
  | fuel + 1, room, done, marks, s => do
    let ((k, v), r) ← readPair fuel room s
    if marks.isClosed k then malformed
    let done ← store false k.dropLast (k.getLast?.getD []) v done
    match skipGap r with
    | '\x7d' :: r => return (.table done, r)
    | ',' :: r =>
      let marks := if isNest v then marks.close k else marks
      readInline fuel room done marks (skipGap r)
    | _ => malformed
end

/-- A document read so far, and the header that the next pairs stand under. -/
structure Draft where
  table : Table Text Value
  marks : Marks
  header : Key

def openedBy (header : Key) (key : Key) : List Key :=
  (List.range (key.length - 1)).map fun i => header ++ key.take (i + 1)

def Draft.storePair (d : Draft) (key : Key) (v : Value) : Except Fault Draft := do
  let through := openedBy d.header key
  if through.any d.marks.isOpened then malformed
  let marks := { d.marks with pending := through ++ d.marks.pending }
  if marks.isClosed (d.header ++ key.dropLast) then malformed
  let table ← store true (d.header ++ key.dropLast) (key.getLast?.getD []) v d.table
  return { d with
    table := table
    marks := if isNest v then marks.close (d.header ++ key) else marks }

def Draft.openTable (d : Draft) (key : Key) : Except Fault Draft := do
  if d.marks.isOpened key || d.marks.isClosed key then malformed
  let table ← changeAt true .ok key d.table
  return ⟨table, { d.marks with opened := key :: d.marks.opened }, key⟩

def Draft.openItem (d : Draft) (key : Key) : Except Fault Draft := do
  if d.marks.isClosed key then malformed
  let marks := d.marks.forget key
  let table ← appendTable key.dropLast (key.getLast?.getD []) d.table
  return ⟨table, { marks with opened := key :: marks.opened }, key⟩

def Draft.readStatement (room : Nat) (d : Draft) (s : Text) : Except Fault (Draft × Text) :=
  match s with
  | '[' :: '[' :: r => do
    let (k, r) ← readKey (r.length + 1) (skipGap r)
    let d ← { d with marks := d.marks.settle }.openItem k
    match r with
    | ']' :: ']' :: r => return (d, r)
    | _ => malformed
  | '[' :: r => do
    let (k, r) ← readKey (r.length + 1) (skipGap r)
    let d ← { d with marks := d.marks.settle }.openTable k
    match r with
    | ']' :: r => return (d, r)
    | _ => malformed
  | s => do
    let ((k, v), r) ← readPair (2 * s.length + 4) room s
    let d ← d.storePair k v
    return (d, r)

def Draft.readAll (room : Nat) : (fuel : Nat) → Draft → Text → Except Fault Draft
  | 0, _, _ => malformed
  | fuel + 1, d, s =>
    match skipGap s with
    | [] => .ok d
    | '\n' :: r => readAll room fuel d r
    | '#' :: r => do
      let ((), r) ← skipComment ('#' :: r)
      readAll room fuel d r
    | s => do
      let (d, r) ← d.readStatement room s
      let ((), r) ← skipComment (skipGap r)
      match r with
      | [] => return d
      | '\n' :: r => readAll room fuel d r
      | _ => malformed

def withNewlines : Text → Text
  | '\r' :: '\n' :: s => '\n' :: withNewlines s
  | '\r' :: s => '\n' :: withNewlines s
  | c :: s => c :: withNewlines s
  | [] => []

def readDocument (room : Nat) (s : Text) : Except Fault (Table Text Value) :=
  (Draft.readAll room (s.length + 1) ⟨[], Marks.empty, []⟩ s).map Draft.table

def readBytes (room : Nat) (b : Bytes) : Except Fault (Table Text Value) :=
  match Encoding.utf8Text? b with
  | none => .error (.encoding .undecodable)
  | some s => readDocument room (withNewlines s)

/-- The room that is left to a program which has made few calls before it reads. -/
def usualRoom : Nat := 984

end StyleShield.Toml
