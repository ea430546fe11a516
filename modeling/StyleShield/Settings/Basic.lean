import StyleShield.Fault
import StyleShield.Table

/-! Settings that a document may give, each of them unset at first. A table is read by
laying its sections flat, one level deep; a hyphen in a key counts as an underscore.
Keys that are no setting do not matter. -/
namespace StyleShield

structure Settings where
  compiler : Option Text
  ignores : Option (List Text)
  passIgnored : Option Bool
  ignorePackages : Option Bool
  ext : Option Text
  includes : Option (List Text)
  deriving DecidableEq

namespace Settings

def unset : Settings := ⟨none, none, none, none, none, none⟩

inductive Field where
  | compiler | ignores | passIgnored | ignorePackages | ext | includes
  deriving DecidableEq

namespace Field

def all : List Field := [compiler, ignores, passIgnored, ignorePackages, ext, includes]

def name : Field → Text
  | compiler => "compiler".toList
  | ignores => "ignores".toList
  | passIgnored => "not_pack_ignore_files".toList
  | ignorePackages => "ignore_node_modules".toList
  | ext => "ext".toList
  | includes => "include".toList

def expected : Field → Toml.Kind
  | compiler => .string
  | ignores => .array
  | passIgnored => .boolean
  | ignorePackages => .boolean
  | ext => .string
  | includes => .array

def ofName? (n : Text) : Option Field := all.find? fun f => f.name = n

def ofKey? (key : Text) : Option Field := ofName? (key.map fun c => if c = '-' then '_' else c)

end Field

/-- The entries of a table and of its sections, in order of first appearance; a later entry
under the same key takes the place of the earlier one. -/
def flatten (data : List (Text × Toml.Value)) : Table Text Toml.Value :=
  data.foldl (fun flat (k, v) => match v with
    | .table inner => inner.foldl (fun flat (k, v) => Table.put flat k v) flat
    | v => Table.put flat k v) []

def set (s : Settings) (field : Field) (key : Text) (v : Toml.Value) : Except Fault Settings :=
  let wrong : Except Fault Settings := .error (.settings (.wrongKind key field.expected v.kind))
  let strings (use : List Text → Settings) : Except Fault Settings :=
    if v.kind = .array then
      match v.strings? with
      | some ts => .ok (use ts)
      | none => .error (.settings (.notStrings key))
    else wrong
  match field with
  | .compiler => match v.string? with
    | some t => .ok { s with compiler := some t }
    | none => wrong
  | .ext => match v.string? with
    | some t => .ok { s with ext := some t }
    | none => wrong
  | .passIgnored => match v.boolean? with
    | some b => .ok { s with passIgnored := some b }
    | none => wrong
  | .ignorePackages => match v.boolean? with
    | some b => .ok { s with ignorePackages := some b }
    | none => wrong
  | .ignores => strings fun ts => { s with ignores := some ts }
  | .includes => strings fun ts => { s with includes := some ts }

def setAll : Settings → Table Text Toml.Value → Except Fault Settings
  | s, [] => .ok s
  | s, (k, v) :: es =>
    match Field.ofKey? k with
    | none => setAll s es
    | some f => match s.set f k v with
      | .error e => .error e
      | .ok s' => setAll s' es

def ofTable (data : List (Text × Toml.Value)) : Except Fault Settings := setAll unset (flatten data)

end Settings
end StyleShield
