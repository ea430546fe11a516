import StyleShield.Table
import StyleShield.Text.Basic

/-! Values of settings. A table lists its entries in the order in which their keys first
came. Floats and dates keep their written form: settings never use their value. A
table made by a program may hold nothing under a key; no document writes that. -/
namespace StyleShield.Toml

/-- What a value is, whatever it holds. -/
inductive Kind where
  | string | integer | float | boolean | array | table | dateTime | date | time | nothing
  deriving DecidableEq

def Kind.word : Kind → String
  | .string => "str" | .integer => "int" | .float => "float" | .boolean => "bool" | .array => "list"
  | .table => "dict" | .dateTime => "datetime" | .date => "date" | .time => "time" | .nothing => "NoneType"

inductive Value where
  | string (s : Text)
  | integer (n : Int)
  | float (written : Text)
  | boolean (b : Bool)
  | array (items : List Value)
  | table (entries : List (Text × Value))
  | dateTime (written : Text)
  | date (written : Text)
  | time (written : Text)
  | nothing

namespace Value

def kind : Value → Kind
  | string _ => .string | integer _ => .integer | float _ => .float | boolean _ => .boolean
  | array _ => .array | table _ => .table | dateTime _ => .dateTime | date _ => .date | time _ => .time
  | nothing => .nothing

def string? : Value → Option Text
  | string s => some s
  | _ => none

def boolean? : Value → Option Bool
  | boolean b => some b
  | _ => none

def strings? : Value → Option (List Text)
  | array vs => vs.mapM string?
  | _ => none

end Value
end StyleShield.Toml
