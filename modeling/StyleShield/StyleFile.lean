import StyleShield.Codec

/-! Stylesheets in flight: a path, contents, the name of their encoding, and perhaps the
directory that the file was found under. Only buffered contents have a text. -/
namespace StyleShield

inductive Contents where
  | empty
  | buffer (bytes : Bytes)
  /-- A stream that can still be read. -/
  | stream (bytes : Bytes)
  /-- Anything else. -/
  | unreadable (shown : Text)
  deriving DecidableEq

structure StyleFile where
  path : Path
  contents : Contents
  encoding : Text
  base : Option Path
  deriving DecidableEq

namespace StyleFile

/-- The path below the base, or the bare name of a file without a base above it. -/
def relative (f : StyleFile) : Path :=
  (f.base.bind fun b => b.below? f.path).getD f.path.bareName

def isNull (f : StyleFile) : Bool := f.contents = .empty

def isBuffer (f : StyleFile) : Bool :=
  match f.contents with
  | .buffer _ => true
  | _ => false

def isStream (f : StyleFile) : Bool :=
  match f.contents with
  | .stream _ => true
  | _ => false

def text (codecs : Codecs) (f : StyleFile) : Except Fault Text :=
  match f.contents with
  | .buffer b => (codecs.named f.encoding).decode b
  | _ => .error (.input (.noContents f.path))

def withText (codecs : Codecs) (f : StyleFile) (s : Text) : Except Fault StyleFile :=
  match (codecs.named f.encoding).encode s with
  | .ok b => .ok { f with contents := .buffer b }
  | .error e => .error e

theorem withText_eq_ok_iff {codecs : Codecs} {f g : StyleFile} {s : Text} :
    f.withText codecs s = .ok g ↔
      ∃ b, (codecs.named f.encoding).encode s = .ok b ∧ g = { f with contents := .buffer b } := by
  unfold withText
  cases (codecs.named f.encoding).encode s <;> simp [eq_comm]

end StyleFile
end StyleShield
