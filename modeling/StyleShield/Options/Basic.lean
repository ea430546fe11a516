import StyleShield.Ignore
import StyleShield.Settings.Basic

/-! Options of a run. They come from the command line; settings fill in what was not
typed there. -/
namespace StyleShield

/-- What a flag was given. A separator attached to a flag is taken away and leaves nothing. -/
inductive Given where
  | text (t : Text)
  | nothing
  deriving DecidableEq

namespace Given

def text? : Given → Option Text
  | text t => some t
  | nothing => none

def orEmpty (g : Given) : Text := g.text?.getD []

@[simp] theorem text?_text (t : Text) : (text t).text? = some t := rfl
@[simp] theorem orEmpty_text (t : Text) : (text t).orEmpty = t := rfl

/-- The texts of a list up to the first place where there is none. -/
def leading : List Given → List Text
  | text t :: gs => t :: leading gs
  | _ => []

@[simp] theorem leading_map_text (ts : List Text) : leading (ts.map text) = ts := by
  induction ts <;> simp_all [leading]

end Given

structure Options where
  files : List Text
  output : Given
  outputDir : Option Given
  compiler : Option Given
  ignores : List Given
  passIgnored : Bool
  ignorePackages : Bool
  ext : Text
  includes : Option (List Given)
  verbosity : Int
  version : Bool
  deriving DecidableEq

namespace Options

def standard : Text := ['-']

def default : Options :=
  ⟨[], .text standard, none, none, Ignore.matchAll.map .text, false, true, [], none, 0, false⟩

def fillField (s : Settings) (o : Options) : Settings.Field → Options
  | .compiler => { o with compiler := (s.compiler.map .text).or o.compiler }
  | .ignores => { o with ignores := (s.ignores.map (·.map .text)).getD o.ignores }
  | .passIgnored => { o with passIgnored := s.passIgnored.getD o.passIgnored }
  | .ignorePackages => { o with ignorePackages := s.ignorePackages.getD o.ignorePackages }
  | .ext => { o with ext := s.ext.getD o.ext }
  | .includes => { o with includes := (s.includes.map (·.map .text)).or o.includes }

/-- What was typed stands; every other field is taken from the settings where they set it. -/
def fill (o : Options) (s : Settings) (typed : List Settings.Field) : Options :=
  (Settings.Field.all.filter fun f => f ∉ typed).foldl (fillField s) o

end Options
end StyleShield
