import StyleShield.Glob.Parser

/-! Which import targets and files are left alone. A matcher is one glob; a candidate is
ignored when some matcher accepts it, or when it names a package and packages are left
alone. -/
namespace StyleShield

structure Matcher where
  glob : Text
  patterns : List Glob.Pattern
  deriving DecidableEq

namespace Matcher

/-- The globs that accept every candidate, the empty one included. -/
def everything : List Text := [['*', '*'], ['*', '*', '/', '*']]

def compile (glob : Text) : Except Fault Matcher :=
  match glob with
  | '!' :: _ => .error (.settings (.negatedPattern glob))
  | _ => (Glob.patternsOf [glob]).map (Matcher.mk glob)

def accepts (m : Matcher) (candidate : Text) : Bool :=
  m.glob ∈ everything || Glob.matchPath m.patterns candidate

theorem accepts_of_mem_everything {m : Matcher} (h : m.glob ∈ everything) (c : Text) :
    m.accepts c = true := by simp [accepts, h]

def isSkipped (glob : Text) : Bool :=
  match glob with
  | [] => true
  | '#' :: _ => true
  | _ => false

def compileAll : List Text → Except Fault (List Matcher)
  | [] => .ok []
  | g :: gs =>
    if isSkipped (Text.strip g) then compileAll gs
    else do
      let m ← compile (Text.strip g)
      let ms ← compileAll gs
      return m :: ms

end Matcher

namespace Ignore

def matchAll : List Text := [['*', '*', '/', '*']]

/-- A package is named by a text that starts with an ASCII letter or an at sign. -/
def isPackage : Text → Bool
  | c :: _ => c = '@' || c.isAlpha
  | [] => false

def ignores (matchers : List Matcher) (packages : Bool) (candidate : Text) : Bool :=
  (packages && isPackage candidate) || matchers.any (·.accepts candidate)

@[simp] theorem ignores_nil_false (c : Text) : ignores [] false c = false := rfl

theorem ignores_mono {ms ns : List Matcher} (h : ∀ m ∈ ms, m ∈ ns) {packages : Bool} {c : Text}
    (hc : ignores ms packages c = true) : ignores ns packages c = true := by
  simp only [ignores, Bool.or_eq_true, List.any_eq_true] at *
  exact hc.imp_right fun ⟨m, hm, ha⟩ => ⟨m, h m hm, ha⟩

end Ignore
end StyleShield
