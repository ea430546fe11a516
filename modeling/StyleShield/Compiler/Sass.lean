import StyleShield.Compiler.Basic

/-! Compilation by a Sass engine. The engine is a function that the caller supplies, if there
is one; it is asked with the source, an output style and the directories to look into, the
stylesheet's own first. -/
namespace StyleShield.Compiler.Sass

structure Request where
  source : Text
  outputStyle : Text
  includePaths : List Text
  deriving DecidableEq

/-- Compiled text, or the engine's complaint. -/
abbrev Engine := Request → Except Text Text

def expanded : Text := "expanded".toList

def request (outputStyle : Text) (includePaths : List Text) (source : Text) (path : Path) : Request :=
  ⟨source, outputStyle, path.parent.text :: includePaths⟩

def compiler (engine? : Option Engine) (outputStyle : Text) (includePaths : List Text) : Compiler :=
  fun source path => match engine? with
    | none => Run.fail .missingEngine
    | some engine => match engine (request outputStyle includePaths source path) with
      | .ok compiled => pure compiled
      | .error complaint => Run.fail (.compiler (.engine path complaint))

end StyleShield.Compiler.Sass
