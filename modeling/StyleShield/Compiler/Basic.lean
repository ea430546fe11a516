import StyleShield.Run

/-! A compiler turns the source of a stylesheet, known by its path, into compiled text.
What it logs and how it fails is part of its run. -/
namespace StyleShield

abbrev Compiler := Text → Path → Run Text

namespace Compiler

def identity : Compiler := fun source _ => pure source

@[simp] theorem identity_apply (source : Text) (path : Path) : identity source path = pure source := rfl

end Compiler
end StyleShield
