import StyleShield.Compiler.Choice
import StyleShield.Compiler.Command
import StyleShield.Compiler.Sass

/-! Where the command line runs: a file tree, a current directory, an input, room for nested
calls, and the compilers that can be chosen. A compiler may look at the tree as it is when it is
called. -/
namespace StyleShield

structure Workplace where
  tree : FileTree
  cwd : Place
  input : Bytes
  /-- For settings that hold values inside one another. -/
  room : Nat
  compilerFor : Compiler.Choice → FileTree → Compiler

namespace Workplace

def cwdPath (w : Workplace) : Path := FileTree.pathOf w.cwd

end Workplace

/-- What the bundled compilers need from outside. -/
structure Toolbox where
  engine? : Option Compiler.Sass.Engine
  launcher : FileTree → Compiler.Command.Launcher

/-- The bundled compilers; commands start in `cwd` where a stylesheet has no directory. -/
def Toolbox.compilerFor (tools : Toolbox) (cwd : Place) : Compiler.Choice → FileTree → Compiler
  | .identity, _ => Compiler.identity
  | .sass, _ => Compiler.Sass.compiler tools.engine? Compiler.Sass.expanded []
  | .command words, tree => Compiler.Command.compiler (tools.launcher tree) tree cwd words Codec.utf8

end StyleShield
