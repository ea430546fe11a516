import StyleShield.Codec
import StyleShield.Compiler.Basic
import StyleShield.FileTree.Basic
import StyleShield.Words

/-! Compilation by an external command, which reads the source on its input and writes
the result on its output. The command runs in the stylesheet's directory if there is
one. A status other than zero is a failure. -/
namespace StyleShield.Compiler.Command

structure Finished where
  status : Int
  output : Bytes
  complaint : Bytes
  deriving DecidableEq

/-- Why a command did not start. -/
inductive Refusal where
  | notFound
  | system (cause : SystemError)
  deriving DecidableEq

/-- Starts a command in a directory with some input and waits for its end. -/
abbrev Launcher := (words : List Text) → (directory : Place) → (input : Bytes) → Except Refusal Finished

def directoryFor (tree : FileTree) (cwd : Place) (path : Path) : Except Fault Place :=
  tree.ask cwd path.parent ((tree.directoryAt? cwd path.parent).getD cwd)

def answer (words : List Text) (codec : Codec) (path : Path) (done : Finished) : Except Fault Text :=
  if done.status = 0 then codec.decode done.output
  else match codec.decodeLossy done.complaint with
    | .error e => .error e
    | .ok stderr => .error (.compiler (.exited (Words.join words) path done.status stderr))

def start (launch : Launcher) (directory : Place) (words : List Text) (input : Bytes) :
    Except Fault Finished :=
  match words with
  | [] => .error .noWords
  | word :: _ =>
    if words.any (·.contains '\x00') then .error .nullCharacter
    else match launch words directory input with
      | .ok done => .ok done
      | .error .notFound => .error (.compiler (.notFound word))
      | .error (.system e) => .error (.system e word)

def compiler (launch : Launcher) (tree : FileTree) (cwd : Place) (words : List Text)
    (codec : Codec) : Compiler := fun source path => do
  let directory ← Run.ofExcept (directoryFor tree cwd path)
  Run.log .compilers .debug ("Running ".toList ++ Words.join words ++ " on ".toList ++ path.text)
  let input ← Run.ofExcept (codec.encode source)
  let done ← Run.ofExcept (start launch directory words input)
  Run.ofExcept (answer words codec path done)

end StyleShield.Compiler.Command
