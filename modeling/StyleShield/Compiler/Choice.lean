import StyleShield.Text.Blank
import StyleShield.Words

/-! How a compiler is named in settings: by one of two known words, or by a command line. -/
namespace StyleShield.Compiler

inductive Choice where
  | identity
  | sass
  | command (words : List Text)
  deriving DecidableEq

namespace Choice

def identityWord : Text := ['i', 'd', 'e', 'n', 't', 'i', 't', 'y']
def sassWord : Text := ['s', 'a', 's', 's']

def wordsOf (line : Text) : Except Fault (List Text) :=
  match Words.split line with
  | .error e => .error e
  | .ok [] => .error (.settings .emptyCommand)
  | .ok ws => .ok ws

def ofText (written : Text) : Except Fault Choice :=
  let name := Text.strip written
  if name = identityWord then .ok identity
  else if name = sassWord then .ok sass
  else (wordsOf name).map command

end Choice
end StyleShield.Compiler
