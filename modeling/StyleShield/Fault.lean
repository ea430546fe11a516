import StyleShield.Path
import StyleShield.Text.Encoding
import StyleShield.Text.Quoted
import StyleShield.Toml.Value

/-! Causes of failure. A fault names what went wrong and holds the values that its
message shows; `Fault.message` is the one place where the wording stands. -/
namespace StyleShield

/-- Settings that no run can be made with. -/
inductive SettingsFault where
  | noCompiler
  | negatedPattern (glob : Text)
  | emptyCommand
  | wrongKind (key : Text) (expected found : Toml.Kind)
  | notStrings (key : Text)
  deriving DecidableEq

inductive InputFault where
  | streaming
  | noContents (path : Path)
  deriving DecidableEq

/-- A bundled compiler that did not give a stylesheet. -/
inductive CompilerFault where
  | notFound (word : Text)
  | exited (commandLine : Text) (path : Path) (code : Int) (stderr : Text)
  | engine (path : Path) (stderr : Text)
  deriving DecidableEq

inductive SystemError where
  | permissionDenied | noEntry | alreadyThere | notDirectory | isDirectory | nameTooLong | tooManyLinks
  deriving DecidableEq

inductive Fault where
  | settings (cause : SettingsFault)
  | input (cause : InputFault)
  | compiler (cause : CompilerFault)
  | foreign (message : Text)
  | digitLimit (count : Nat)
  | emptyName (path : Path)
  | unclosedQuote
  | danglingEscape
  | noWords
  | nullCharacter
  | invalidPattern (pattern : Text)
  | badCharacterRange
  | malformedToml
  | tooDeep
  | encoding (cause : Encoding.Failure)
  | notTable
  | notSearchable
  | missingPattern
  | missingOutput
  | missingEngine
  | linkLoop (path : Path)
  | pathNotFound (raw : Text)
  | targetIsDirectory (path : Path)
  | system (cause : SystemError) (place : Text)
  deriving DecidableEq

def pluginName : Text := "lightcss".toList

/-- The text of a fault of the plugin itself bears its name. -/
def ownText (message : Text) : Text := pluginName ++ ": ".toList ++ message

def SettingsFault.message : SettingsFault → Text
  | noCompiler => "Compiler is invalid!".toList
  | negatedPattern g => "Negated ignore patterns are not supported: ".toList ++ Text.quoted g
  | emptyCommand => "Compiler command is empty".toList
  | wrongKind key e f => "Config key `".toList ++ key ++ "` must be a ".toList ++ e.word.toList ++
      ", got ".toList ++ f.word.toList
  | notStrings key => "Config key `".toList ++ key ++ "` must be a list of strings".toList

def InputFault.message : InputFault → Text
  | streaming => "Streaming not supported.".toList
  | noContents p => "No buffered contents for ".toList ++ p.text

def CompilerFault.message : CompilerFault → Text
  | notFound w => "Compiler not found: ".toList ++ w
  | exited line p code _ => '`' :: line ++ "` failed on ".toList ++ p.text ++ " (exit ".toList ++
      Text.ofInt code ++ [')']
  | engine p _ => "Sass compilation failed on ".toList ++ p.text

def CompilerFault.stderr : CompilerFault → Text
  | notFound _ => []
  | exited _ _ _ e => e
  | engine _ e => e

def SystemError.number : SystemError → Nat
  | noEntry => 2 | permissionDenied => 13 | alreadyThere => 17 | notDirectory => 20 | isDirectory => 21
  | nameTooLong => 36 | tooManyLinks => 40

def SystemError.reason : SystemError → String
  | noEntry => "No such file or directory"
  | permissionDenied => "Permission denied"
  | alreadyThere => "File exists"
  | notDirectory => "Not a directory"
  | isDirectory => "Is a directory"
  | nameTooLong => "File name too long"
  | tooManyLinks => "Too many levels of symbolic links"

namespace Fault

def message : Fault → Text
  | settings c => ownText c.message
  | input c => ownText c.message
  | compiler c => ownText c.message
  | foreign m => m
  | digitLimit n => "Exceeds the limit (4300 digits) for integer string conversion: value has ".toList ++
      Text.ofNat n ++ " digits; use sys.set_int_max_str_digits() to increase the limit".toList
  | emptyName p => "PosixPath(".toList ++ Text.quoted p.text ++ ") has an empty name".toList
  | unclosedQuote => "No closing quotation".toList
  | danglingEscape => "No escaped character".toList
  | noWords => "list index out of range".toList
  | nullCharacter => "embedded null byte".toList
  | invalidPattern p => "Invalid git pattern: ".toList ++ Text.quoted p
  | badCharacterRange => "bad character range".toList
  | malformedToml => "malformed document".toList
  | tooDeep => "maximum recursion depth exceeded".toList
  | encoding .unknownEncoding => "unknown encoding".toList
  | encoding .undecodable => "bytes that are no text".toList
  | encoding .unencodable => "text outside the encoding".toList
  | encoding (.foreign m) => m
  | notTable => "not a table".toList
  | notSearchable => "not a container".toList
  | missingPattern => "a pattern that is not given".toList
  | missingOutput => "an output that is not given".toList
  | missingEngine => "No module named 'sass'".toList
  | linkLoop p => "Symlink loop from ".toList ++ Text.quoted p.text
  | pathNotFound raw => "Path not found: ".toList ++ raw
  | targetIsDirectory p => "Destination is a directory: ".toList ++ Text.quotedIfNeeded p.text
  | system c place => "[Errno ".toList ++ Text.ofNat c.number ++ "] ".toList ++ c.reason.toList ++
      ": ".toList ++ Text.quoted place

def isOwn : Fault → Bool
  | settings _ | input _ | compiler _ => true
  | _ => false

def isSystem : Fault → Bool
  | pathNotFound _ | targetIsDirectory _ | system _ _ => true
  | _ => false

end Fault
end StyleShield
