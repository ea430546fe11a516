import StyleShield.Text.Basic
import StyleShield.Text.Quoted

/-! The flags of the command line, their spellings and whether they take a value. -/
namespace StyleShield.Options

inductive Flag where
  | help | output | outputDir | compiler | ignore | passIgnored | shieldPackages | ext | includes
  | verbose | version
  deriving DecidableEq

namespace Flag

def all : List Flag :=
  [help, output, outputDir, compiler, ignore, passIgnored, shieldPackages, ext, includes, verbose, version]

def spellings : Flag → List Text
  | help => ["-h".toList, "--help".toList]
  | output => ["-o".toList, "--output".toList]
  | outputDir => ["--output-dir".toList]
  | compiler => ["--compiler".toList]
  | ignore => ["--ignore".toList]
  | passIgnored => ["--not-pack-ignore-files".toList]
  | shieldPackages => ["--no-ignore-node-modules".toList]
  | ext => ["--ext".toList]
  | includes => ["--include".toList]
  | verbose => ["-v".toList, "--verbose".toList]
  | version => ["--version".toList]

def takesValue : Flag → Bool
  | output | outputDir | compiler | ignore | ext | includes => true
  | help | passIgnored | shieldPackages | verbose | version => false

def shown (f : Flag) : Text := Text.join ['/'] f.spellings

def table : List (Text × Flag) := all.flatMap fun f => f.spellings.map fun s => (s, f)

def ofSpelling? (s : Text) : Option Flag := (table.find? fun e => e.1 = s).map Prod.snd

def beginningWith (s : Text) : List (Text × Flag) := table.filter fun e => s.isPrefixOf e.1

end Flag
end StyleShield.Options
