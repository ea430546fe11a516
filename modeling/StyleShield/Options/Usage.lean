import StyleShield.Options.Flag

/-! What the command line tells its user: the usage, the whole help, and what was wrong
with the arguments. -/
namespace StyleShield.Options

def lines (ls : List String) : Text := ls.flatMap fun l => l.toList ++ ['\n']

def usage : Text := lines [
   "usage: lightcss [-h] [-o OUTPUT] [--output-dir DIR] [--compiler CMD]",
   "                [--ignore PATTERN] [--not-pack-ignore-files]",
   "                [--no-ignore-node-modules] [--ext EXT] [--include PATTERN]",
   "                [-v] [--version]",
   "                [files ...]"]

def details : Text := lines [
   "lightcss: Compile stylesheets without letting the compiler touch @import",
   "",
   "positional arguments:",
   "  files                 Input files or directories (use '-' for stdin)",
   "",
   "options:",
   "  -h, --help            show this help message and exit",
   "  -o OUTPUT, --output OUTPUT",
   "                        Output file for a single input (use '-' for stdout)",
   "  --output-dir DIR      Write each compiled file to DIR as <name>.css",
   "  --compiler CMD        Compiler: 'sass' (libsass), 'identity', or a command",
   "                        reading stdin, e.g. 'lessc -'",
   "  --ignore PATTERN      Glob for imports to leave alone; replaces the match-",
   "                        all default. Can be repeated",
   "  --not-pack-ignore-files",
   "                        Pass files whose own path matches an ignore pattern",
   "                        through uncompiled",
   "  --no-ignore-node-modules",
   "                        Shield package imports like 'lodash/foo' too",
   "  --ext EXT             Rewrite the extension of restored imports, e.g. '.css'",
   "  --include PATTERN     File patterns to pick up when walking directories",
   "                        (default: *.less, *.scss, *.css)",
   "  -v, --verbose         More logging; repeat for debug",
   "  --version             Show version information and exit",
   "",
   "Common usage:",
   "  lightcss --compiler \"lessc -\" --ext .css src/styles/ --output-dir dist/",
   "  lightcss --compiler sass --ignore \"_*\" main.scss -o main.css",
   "  cat main.less | lightcss --compiler \"lessc -\" -",
   "",
   "Imports are hidden from the compiler and restored in the output. By default",
   "every import is left alone; narrow this with --ignore."]

def help : Text := usage ++ '\n' :: details

inductive ArgumentFault where
  | expectedArgument (flag : Flag)
  | ignoredArgument (flag : Flag) (given : Text)
  | ambiguous (word : Text) (candidates : List Text)
  | unrecognized (words : List Text)
  deriving DecidableEq

def ArgumentFault.message : ArgumentFault → Text
  | expectedArgument f => "argument ".toList ++ f.shown ++ ": expected one argument".toList
  | ignoredArgument f a => "argument ".toList ++ f.shown ++ ": ignored explicit argument ".toList ++ Text.quoted a
  | ambiguous w cs => "ambiguous option: ".toList ++ w ++ " could match ".toList ++ Text.join [',', ' '] cs
  | unrecognized ws => "unrecognized arguments: ".toList ++ Text.join [' '] ws

/-- Why the program ends before it starts. -/
inductive Stop where
  | help
  | faulty (cause : ArgumentFault)
  deriving DecidableEq

def Stop.code : Stop → Nat
  | help => 0
  | faulty _ => 2

def Stop.output : Stop → Text
  | help => Options.help
  | faulty _ => []

def Stop.complaint : Stop → Text
  | help => []
  | faulty c => usage ++ "lightcss: error: ".toList ++ c.message ++ ['\n']

end StyleShield.Options
