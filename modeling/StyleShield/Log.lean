import StyleShield.Text.Basic

/-! Log records and how they are shown. A record is shown when its severity reaches the
threshold that the verbosity sets. -/
namespace StyleShield

inductive Level where
  | trace | debug | info | success | warning | error | critical
  deriving DecidableEq

def Level.severity : Level → Nat
  | trace => 5 | debug => 10 | info => 20 | success => 25 | warning => 30 | error => 40 | critical => 50

def Level.name : Level → String
  | trace => "TRACE" | debug => "DEBUG" | info => "INFO" | success => "SUCCESS" | warning => "WARNING"
  | error => "ERROR" | critical => "CRITICAL"

inductive Source where
  | commandLine | pipeline | importShield | compilers
  deriving DecidableEq

def Source.name : Source → String
  | commandLine => "lightcss.cli"
  | pipeline => "lightcss.pipeline"
  | importShield => "lightcss.shielding.import_shield"
  | compilers => "lightcss.compilers"

structure Record where
  level : Level
  source : Source
  message : Text
  deriving DecidableEq

namespace Log

/-- Warnings only at 0, the course of the work at 1, everything otherwise. -/
def threshold (verbosity : Int) : Level :=
  if verbosity = 0 then .warning else if verbosity = 1 then .info else .debug

def isShown (verbosity : Int) (level : Level) : Bool :=
  (threshold verbosity).severity ≤ level.severity

/-- One line: the level padded to seven characters, the source, the message. -/
def line (level : Level) (source message : Text) : Text :=
  let name := level.name.toList
  name ++ List.replicate (7 - name.length) ' ' ++ " │ ".toList ++ source ++ " ║ ".toList ++ message ++ ['\n']

end Log

def Record.line (r : Record) : Text := Log.line r.level r.source.name.toList r.message
end StyleShield
