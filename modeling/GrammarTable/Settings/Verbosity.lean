import GrammarTable.Settings.Fault
import GrammarTable.Text.Blank

/-!
# Verbosity

How much a run tells about itself.
-/

namespace GrammarTable.Settings

open Text

inductive Level where
  | info
  | debug
  | trace
  deriving DecidableEq, Repr, Inhabited

def Level.word : Level → String
  | .info => "info"
  | .debug => "debug"
  | .trace => "trace"

def Level.heading : Level → String
  | .info => "INFO"
  | .debug => "DEBUG"
  | .trace => "TRACE"

def Level.rank : Level → Nat
  | .info => 0
  | .debug => 1
  | .trace => 2

inductive Verbosity where
  | quiet
  | debug
  | verbose
  deriving DecidableEq, Repr, Inhabited

def Verbosity.word : Verbosity → String
  | .quiet => "quiet"
  | .debug => "debug"
  | .verbose => "verbose"

/-- The greatest detail that is still told. -/
def Verbosity.level : Verbosity → Level
  | .quiet => .info
  | .debug => .debug
  | .verbose => .trace

def Verbosity.tells (verbosity : Verbosity) (level : Level) : Bool :=
  level.rank ≤ verbosity.level.rank

/-- The verbosity of a setting. A missing or blank setting stands for quiet; the fault
carries the setting as given. -/
def Verbosity.resolve : Option String → Except Fault Verbosity
  | none => .ok .quiet
  | some word =>
      if lower (trim word) = "" then .ok .quiet
      else
        match [Verbosity.quiet, .debug, .verbose].find?
            fun verbosity => verbosity.word == lower (trim word) with
        | some verbosity => .ok verbosity
        | none => .error (.unknownVerbosity word)

end GrammarTable.Settings
