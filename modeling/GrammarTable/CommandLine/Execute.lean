import GrammarTable.CommandLine.Arguments
import GrammarTable.Run.Basic
import GrammarTable.Settings.Verbosity

/-!
# Command lines

A command line is checked in a fixed order: the words, the verbosity, the other settings.
Then comes the run. What is told goes to the standard error, a failure last.
-/

namespace GrammarTable.CommandLine

open Files Run Settings

def usageExitCode : Nat :=
  64

def usageMessage : String :=
  "Could not parse CLI arguments"

structure Report where
  exitCode : Nat
  messages : List String
  deriving DecidableEq, Repr

/-- The report of a failure, after what has been told. -/
def Report.ofFailure (told : List String) (failure : Failure) : Report :=
  ⟨failure.exitCode, told ++ ["error: " ++ failure.message]⟩

def Report.ofOutcome (verbosity : Verbosity) (outcome : Outcome) : Report :=
  let told := (outcome.events.filter fun event => verbosity.tells event.level).map Event.line
  match outcome.result with
  | .ok () => ⟨0, told⟩
  | .error failure => .ofFailure told failure

def Arguments.check (arguments : Arguments) :
    Except Settings.Fault (Verbosity × Settings) := do
  let verbosity ← Verbosity.resolve arguments.log?
  let settings ← Settings.resolve arguments.input arguments.output arguments.dialect?
    arguments.symbol? arguments.embed
  return (verbosity, settings)

def execute {m : Type → Type} [Monad m] (files : Access m) (words : List String) :
    m Report :=
  match Arguments.ofWords? words with
  | none => return ⟨usageExitCode, ["error: " ++ usageMessage]⟩
  | some arguments =>
      match arguments.check with
      | .error fault => return .ofFailure [] (.settings fault)
      | .ok (verbosity, settings) => do
          return .ofOutcome verbosity (← run files settings)

end GrammarTable.CommandLine
