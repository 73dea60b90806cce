import GrammarTable.Files.Fault
import GrammarTable.Grammar.Rejection

/-!
# Failures of runs

Why a run ends early, with an exit code for each stage.
-/

namespace GrammarTable.Run

inductive Failure where
  /-- A setting is refused. -/
  | settings (fault : Settings.Fault)
  /-- The grammar cannot be read from its file. -/
  | input (path : String) (fault : Files.Fault)
  /-- The text is no grammar. -/
  | grammar (rejection : Grammar.Rejection)
  /-- The module cannot be written to its file. -/
  | output (path : String) (fault : Files.Fault)
  deriving DecidableEq, Repr

def Failure.message : Failure → String
  | .settings fault => fault.message
  | .input path fault => "cannot read grammar '" ++ path ++ "': " ++ fault.words
  | .grammar rejection => rejection.message
  | .output path fault => "cannot write '" ++ path ++ "': " ++ fault.words

def Failure.exitCode : Failure → Nat
  | .settings _ => 2
  | .input _ _ => 3
  | .grammar _ => 4
  | .output _ _ => 5

end GrammarTable.Run
