import GrammarTable.Settings.Dialect
import GrammarTable.Settings.Export

/-!
# Settings of a run

Everything that one run needs, checked once: the symbol first, then the extension of the
output file, then the dialect. No file is looked at.
-/

namespace GrammarTable

structure Settings where
  input : String
  output : String
  dialect : Settings.Dialect
  declaration : Settings.Export
  /-- Whether the grammar text goes into the module as a comment. -/
  embed : Bool

namespace Settings

def defaultSymbol : String :=
  "rules"

/-- Check raw settings. -/
def resolve (input output : String) (dialect symbol : Option String) (embed : Bool) :
    Except Fault Settings := do
  let declaration ← Export.forOutput (symbol.getD defaultSymbol) output
  let dialect ← Dialect.resolve dialect
  return ⟨input, output, dialect, declaration, embed⟩

end Settings

end GrammarTable
