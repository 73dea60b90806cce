import GrammarTable.Table.Layout
import GrammarTable.Text.Line

/-!
# Provenance

The comment lines of a module that show which grammar it comes from. A line of the
grammar becomes a line of comment, whatever it holds.
-/

namespace GrammarTable.Table

/-- A grammar text and the path that it was read from. -/
structure Snapshot where
  path : String
  text : String
  deriving DecidableEq, Repr

def commentLine (line : String) : String :=
  if line = "" then "//" else "// " ++ line

/-- The lines of comment for a grammar text, or for none. -/
def provenance : Option Snapshot → List String
  | none => ["// Grammar source not embedded."]
  | some snapshot =>
      ("// Grammar source: " ++ Text.oneLine snapshot.path) ::
        ((Text.lines snapshot.text).map commentLine ++ ["// ----"])

end GrammarTable.Table
