import GrammarTable.Calendar
import GrammarTable.Settings.Export
import GrammarTable.Table.Listing
import GrammarTable.Table.Provenance

/-!
# Modules

A generated module: a banner, the moment of generation, the provenance of the grammar, a
blank line, the declaration with the rule table, and a last line of comment. The moment
shows on the second line only.
-/

namespace GrammarTable.Table

open Calendar Rule Settings

def banner : String :=
  "// Generated by ruletable. Do not edit by hand."

/-- What stands before the moment on the second line. -/
def momentLead : String :=
  "// Generated at: "

def footer : String :=
  "// end of generated rule table"

def preamble : Target → String
  | .typed => "import type \x7b RuleTable \x7d from \"ruletable\";"
  | .untyped => "const grammar = \x7b\x7d;"

def declarationLead (declaration : Export) : String :=
  match declaration.target with
  | .typed => "export const " ++ declaration.symbol.name ++ ": RuleTable = "
  | .untyped => "grammar." ++ declaration.symbol.name ++ " = "

def onLines (texts : List String) : List Item :=
  texts.flatMap fun text => [.text text, .line]

def moduleItems (nodes : List Node) (declaration : Export) (snapshot : Option Snapshot)
    (moment : Moment) : List Item :=
  onLines (banner :: (momentLead ++ moment.text) :: provenance snapshot) ++
    [.line, .text (preamble declaration.target), .line, .line,
      .text (declarationLead declaration)] ++
    listing nodes ++ [.text ";", .line, .text footer, .line]

def moduleText (nodes : List Node) (declaration : Export) (snapshot : Option Snapshot)
    (moment : Moment) : String :=
  print (moduleItems nodes declaration snapshot moment)

end GrammarTable.Table
