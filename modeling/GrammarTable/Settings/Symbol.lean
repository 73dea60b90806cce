import GrammarTable.Settings.Fault
import GrammarTable.Text.Word

/-!
# Export symbols

The name under which a rule table is exported: an ASCII identifier that the generated
language does not reserve.
-/

namespace GrammarTable.Settings

open Text

def reservedWords : List String :=
  ["arguments", "await", "break", "case", "catch", "class", "const", "continue",
    "debugger", "default", "delete", "do", "else", "enum", "eval", "export", "extends",
    "false", "finally", "for", "function", "if", "implements", "import", "in",
    "instanceof", "interface", "let", "new", "null", "package", "private", "protected",
    "public", "return", "static", "super", "switch", "this", "throw", "true", "try",
    "typeof", "var", "void", "while", "with", "yield"]

def isIdentifier : List Char → Bool
  | [] => false
  | first :: rest => isWordStart first && rest.all isWordPart

structure Symbol where
  name : String
  isIdentifier_name : isIdentifier name.toList = true
  name_not_reserved : name ∉ reservedWords

/-- The symbol of a name. Emptiness is complained about before the shape, and the shape
before reserved words. -/
def Symbol.ofString (name : String) : Except Fault Symbol :=
  if name = "" then .error .emptySymbol
  else if hshape : isIdentifier name.toList = true then
    if hreserved : name ∈ reservedWords then .error (.reservedSymbol name)
    else .ok ⟨name, hshape, hreserved⟩
  else .error (.invalidSymbol name)

end GrammarTable.Settings
