import GrammarTable.Path
import GrammarTable.Settings.Symbol
import GrammarTable.Text.Blank

/-!
# Exports

How a generated module declares its rule table: under which symbol, and with or without
a type. The extension of the output file decides the latter.
-/

namespace GrammarTable.Settings

open Text

inductive Target where
  /-- A constant with a type. -/
  | typed
  /-- A property of a plain object. -/
  | untyped
  deriving DecidableEq, Repr, Inhabited

/-- The target that an extension asks for, whatever the case of its ASCII letters. -/
def Target.ofExtension? (extension : String) : Option Target :=
  let extension := lower extension
  if extension = "ts" ∨ extension = "tsx" then some .typed
  else if extension = "js" ∨ extension = "mjs" then some .untyped
  else none

def Target.ofPath (path : String) : Except Fault Target :=
  match (Path.extension? path).bind Target.ofExtension? with
  | some target => .ok target
  | none => .error (.unsupportedOutput path)

/-- The name and the flavour of a declaration. -/
structure Export where
  symbol : Symbol
  target : Target

def Export.withTarget (symbol : String) (target : Target) : Except Fault Export := do
  let symbol ← Symbol.ofString symbol
  return ⟨symbol, target⟩

/-- The export of a symbol to an output file. The symbol is checked first. -/
def Export.forOutput (symbol path : String) : Except Fault Export := do
  let symbol ← Symbol.ofString symbol
  let target ← Target.ofPath path
  return ⟨symbol, target⟩

end GrammarTable.Settings
