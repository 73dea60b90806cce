import GrammarTable.Settings.Dialect
import GrammarTable.Settings.Export
import GrammarTable.Settings.Verbosity

/-!
# Events

What a run can tell about itself while it works.
-/

namespace GrammarTable.Run

open Settings

inductive Event where
  | reading (input : String) (dialect : Dialect)
  | parsed (dialect : Dialect) (rules nodes depth : Nat)
  | clearing (rules : Nat)
  | converting (rule : String) (nodes : Nat)
  | emitting (rules : Nat) (declaration : Export) (embed : Bool)
  | renamed (output : String)
  | wrote (output : String) (bytes : Nat)

def Event.level : Event → Level
  | .converting _ _ => .trace
  | .wrote _ _ => .info
  | _ => .debug

def targetWord : Target → String
  | .typed => "Typed"
  | .untyped => "Untyped"

def Event.words : Event → String
  | .reading input dialect =>
      "reading grammar input=" ++ input ++ " engine=\"" ++ dialect.word ++ "\""
  | .parsed dialect rules nodes depth =>
      "parsed grammar engine=\"" ++ dialect.word ++ "\" rules=" ++ toString rules ++
        " nodes=" ++ toString nodes ++ " depth=" ++ toString depth
  | .clearing rules => "sanitizing rule tree rules=" ++ toString rules
  | .converting rule nodes =>
      "converting rule rule=" ++ rule ++ " nodes=" ++ toString nodes
  | .emitting rules declaration embed =>
      "emitting rule table rules=" ++ toString rules ++ " symbol=\"" ++
        declaration.symbol.name ++ "\" dialect=" ++ targetWord declaration.target ++
        " embed_source=" ++ toString embed
  | .renamed output => "renamed temporary file into place output=" ++ output
  | .wrote output bytes =>
      "wrote rule table output=" ++ output ++ " bytes=" ++ toString bytes

/-- The event as a line, behind the word for its level. -/
def Event.line (event : Event) : String :=
  event.level.heading ++ " " ++ event.words

end GrammarTable.Run
