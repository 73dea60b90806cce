import GrammarTable.Settings.Fault
import GrammarTable.Text.Blank

/-!
# Grammar dialects

The notations that a grammar can be written in, and the words that choose one.
-/

namespace GrammarTable.Settings

open Text

inductive Dialect where
  /-- Classical BNF, with names in angle brackets. -/
  | bnf
  /-- The EBNF of the W3C recommendations. -/
  | w3c
  /-- EBNF in the style of ISO 14977. -/
  | iso
  deriving DecidableEq, Repr, Inhabited

def Dialect.word : Dialect → String
  | .bnf => "bnf"
  | .w3c => "w3c-ebnf"
  | .iso => "custom"

/-- The dialect that a word names, up to surrounding blanks and the case of ASCII
letters. -/
def Dialect.ofWord? (word : String) : Option Dialect :=
  [Dialect.bnf, .w3c, .iso].find? fun dialect => dialect.word == lower (trim word)

/-- The dialect that a word names; the fault carries the word as given. -/
def Dialect.ofWord (word : String) : Except Fault Dialect :=
  match Dialect.ofWord? word with
  | some dialect => .ok dialect
  | none => .error (.unknownDialect word)

/-- The dialect of a setting. A missing or blank setting stands for the ISO style; the
fault carries the word without the blanks around it. -/
def Dialect.resolve : Option String → Except Fault Dialect
  | none => .ok .iso
  | some word => if trim word = "" then .ok .iso else Dialect.ofWord (trim word)

end GrammarTable.Settings
