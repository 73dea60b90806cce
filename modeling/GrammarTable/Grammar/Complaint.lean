import GrammarTable.Text.Escape

/-!
# Complaints

What can be wrong with the text of a grammar, and the words for it.
-/

namespace GrammarTable.Grammar

inductive Wanted where
  /-- A rule name of the ISO style or of W3C EBNF. -/
  | ruleName
  /-- A rule name of BNF. -/
  | angledRuleName
  /-- A given sign. -/
  | sign (text : String)
  /-- One of the two signs that the ISO style has for a definition. -/
  | definitionSign
  /-- An item of BNF. -/
  | angledItem
  /-- An item of the ISO style. -/
  | factor
  /-- An item of W3C EBNF. -/
  | primary
  deriving DecidableEq, Repr

def Wanted.words : Wanted → String
  | .ruleName => "a rule name"
  | .angledRuleName => "a rule name such as <rule>"
  | .sign text => "'" ++ text ++ "'"
  | .definitionSign => "'::=' or '='"
  | .angledItem => "a <name> or quoted literal"
  | .factor => "a name, literal or bracket"
  | .primary => "a name, literal, character class or '('"

def nestingLimit : Nat :=
  256

inductive Complaint where
  /-- No lexeme starts with the character. -/
  | unexpectedCharacter (c : Char)
  /-- A block comment has no end. -/
  | unterminatedComment (opener : String)
  /-- Something else stands where something is wanted; nothing if the text ends. -/
  | unexpected (wanted : Wanted) (found : Option String)
  /-- One bracket too many is open. -/
  | tooDeep
  /-- There is no rule. -/
  | noRules
  /-- A rule has the name of an earlier one. -/
  | duplicate (name : String)
  deriving DecidableEq, Repr

def Complaint.words : Complaint → String
  | .unexpectedCharacter c => "unexpected character '" ++ Text.escape c ++ "'"
  | .unterminatedComment opener => "unterminated comment '" ++ opener ++ "'"
  | .unexpected wanted (some found) =>
      "expected " ++ wanted.words ++ ", found '" ++ found ++ "'"
  | .unexpected wanted none => "expected " ++ wanted.words ++ ", found end of input"
  | .tooDeep => "nesting exceeds " ++ toString nestingLimit ++ " levels"
  | .noRules => "grammar declares no rules"
  | .duplicate name => "rule '" ++ name ++ "' is declared more than once"

end GrammarTable.Grammar
