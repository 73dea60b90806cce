import GrammarTable.Rule.Operator
import GrammarTable.Text.Word
import GrammarTable.Token.Lexicon

/-!
# Lexemes of ISO-style EBNF

A definition is written `::=` or `=`. Names may hold hyphens, and literals stay on one
line. Comments stand between `(*` and `*)`, or run from `//` to the end of the line.
-/

namespace GrammarTable.Iso

open Rule Text Token

inductive Bracket where
  | round
  | square
  | curly
  deriving DecidableEq, Repr

inductive Sign where
  | define
  | bar
  | comma
  | semicolon
  | opening (bracket : Bracket)
  | closing (bracket : Bracket)
  | operator (operator : Operator)
  | name (name : String)
  | literal (text : String)
  deriving DecidableEq, Repr

/-- The characters of a name behind the first. -/
def isNamePart (c : Char) : Bool :=
  isWordPart c || c == '-'

def lexicon : Lexicon Sign where
  comment? := some ⟨('(', '*'), ('*', ')')⟩
  entries :=
    [.skip (.run isSpacing),
      .skip (.toLineEnd "//"),
      .sign "::=" .define,
      .sign "=" .define,
      .sign "|" .bar,
      .sign "," .comma,
      .sign ";" .semicolon,
      .sign "(" (.opening .round),
      .sign ")" (.closing .round),
      .sign "[" (.opening .square),
      .sign "]" (.closing .square),
      .sign "\x7b" (.opening .curly),
      .sign "\x7d" (.closing .curly),
      .sign "?" (.operator .question),
      .sign "*" (.operator .star),
      .sign "+" (.operator .plus),
      .carrying (.word isWordStart isNamePart) .name,
      .enclosing (.quoted '"' isInline) .literal,
      .enclosing (.quoted '\'' isInline) .literal]

end GrammarTable.Iso
