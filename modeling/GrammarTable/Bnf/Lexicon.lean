import GrammarTable.Text.Blank
import GrammarTable.Token.Lexicon

/-!
# Lexemes of BNF

Names stand in angle brackets, literals in quotes, and a semicolon starts a comment that
runs to the end of the line. Blanks at the ends of a name do not count.
-/

namespace GrammarTable.Bnf

open Token

inductive Sign where
  | define
  | bar
  | name (name : String)
  | literal (text : String)
  deriving DecidableEq, Repr

/-- The characters inside the angle brackets of a name. -/
def isNameChar (c : Char) : Bool :=
  c != '<' && c != '>' && isInline c

def lexicon : Lexicon Sign where
  comment? := none
  entries :=
    [.skip (.run isSpacing),
      .skip (.toLineEnd ";"),
      .sign "::=" .define,
      .sign "|" .bar,
      .enclosing (.enclosed '<' isNameChar '>' 1) fun text => .name (Text.trim text),
      .enclosing (.quoted '"' isInline) .literal,
      .enclosing (.quoted '\'' isInline) .literal]

end GrammarTable.Bnf
