import GrammarTable.Rule.Operator
import GrammarTable.Text.Word
import GrammarTable.Token.Lexicon

/-!
# Lexemes of W3C EBNF

Names may hold dots and hyphens, and literals may run over several lines. Digits alone
in square brackets are a label; other characters there, or a number after `#x`, are a
pattern. Comments stand between `/*` and `*/`.
-/

namespace GrammarTable.W3c

open Rule Text Token

inductive Sign where
  | define
  | bar
  | minus
  | operator (operator : Operator)
  | opening
  | closing
  | name (name : String)
  | literal (text : String)
  | label (text : String)
  | pattern (text : String)
  deriving DecidableEq, Repr

/-- The characters of a name behind the first. -/
def isNamePart (c : Char) : Bool :=
  isWordPart c || c == '.' || c == '-'

def isHexDigit (c : Char) : Bool :=
  c.isDigit || ('a' ≤ c && c ≤ 'f') || ('A' ≤ c && c ≤ 'F')

def lexicon : Lexicon Sign where
  comment? := some ⟨('/', '*'), ('*', '/')⟩
  entries :=
    [.skip (.run isSpacing),
      .sign "::=" .define,
      .sign "|" .bar,
      .sign "-" .minus,
      .sign "?" (.operator .question),
      .sign "*" (.operator .star),
      .sign "+" (.operator .plus),
      .sign "(" .opening,
      .sign ")" .closing,
      .carrying (.word isWordStart isNamePart) .name,
      .enclosing (.quoted '"' fun _ => true) .literal,
      .enclosing (.quoted '\'' fun _ => true) .literal,
      .carrying (.enclosed '[' Char.isDigit ']' 1) .label,
      .carrying (.enclosed '[' (fun c => c != ']' && isInline c) ']' 0) .pattern,
      .carrying (.led "#x".toList isHexDigit 1) .pattern]

end GrammarTable.W3c
