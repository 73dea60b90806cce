import GrammarTable.Grammar.Complaint
import GrammarTable.Settings.Dialect
import GrammarTable.Text.Position

/-!
# Rejections

A grammar text that is refused: in which dialect it was read, where it fails and what is
wrong there.
-/

namespace GrammarTable.Grammar

open Settings Text

def wordsAt (dialect : Dialect) (position : Position) (words : String) : String :=
  dialect.word ++ " grammar, line " ++ toString position.line ++ ", column " ++
    toString position.column ++ ": " ++ words

/-- Why and where a grammar text is refused. -/
structure Rejection where
  dialect : Dialect
  position : Position
  complaint : Complaint
  deriving DecidableEq, Repr

def Rejection.message (rejection : Rejection) : String :=
  wordsAt rejection.dialect rejection.position rejection.complaint.words

end GrammarTable.Grammar
