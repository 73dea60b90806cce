/-!
# Lines

A line ends at CR LF, LF, CR, U+2028 or U+2029. These are the places where a
comment to the end of the line would stop.
-/

namespace GrammarTable.Text

def isLineBreak (c : Char) : Bool :=
  c == '\n' || c == '\r' || c == '\u2028' || c == '\u2029'

/-- Split at the line breaks, with the lines found so far and the characters of the
line at hand, both latest first. A break at the very end starts no further line. -/
def linesOnto (found : List (List Char)) (line : List Char) :
    List Char → List (List Char)
  | [] => (if line.isEmpty then found else line.reverse :: found).reverse
  | '\r' :: '\n' :: rest => linesOnto (line.reverse :: found) [] rest
  | c :: rest =>
      if isLineBreak c then linesOnto (line.reverse :: found) [] rest
      else linesOnto found (c :: line) rest

def lines (text : String) : List String :=
  (linesOnto [] [] text.toList).map String.ofList

/-- The text on one line: each line break becomes a space. -/
def oneLine (text : String) : String :=
  String.ofList (text.toList.map fun c => if isLineBreak c then ' ' else c)

end GrammarTable.Text
