/-!
# Shapes of lexemes

The few forms that the lexemes of a grammar notation have. A shape cuts the longest
piece of its form off the front of a text, or nothing.
-/

namespace GrammarTable.Token

inductive Shape where
  /-- Given characters, then characters of a class, at least so many. -/
  | led (lead : List Char) (more : Char → Bool) (least : Nat)
  /-- A character of one class, then any number of another. -/
  | word (first more : Char → Bool)
  /-- Characters of a class between two given ones, at least so many. The class does
  not hold the closing character. -/
  | enclosed (opening : Char) (inside : Char → Bool) (closing : Char) (least : Nat)

namespace Shape

def exactly (text : String) : Shape :=
  led text.toList (fun _ => false) 0

def run (more : Char → Bool) : Shape :=
  led [] more 1

/-- Given characters and the rest of their line. -/
def toLineEnd (lead : String) : Shape :=
  led lead.toList (fun c => c != '\n') 0

def quoted (quote : Char) (inside : Char → Bool) : Shape :=
  enclosed quote (fun c => c != quote && inside c) quote 0

/-- How many characters the longest piece of the shape takes at the front of a text. -/
def cut? : Shape → List Char → Option Nat
  | led lead more least, cs =>
      if lead.isPrefixOf cs then
        let taken := ((cs.drop lead.length).takeWhile more).length
        if least ≤ taken then some (lead.length + taken) else none
      else none
  | word _ _, [] => none
  | word first more, c :: cs =>
      if first c then some (1 + (cs.takeWhile more).length) else none
  | enclosed _ _ _ _, [] => none
  | enclosed opening inside closing least, c :: cs =>
      if c = opening then
        let taken := (cs.takeWhile inside).length
        if least ≤ taken ∧ (cs.drop taken).head? = some closing then some (taken + 2)
        else none
      else none

end Shape

/-- The piece of a text between its first and its last character. -/
def between (piece : List Char) : List Char :=
  (piece.drop 1).dropLast

/-- How many characters pass up to the end of the first occurrence of two characters
one after the other, when some have passed already. -/
def passThrough? (first second : Char) (passed : Nat) : List Char → Option Nat
  | c :: d :: rest =>
      if c = first ∧ d = second then some (passed + 2)
      else passThrough? first second (passed + 1) (d :: rest)
  | _ => none

end GrammarTable.Token
