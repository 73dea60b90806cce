import GrammarTable.Table.Quoted

/-!
# Layouts

A layout is a flat list of items: texts, literals, line breaks and changes of
indentation. Printing goes through it once. Lines on which nothing stands get no
indentation.
-/

namespace GrammarTable.Table

inductive Item where
  /-- A text without line breaks, as it is. -/
  | text (text : String)
  /-- A text as a literal. -/
  | quoted (text : String)
  /-- The end of a line. -/
  | line
  /-- From here on one step more of indentation. -/
  | indent
  /-- From here on one step less of indentation. -/
  | dedent
  deriving DecidableEq, Repr

def indentation : String :=
  "  "

/-- What has been printed, how far lines are indented, and whether the line at hand is
still empty. -/
structure Printed where
  text : String := ""
  level : Nat := 0
  atLineStart : Bool := true
  deriving DecidableEq, Repr

namespace Printed

def push : Printed → String → Printed
  | ⟨before, level, atLineStart⟩, text =>
      if text = "" then ⟨before, level, atLineStart⟩
      else if atLineStart then
        ⟨level.fold (fun _ _ indented => indented ++ indentation) before ++ text, level,
          false⟩
      else ⟨before ++ text, level, false⟩

def item : Printed → Item → Printed
  | printed, .text text => printed.push text
  | printed, .quoted text => printed.push (quote text)
  | ⟨before, level, _⟩, .line => ⟨before ++ "\n", level, true⟩
  | ⟨before, level, atLineStart⟩, .indent => ⟨before, level + 1, atLineStart⟩
  | ⟨before, level, atLineStart⟩, .dedent => ⟨before, level - 1, atLineStart⟩

end Printed

def print (items : List Item) : String :=
  (items.foldl Printed.item {}).text

end GrammarTable.Table
