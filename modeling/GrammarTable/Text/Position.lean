/-!
# Places in a text

Offsets count bytes of the UTF-8 form; a position counts lines and the characters
of the last line, both from one.
-/

namespace GrammarTable.Text

def byteLength (cs : List Char) : Nat :=
  cs.foldl (fun n c => n + c.utf8Size) 0

/-- The characters before a byte offset, or nothing when no character starts there. -/
def charsBefore? (before : List Char) : Nat → List Char → Option (List Char)
  | 0, _ => some before.reverse
  | _ + 1, [] => none
  | offset + 1, c :: rest =>
      if c.utf8Size ≤ offset + 1 then
        charsBefore? (c :: before) (offset + 1 - c.utf8Size) rest
      else none

structure Position where
  line : Nat
  column : Nat
  deriving DecidableEq, Repr

namespace Position

def start : Position := ⟨1, 1⟩

def next (p : Position) (c : Char) : Position :=
  if c = '\n' then ⟨p.line + 1, 1⟩ else ⟨p.line, p.column + 1⟩

def after (cs : List Char) : Position :=
  cs.foldl next start

/-- The place of a byte offset. An offset that starts no character, past the end or
inside one, stands for the end of the text. -/
def ofOffset (text : List Char) (offset : Nat) : Position :=
  after ((charsBefore? [] offset text).getD text)

end Position

end GrammarTable.Text
