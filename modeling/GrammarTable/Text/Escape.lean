import GrammarTable.Text.Unprintable

/-!
# Characters as a message spells them

A message shows a character as it is when it can be seen, and otherwise by a backslash
sequence.
-/

namespace GrammarTable.Text

/-- A number in small hexadecimal digits, without leading zeros. -/
def hex (n : Nat) : String :=
  String.ofList (Nat.toDigits 16 n)

def escape (c : Char) : String :=
  if c = '\x00' then "\\0"
  else if c = '\t' then "\\t"
  else if c = '\r' then "\\r"
  else if c = '\n' then "\\n"
  else if c = '\'' then "\\'"
  else if c = '"' then "\\\""
  else if c = '\\' then "\\\\"
  else if isUnprintable c then "\\u\x7b" ++ hex c.toNat ++ "\x7d"
  else c.toString

end GrammarTable.Text
