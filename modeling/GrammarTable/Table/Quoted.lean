/-!
# Quoted text

String literals that JSON and the scripting languages read alike. Everything that could
end a literal or a line is written by an escape.
-/

namespace GrammarTable.Table

def hexDigit (n : Nat) : Char :=
  if n < 10 then Char.ofNat ('0'.toNat + n) else Char.ofNat ('a'.toNat + (n - 10))

/-- The last hexadecimal digits of a number, as many as asked for. -/
def hexDigits : Nat → Nat → List Char
  | 0, _ => []
  | width + 1, n => hexDigits width (n / 16) ++ [hexDigit (n % 16)]

def quoteChar (c : Char) : List Char :=
  if c = '"' then ['\\', '"']
  else if c = '\\' then ['\\', '\\']
  else if c = '\n' then ['\\', 'n']
  else if c = '\r' then ['\\', 'r']
  else if c = '\t' then ['\\', 't']
  else if c = '\x08' then ['\\', 'b']
  else if c = '\x0c' then ['\\', 'f']
  else if c.toNat < 0x20 ∨ c = '\x7f' ∨ c = '\u2028' ∨ c = '\u2029' then
    '\\' :: 'u' :: hexDigits 4 c.toNat
  else [c]

def quoteChars (cs : List Char) : List Char :=
  '"' :: (cs.flatMap quoteChar ++ ['"'])

def quote (text : String) : String :=
  String.ofList (quoteChars text.toList)

end GrammarTable.Table
