/-!
# JSON documents

The values of JSON documents and the texts that spell them. A text spells at most one
value up to the spelling of numbers, which are kept as they stand. An escape that stands
for one half of a pair of surrogates spells a character together with the other half only.
-/

namespace GrammarTable.Json

/-- What a JSON document says. The members of an object keep their order. -/
inductive Value where
  | null
  | truth (truth : Bool)
  | number (spelling : List Char)
  | text (text : String)
  | array (items : List Value)
  | object (members : List (String × Value))

/-! ## Characters and texts -/

def isBlank (c : Char) : Bool :=
  c == ' ' || c == '\t' || c == '\n' || c == '\r'

def Blank (cs : List Char) : Prop :=
  ∀ c ∈ cs, isBlank c = true

def isPlain (c : Char) : Bool :=
  decide (0x20 ≤ c.toNat) && c != '"' && c != '\\'

def escaped? (letter : Char) : Option Char :=
  if letter = '"' then some '"'
  else if letter = '\\' then some '\\'
  else if letter = '/' then some '/'
  else if letter = 'b' then some '\x08'
  else if letter = 'f' then some '\x0c'
  else if letter = 'n' then some '\n'
  else if letter = 'r' then some '\r'
  else if letter = 't' then some '\t'
  else none

def digit? (c : Char) : Option Nat :=
  let n := c.toNat
  if 0x30 ≤ n ∧ n ≤ 0x39 then some (n - 0x30)
  else if 0x61 ≤ n ∧ n ≤ 0x66 then some (n - 0x61 + 10)
  else if 0x41 ≤ n ∧ n ≤ 0x46 then some (n - 0x41 + 10)
  else none

def digitsOnto? (written : Nat) : List Char → Option Nat
  | [] => some written
  | c :: rest => (digit? c).bind fun n => digitsOnto? (16 * written + n) rest

def unit? (cs : List Char) : Option Nat :=
  if cs.length = 4 then digitsOnto? 0 cs else none

def isHighHalf (n : Nat) : Bool :=
  decide (0xD800 ≤ n) && decide (n < 0xDC00)

def isLowHalf (n : Nat) : Bool :=
  decide (0xDC00 ≤ n) && decide (n < 0xE000)

def joined (high low : Nat) : Char :=
  Char.ofNat (0x10000 + 0x400 * (high - 0xD800) + (low - 0xDC00))

/-- The spellings of a character in a text. -/
inductive SpellsChar : List Char → Char → Prop
  | plain {c : Char} (h : isPlain c = true) : SpellsChar [c] c
  | escape {letter c : Char} (h : escaped? letter = some c) : SpellsChar ['\\', letter] c
  | unit {digits : List Char} {n : Nat} (h : unit? digits = some n)
      (hhigh : isHighHalf n = false) (hlow : isLowHalf n = false) :
      SpellsChar ('\\' :: 'u' :: digits) (Char.ofNat n)
  | pair {front back : List Char} {high low : Nat} (hfront : unit? front = some high)
      (hback : unit? back = some low) (hhigh : isHighHalf high = true)
      (hlow : isLowHalf low = true) :
      SpellsChar ('\\' :: 'u' :: (front ++ '\\' :: 'u' :: back)) (joined high low)

inductive SpellsChars : List Char → List Char → Prop
  | nil : SpellsChars [] []
  | cons {front back : List Char} {c : Char} {cs : List Char} (h : SpellsChar front c)
      (hrest : SpellsChars back cs) : SpellsChars (front ++ back) (c :: cs)

/-! ## Numbers -/

def isNumberPart (c : Char) : Bool :=
  c.isDigit || c == '-' || c == '+' || c == '.' || c == 'e' || c == 'E'

def isDigits (cs : List Char) : Bool :=
  !cs.isEmpty && cs.all Char.isDigit

def isWhole (cs : List Char) : Bool :=
  isDigits cs && (cs == ['0'] || cs.head? != some '0')

def isFraction : List Char → Bool
  | [] => true
  | c :: cs => c == '.' && isDigits cs

def isExponent : List Char → Bool
  | [] => true
  | c :: cs =>
      (c == 'e' || c == 'E') &&
        match cs with
        | [] => false
        | sign :: digits =>
            if sign = '+' ∨ sign = '-' then isDigits digits else isDigits (sign :: digits)

/-- A number: a minus or none, a whole part, a fraction and an exponent. -/
def isNumber (cs : List Char) : Bool :=
  let unsigned := if cs.head? = some '-' then cs.tail else cs
  let behindWhole := unsigned.dropWhile Char.isDigit
  let isFractionPart := fun c : Char => c == '.' || c.isDigit
  cs.all isNumberPart && isWhole (unsigned.takeWhile Char.isDigit) &&
    isFraction (behindWhole.takeWhile isFractionPart) &&
    isExponent (behindWhole.dropWhile isFractionPart)

/-! ## Values -/

/-- The spellings of the name of a member, with blanks around. -/
inductive SpellsKey : List Char → String → Prop
  | mk {before spelling after name : List Char} (hbefore : Blank before)
      (h : SpellsChars spelling name) (hafter : Blank after) :
      SpellsKey (before ++ '"' :: (spelling ++ '"' :: after)) (String.ofList name)

mutual

/-- The spellings of a value, without blanks around. -/
inductive Spells : List Char → Value → Prop
  | null : Spells ['n', 'u', 'l', 'l'] .null
  | yes : Spells ['t', 'r', 'u', 'e'] (.truth true)
  | no : Spells ['f', 'a', 'l', 's', 'e'] (.truth false)
  | number {cs : List Char} (h : isNumber cs = true) : Spells cs (.number cs)
  | text {cs text : List Char} (h : SpellsChars cs text) :
      Spells ('"' :: (cs ++ ['"'])) (.text (String.ofList text))
  | emptyArray {gap : List Char} (h : Blank gap) : Spells ('[' :: (gap ++ [']'])) (.array [])
  | array {cs : List Char} {items : List Value} (h : SpellsItems cs items) :
      Spells ('[' :: (cs ++ [']'])) (.array items)
  | emptyObject {gap : List Char} (h : Blank gap) :
      Spells ('\x7b' :: (gap ++ ['\x7d'])) (.object [])
  | object {cs : List Char} {members : List (String × Value)} (h : SpellsMembers cs members) :
      Spells ('\x7b' :: (cs ++ ['\x7d'])) (.object members)

inductive SpellsItems : List Char → List Value → Prop
  | last {before cs after : List Char} {item : Value} (hbefore : Blank before)
      (h : Spells cs item) (hafter : Blank after) :
      SpellsItems (before ++ (cs ++ after)) [item]
  | more {before cs after back : List Char} {item : Value} {items : List Value}
      (hbefore : Blank before) (h : Spells cs item) (hafter : Blank after)
      (hback : SpellsItems back items) :
      SpellsItems (before ++ (cs ++ (after ++ ',' :: back))) (item :: items)

inductive SpellsMembers : List Char → List (String × Value) → Prop
  | last {key before cs after : List Char} {name : String} {value : Value}
      (hkey : SpellsKey key name) (hbefore : Blank before) (h : Spells cs value)
      (hafter : Blank after) :
      SpellsMembers (key ++ ':' :: (before ++ (cs ++ after))) [(name, value)]
  | more {key before cs after back : List Char} {name : String} {value : Value}
      {members : List (String × Value)} (hkey : SpellsKey key name) (hbefore : Blank before)
      (h : Spells cs value) (hafter : Blank after) (hback : SpellsMembers back members) :
      SpellsMembers (key ++ ':' :: (before ++ (cs ++ (after ++ ',' :: back))))
        ((name, value) :: members)

end

/-- The documents that say a value: its spellings with blanks around. -/
inductive Document : List Char → Value → Prop
  | mk {before cs after : List Char} {value : Value} (hbefore : Blank before)
      (h : Spells cs value) (hafter : Blank after) : Document (before ++ (cs ++ after)) value

end GrammarTable.Json
