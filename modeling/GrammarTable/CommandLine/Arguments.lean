import GrammarTable.Text.Alphanumeric

/-!
# Arguments

How the words of a command line give the fields of a run. A field has a long name, which
may be written in any case with any signs between its words, and most have a letter.
Words that are no options fill the input and then the output.
-/

namespace GrammarTable.CommandLine

inductive Field where
  | input
  | output
  | dialect
  | log
  | symbol
  | embed
  deriving DecidableEq, Repr

/-- The long name of a field, in small letters with underscores. -/
def Field.name : Field → String
  | .input => "input"
  | .output => "output"
  | .dialect => "dialect"
  | .log => "log"
  | .symbol => "symbol"
  | .embed => "embed_source"

def Field.letter? : Field → Option Char
  | .dialect => some 'd'
  | .log => some 'l'
  | .symbol => some 's'
  | .embed => some 'e'
  | _ => none

def Field.all : List Field :=
  [.input, .output, .dialect, .log, .symbol, .embed]

/-- The case of the letters read last in a word. -/
inductive LetterCase where
  | neither
  | small
  | capital
  deriving DecidableEq, Repr

def LetterCase.next (known : LetterCase) (c : Char) : LetterCase :=
  if c.isLower then .small else if c.isUpper then .capital else known

/-- A run of letters and digits in small letters, with an underscore where a new word
starts: in front of a capital after a small letter, and in front of the last of several
capitals that a small letter follows. Letters beyond ASCII stay as they are, since the
name of no field holds one. -/
def snakeWord (known : LetterCase) : List Char → List Char
  | [] => []
  | [c] => [c.toLower]
  | c :: d :: rest =>
      if known.next c = .small ∧ d.isUpper then
        c.toLower :: '_' :: snakeWord .neither (d :: rest)
      else if known = .capital ∧ c.isUpper ∧ d.isLower then
        '_' :: c.toLower :: snakeWord .neither (d :: rest)
      else c.toLower :: snakeWord (known.next c) (d :: rest)

/-- The runs of letters and digits in some characters, after those found so far; the runs
and the characters of the run at hand are kept latest first. -/
def wordsOnto (found : List (List Char)) (word : List Char) :
    List Char → List (List Char)
  | [] => (word.reverse :: found).reverse
  | c :: rest =>
      if Text.isAlphanumeric c then wordsOnto found (c :: word) rest
      else wordsOnto (word.reverse :: found) [] rest

def snakeCase (name : List Char) : String :=
  "_".intercalate
    (((wordsOnto [] [] name).filter fun word => !word.isEmpty).map fun word =>
      String.ofList (snakeWord .neither word))

def Field.ofName? (name : List Char) : Option Field :=
  Field.all.find? fun field => field.name == snakeCase name

def Field.ofLetter? (letters : List Char) : Option Field :=
  Field.all.find? fun field => (field.letter?.map fun letter => [letter]) == some letters

inductive Word where
  /-- An option, if it is a known one, and the value that stands in the same word. -/
  | option (field? : Option Field) (value? : Option String)
  /-- Any other word. -/
  | plain (text : String)
  deriving DecidableEq, Repr

def splitValue (cs : List Char) : List Char × Option String :=
  (cs.takeWhile fun c => c != '=',
    match cs.dropWhile fun c => c != '=' with
    | [] => none
    | _ :: value => some (String.ofList value))

/-- What a word is when options may still come. -/
def Word.ofString (text : String) : Word :=
  match text.toList with
  | '-' :: '-' :: rest =>
      let (name, value?) := splitValue rest
      .option (Field.ofName? name) value?
  | '-' :: rest =>
      let (letters, value?) := splitValue rest
      .option (Field.ofLetter? letters) value?
  | _ => .plain text

structure Given where
  input? : Option String := none
  output? : Option String := none
  dialect? : Option String := none
  log? : Option String := none
  symbol? : Option String := none
  embed : Bool := false
  deriving DecidableEq, Repr

/-- Give a field a value. A later value takes the place of an earlier one, and the value
of the embedding option does not matter. -/
def Given.set (given : Given) (field : Field) (value : String) : Given :=
  match field with
  | .input => { given with input? := some value }
  | .output => { given with output? := some value }
  | .dialect => { given with dialect? := some value }
  | .log => { given with log? := some value }
  | .symbol => { given with symbol? := some value }
  | .embed => { given with embed := true }

def Given.takePlain (given : Given) (text : String) : Option Given :=
  match given.input?, given.output? with
  | none, _ => some (given.set .input text)
  | some _, none => some (given.set .output text)
  | some _, some _ => none

def Given.takeAllPlain (given : Given) : List String → Option Given
  | [] => some given
  | text :: rest => (given.takePlain text).bind fun given => given.takeAllPlain rest

/-- Take the words of a command line. After two hyphens no word is an option. An option
that needs a value and has none in its word takes the next word, whatever it is. -/
def Given.takeAll (given : Given) : List String → Option Given
  | [] => some given
  | "--" :: rest => given.takeAllPlain rest
  | text :: rest =>
      match Word.ofString text, rest with
      | .plain text, rest => (given.takePlain text).bind fun given => given.takeAll rest
      | .option none _, _ => none
      | .option (some .embed) _, rest => (given.set .embed "").takeAll rest
      | .option (some field) (some value), rest => (given.set field value).takeAll rest
      | .option (some field) none, value :: rest => (given.set field value).takeAll rest
      | .option (some _) none, [] => none

structure Arguments where
  input : String
  output : String
  dialect? : Option String
  log? : Option String
  symbol? : Option String
  embed : Bool
  deriving DecidableEq, Repr

/-- The arguments that the words of a command line give, if they are in order. -/
def Arguments.ofWords? (words : List String) : Option Arguments :=
  match Given.takeAll {} words with
  | none => none
  | some given =>
      match given.input?, given.output? with
      | some input, some output =>
          some ⟨input, output, given.dialect?, given.log?, given.symbol?, given.embed⟩
      | _, _ => none

end GrammarTable.CommandLine
