import GrammarTable.Text.Position
import GrammarTable.Token.Lexeme
import GrammarTable.Token.Shape

/-!
# Lexicons

A lexicon says what the lexemes of a notation look like. A text is cut into pieces from
left to right, each the longest that any entry allows; of two entries that allow the same
length the earlier one wins. Where a block comment opens, the piece runs to its first
closer. Pieces that stand for no token are skipped.
-/

namespace GrammarTable.Token

open Text

inductive LexicalFault where
  /-- No entry allows a piece that starts with the character. -/
  | unexpectedCharacter (c : Char)
  /-- A block comment has no closer. -/
  | unterminatedComment (opener : String)
  deriving DecidableEq, Repr

/-- A shape and the token that a piece of it stands for, if any. -/
structure Entry (τ : Type) where
  shape : Shape
  token? : List Char → Option τ

def Entry.skip {τ : Type} (shape : Shape) : Entry τ :=
  ⟨shape, fun _ => none⟩

def Entry.sign {τ : Type} (text : String) (token : τ) : Entry τ :=
  ⟨Shape.exactly text, fun _ => some token⟩

/-- An entry whose tokens carry their own text. -/
def Entry.carrying {τ : Type} (shape : Shape) (token : String → τ) : Entry τ :=
  ⟨shape, fun piece => some (token (String.ofList piece))⟩

/-- An entry whose tokens carry the text between their first and last character. -/
def Entry.enclosing {τ : Type} (shape : Shape) (token : String → τ) : Entry τ :=
  ⟨shape, fun piece => some (token (String.ofList (between piece)))⟩

/-- The two characters that open a block comment and the two that close it. -/
structure BlockComment where
  opener : Char × Char
  closer : Char × Char

structure Lexicon (τ : Type) where
  comment? : Option BlockComment
  entries : List (Entry τ)

namespace Lexicon

variable {τ : Type}

/-- Of two proposals the longer one, the first when they are equally long. -/
def longer (best : Option (Nat × Entry τ)) (length : Nat) (entry : Entry τ) :
    Option (Nat × Entry τ) :=
  match best with
  | none => some (length, entry)
  | some (known, first) =>
      if known < length then some (length, entry) else some (known, first)

def longest? (entries : List (Entry τ)) (cs : List Char) : Option (Nat × Entry τ) :=
  entries.foldl (fun best entry =>
    match entry.shape.cut? cs with
    | none => best
    | some length => longer best length entry) none

/-- What a text starts with: how many characters follow the first one of the piece, and
the token that the piece stands for. -/
structure Cut (τ : Type) where
  more : Nat
  token? : Option τ

def cutEntry (lexicon : Lexicon τ) (c : Char) (rest : List Char) :
    Except LexicalFault (Cut τ) :=
  match longest? lexicon.entries (c :: rest) with
  | some (more + 1, entry) => .ok ⟨more, entry.token? (c :: rest.take more)⟩
  | _ => .error (.unexpectedCharacter c)

def cut (lexicon : Lexicon τ) (c : Char) (rest : List Char) :
    Except LexicalFault (Cut τ) :=
  match lexicon.comment?, rest with
  | some comment, d :: body =>
      if (c, d) = comment.opener then
        match passThrough? comment.closer.1 comment.closer.2 1 body with
        | some more => .ok ⟨more, none⟩
        | none => .error (.unterminatedComment (String.ofList [c, d]))
      else lexicon.cutEntry c rest
  | _, _ => lexicon.cutEntry c rest

/-- Cut the rest of a text that starts at a byte offset, after the lexemes found so far
(latest first). A fault comes with the offset where it lies. -/
def lexemesOnto (lexicon : Lexicon τ) (found : List (Lexeme τ)) (offset : Nat) :
    List Char → Except (Nat × LexicalFault) (List (Lexeme τ))
  | [] => .ok found.reverse
  | c :: rest =>
      match lexicon.cut c rest with
      | .error fault => .error (offset, fault)
      | .ok ⟨more, token?⟩ =>
          let piece := c :: rest.take more
          let stop := offset + byteLength piece
          let found := match token? with
            | none => found
            | some token => ⟨token, String.ofList piece, ⟨offset, stop⟩⟩ :: found
          lexicon.lexemesOnto found stop (rest.drop more)
termination_by cs => cs.length
decreasing_by
  simp only [List.length_drop, List.length_cons]
  omega

def lexemes (lexicon : Lexicon τ) (text : List Char) :
    Except (Nat × LexicalFault) (List (Lexeme τ)) :=
  lexicon.lexemesOnto [] 0 text

end Lexicon

def isSpacing (c : Char) : Bool :=
  c == ' ' || c == '\t' || c == '\r' || c == '\n' || c == '\x0c'

def isInline (c : Char) : Bool :=
  c != '\r' && c != '\n'

end GrammarTable.Token
