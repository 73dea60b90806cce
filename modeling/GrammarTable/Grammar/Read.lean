import GrammarTable.Bnf.Reader
import GrammarTable.Grammar.Rejection
import GrammarTable.Iso.Reader
import GrammarTable.Rule.RuleSet
import GrammarTable.W3c.Reader

/-!
# Reading grammars

From the text of a grammar to its rules. The whole text is cut into lexemes first, then
the lexemes are read, and only then the rules are collected; the first of these steps that
fails decides the rejection.
-/

namespace GrammarTable.Grammar

open Rule Settings Text Token

/-- A complaint and the byte offset that it is about. -/
structure Finding where
  offset : Nat
  complaint : Complaint
  deriving DecidableEq, Repr

def Finding.ofLexicalFault : Nat × LexicalFault → Finding
  | (offset, .unexpectedCharacter c) => ⟨offset, .unexpectedCharacter c⟩
  | (offset, .unterminatedComment opener) => ⟨offset, .unterminatedComment opener⟩

def Finding.ofFailure {τ : Type} (stop : Nat) (failure : Failure τ) : Finding :=
  let offset := match failure.rest with
    | [] => stop
    | lexeme :: _ => lexeme.span.start
  match failure.cause with
  | .unexpected wanted =>
      ⟨offset, .unexpected wanted (failure.rest.head?.map fun lexeme => lexeme.text)⟩
  | .tooDeep => ⟨offset, .tooDeep⟩

def drafts {τ σ δ : Type} (lexicon : Lexicon τ) (reader : Reader τ σ (List δ))
    (draft : δ → Draft) (text : List Char) : Except Finding (List Draft) :=
  match lexicon.lexemes text with
  | .error fault => .error (.ofLexicalFault fault)
  | .ok lexemes =>
      match reader.read lexemes with
      | .error failure => .error (.ofFailure (byteLength text) failure)
      | .ok declarations => .ok (declarations.map draft)

def draftsOf (dialect : Dialect) : List Char → Except Finding (List Draft) :=
  match dialect with
  | .bnf => drafts Bnf.lexicon Bnf.reader Bnf.Declaration.draft
  | .w3c => drafts W3c.lexicon (W3c.reader (some nestingLimit)) W3c.Declaration.draft
  | .iso => drafts Iso.lexicon (Iso.reader (some nestingLimit)) Iso.Declaration.draft

/-- The set of some rules. There has to be one, and names must differ. -/
def collect (rules : List Draft) : Except Finding RuleSet :=
  if rules.isEmpty then .error ⟨0, .noRules⟩
  else
    match RuleSet.empty.insertAll rules with
    | .ok set => .ok set
    | .error rule =>
        .error ⟨(rule.label.span.map Span.start).getD 0, .duplicate rule.label.name⟩

def find (dialect : Dialect) (text : List Char) : Except Finding RuleSet :=
  match draftsOf dialect text with
  | .error finding => .error finding
  | .ok rules => collect rules

def read (dialect : Dialect) (source : String) : Except Rejection RuleSet :=
  match find dialect source.toList with
  | .ok set => .ok set
  | .error ⟨offset, complaint⟩ =>
      .error ⟨dialect, Position.ofOffset source.toList offset, complaint⟩

end GrammarTable.Grammar
