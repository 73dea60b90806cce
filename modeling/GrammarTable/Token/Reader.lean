import GrammarTable.Grammar.Complaint
import GrammarTable.Token.Lexeme

/-!
# Readers

A reader takes the lexemes of a grammar one by one. Its state says what has been read and
what may follow; it may look at the lexemes ahead, but each step takes exactly one. A
failure keeps the lexemes from the offending one on, none of them if the text ended too
early.
-/

namespace GrammarTable.Token

open Grammar

variable {τ σ ρ : Type}

inductive Cause where
  | unexpected (wanted : Wanted)
  | tooDeep
  deriving DecidableEq, Repr

/-- Why reading stopped, and the lexemes that were not taken. -/
structure Failure (τ : Type) where
  cause : Cause
  rest : List (Lexeme τ)
  deriving DecidableEq, Repr

def comesNext [BEq τ] (token : τ) : List (Lexeme τ) → Bool
  | [] => false
  | next :: _ => next.token == token

/-- Whether a further bracket would be one too many when so many are open. -/
def isFull (limit? : Option Nat) (depth : Nat) : Bool :=
  match limit? with
  | none => false
  | some limit => limit ≤ depth

/-- How a reader works: where it starts, how it takes a lexeme in view of those ahead,
and what it has read when the lexemes end. -/
structure Reader (τ σ ρ : Type) where
  start : σ
  take : σ → Lexeme τ → List (Lexeme τ) → Except Cause σ
  finish : σ → Except Cause ρ

namespace Reader

def advance (reader : Reader τ σ ρ) (state : σ) :
    List (Lexeme τ) → Except (Failure τ) σ
  | [] => .ok state
  | lexeme :: rest =>
      match reader.take state lexeme rest with
      | .error cause => .error ⟨cause, lexeme :: rest⟩
      | .ok next => reader.advance next rest

def read (reader : Reader τ σ ρ) (lexemes : List (Lexeme τ)) : Except (Failure τ) ρ :=
  match reader.advance reader.start lexemes with
  | .error failure => .error failure
  | .ok state =>
      match reader.finish state with
      | .error cause => .error ⟨cause, []⟩
      | .ok result => .ok result

end Reader

end GrammarTable.Token
