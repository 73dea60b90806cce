import GrammarTable.Text.Span

/-!
# Lexemes

A lexeme is a piece of a source text with the token that it stands for.
-/

namespace GrammarTable.Token

open Text

/-- A piece of a source text that stands for a token. -/
structure Lexeme (τ : Type) where
  token : τ
  text : String
  span : Span
  deriving DecidableEq, Repr

def Lexeme.as {τ υ : Type} (lexeme : Lexeme τ) (token : υ) : Lexeme υ :=
  { lexeme with token }

@[simp] theorem Lexeme.as_as {τ υ φ : Type} (lexeme : Lexeme τ) (token : υ) (other : φ) :
    (lexeme.as token).as other = lexeme.as other := rfl

@[simp] theorem Lexeme.token_as {τ υ : Type} (lexeme : Lexeme τ) (token : υ) :
    (lexeme.as token).token = token := rfl

@[simp] theorem Lexeme.as_token {τ : Type} (lexeme : Lexeme τ) :
    lexeme.as lexeme.token = lexeme := rfl

theorem Lexeme.as_eq_self {τ : Type} {lexeme : Lexeme τ} {token : τ}
    (h : lexeme.token = token) : lexeme.as token = lexeme := by
  rw [← h, lexeme.as_token]

end GrammarTable.Token
