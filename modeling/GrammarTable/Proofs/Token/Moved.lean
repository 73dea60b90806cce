import GrammarTable.Proofs.Token.Run

/-!
# Lexemes at other places

The same lexemes may stand at other bytes of a text. A reader that goes by tokens and texts
only reads them alike, and fails alike.
-/

namespace GrammarTable

def Text.Span.moved (g : Nat → Nat) (span : Text.Span) : Text.Span :=
  ⟨g span.start, g span.stop⟩

namespace Token

variable {τ υ σ ρ : Type} {g : Nat → Nat}

@[simp] theorem mapError_ok {ε δ : Type} (f : ε → δ) (result : ρ) :
    (Except.ok result).mapError f = .ok result := rfl

@[simp] theorem mapError_error {ε δ : Type} (f : ε → δ) (fault : ε) :
    (Except.error fault : Except ε ρ).mapError f = .error (f fault) := rfl

def Lexeme.moved (g : Nat → Nat) (lexeme : Lexeme τ) : Lexeme τ :=
  { lexeme with span := lexeme.span.moved g }

@[simp] theorem Lexeme.token_moved (lexeme : Lexeme τ) :
    (lexeme.moved g).token = lexeme.token := rfl

/-- What a lexeme is, wherever it stands. -/
def Lexeme.bare (lexeme : Lexeme τ) : τ × String :=
  (lexeme.token, lexeme.text)

/-- Moved to one place, lexemes that are the same are equal. -/
theorem map_moved_eq_of_bare {lexemes others : List (Lexeme τ)}
    (h : lexemes.map Lexeme.bare = others.map Lexeme.bare) (offset : Nat) :
    lexemes.map (Lexeme.moved fun _ => offset) = others.map (Lexeme.moved fun _ => offset) := by
  have hplace : (Lexeme.moved fun _ => offset) =
      (fun bare : τ × String => Lexeme.mk bare.1 bare.2 ⟨offset, offset⟩) ∘ Lexeme.bare := rfl
  rw [hplace, ← List.map_map, ← List.map_map, h]

@[simp] theorem comesNext_moved [BEq τ] (token : τ) (lexemes : List (Lexeme τ)) :
    comesNext token (lexemes.map (Lexeme.moved g)) = comesNext token lexemes := by
  cases lexemes <;> rfl

def Failure.moved (g : Nat → Nat) (failure : Failure τ) : Failure τ :=
  { failure with rest := failure.rest.map (Lexeme.moved g) }

/-- A reader that takes moved lexemes from moved states as it takes the lexemes from the
states. -/
structure Reader.Moves (reader : Reader τ σ ρ) (g : Nat → Nat) (state : σ → σ)
    (result : ρ → ρ) : Prop where
  start_eq : state reader.start = reader.start
  take_eq : ∀ before lexeme ahead,
    reader.take (state before) (lexeme.moved g) (ahead.map (Lexeme.moved g)) =
      (reader.take before lexeme ahead).map state
  finish_eq : ∀ last, reader.finish (state last) = (reader.finish last).map result

namespace Reader

variable {reader : Reader τ σ ρ} {state : σ → σ} {result : ρ → ρ}

theorem Moves.advance_eq (moves : reader.Moves g state result) (before : σ)
    (lexemes : List (Lexeme τ)) :
    reader.advance (state before) (lexemes.map (Lexeme.moved g)) =
      ((reader.advance before lexemes).map state).mapError (Failure.moved g) := by
  induction lexemes generalizing before with
  | nil => rfl
  | cons lexeme rest ih =>
      rw [List.map_cons, advance, advance, moves.take_eq]
      cases reader.take before lexeme rest with
      | error cause => rfl
      | ok next => exact ih next

theorem Moves.read_eq (moves : reader.Moves g state result) (lexemes : List (Lexeme τ)) :
    reader.read (lexemes.map (Lexeme.moved g)) =
      ((reader.read lexemes).map result).mapError (Failure.moved g) := by
  have hadvance := moves.advance_eq reader.start lexemes
  rw [moves.start_eq] at hadvance
  rw [read, read, hadvance]
  cases reader.advance reader.start lexemes with
  | error failure => rfl
  | ok last =>
      have hfinish := moves.finish_eq last
      cases hlast : reader.finish last with
      | error cause =>
          rw [hlast] at hfinish
          simp only [Except.map, mapError_ok, mapError_error, hlast, hfinish]
          rfl
      | ok found =>
          rw [hlast] at hfinish
          simp only [Except.map, mapError_ok, hlast, hfinish]

end Reader

end Token

end GrammarTable
