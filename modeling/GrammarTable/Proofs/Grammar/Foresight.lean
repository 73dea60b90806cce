import GrammarTable.Proofs.Bnf.Foresight
import GrammarTable.Proofs.Iso.Foresight
import GrammarTable.Proofs.W3c.Foresight

/-!
# Where a text stops being a grammar

What is said to be unexpected is the first lexeme behind which nothing helps, but for the
lexemes that the reader looks ahead: one for the sign of definition behind a name, and in
W3C EBNF one more for the name behind a label.
-/

namespace GrammarTable.Grammar

open Token

theorem ofFailure_unexpected {τ : Type} (lexemes : List (Lexeme τ)) (index stop : Nat)
    (wanted : Wanted) :
    Finding.ofFailure stop ⟨.unexpected wanted, lexemes.drop index⟩ =
      ⟨(lexemes[index]?.map fun lexeme => lexeme.span.start).getD stop,
        .unexpected wanted (lexemes[index]?.map fun lexeme => lexeme.text)⟩ := by
  rw [← List.head?_drop]
  cases lexemes.drop index <;> rfl

/-- Where something is unexpected, the lexemes in front of it are the start of a grammar, and
with it and those that are looked at behind it they are not. -/
theorem read_pinpoints :
    (∀ (lexemes : List (Lexeme Bnf.Sign)) (failure : Failure Bnf.Sign) (wanted : Wanted),
      Bnf.reader.read lexemes = .error failure → failure.cause = .unexpected wanted →
      Bnf.reader.Pinpoints 1 lexemes failure) ∧
    (∀ (lexemes : List (Lexeme Iso.Sign)) (failure : Failure Iso.Sign) (wanted : Wanted),
      (Iso.reader (some nestingLimit)).read lexemes = .error failure →
      failure.cause = .unexpected wanted →
      (Iso.reader (some nestingLimit)).Pinpoints 1 lexemes failure) ∧
    (∀ (lexemes : List (Lexeme W3c.Sign)) (failure : Failure W3c.Sign) (wanted : Wanted),
      (W3c.reader (some nestingLimit)).read lexemes = .error failure →
      failure.cause = .unexpected wanted →
      (W3c.reader (some nestingLimit)).Pinpoints 2 lexemes failure) ∧
    (∀ (τ : Type) (lexemes : List (Lexeme τ)) (index stop : Nat) (wanted : Wanted),
      Finding.ofFailure stop ⟨.unexpected wanted, lexemes.drop index⟩ =
        ⟨(lexemes[index]?.map fun lexeme => lexeme.span.start).getD stop,
          .unexpected wanted (lexemes[index]?.map fun lexeme => lexeme.text)⟩) ∧
    (∀ (wanted : Wanted) (found : String),
      Complaint.words (.unexpected wanted (some found)) =
        "expected " ++ wanted.words ++ ", found '" ++ found ++ "'") ∧
    (∀ wanted : Wanted,
      Complaint.words (.unexpected wanted none) =
        "expected " ++ wanted.words ++ ", found end of input") :=
  ⟨fun _ _ _ h hcause => Bnf.pinpoints h hcause, fun _ _ _ h hcause => Iso.pinpoints h hcause,
    fun _ _ _ h hcause => W3c.pinpoints h hcause, fun _ => ofFailure_unexpected,
    fun _ _ => rfl, fun _ => rfl⟩

/-! ## Rules that end too early -/

/-- The lexemes of `<a> ::= <b> | <c> ::= 'd'`. -/
def barredLexemes : List (Lexeme Bnf.Sign) :=
  [⟨.name "a", "<a>", ⟨0, 3⟩⟩, ⟨.define, "::=", ⟨4, 7⟩⟩, ⟨.name "b", "<b>", ⟨8, 11⟩⟩,
    ⟨.bar, "|", ⟨12, 13⟩⟩, ⟨.name "c", "<c>", ⟨14, 17⟩⟩, ⟨.define, "::=", ⟨18, 21⟩⟩,
    ⟨.literal "d", "'d'", ⟨22, 25⟩⟩]

/-- The lexemes of `a = b c = d;`. -/
def unendedLexemes : List (Lexeme Iso.Sign) :=
  [⟨.name "a", "a", ⟨0, 1⟩⟩, ⟨.define, "=", ⟨2, 3⟩⟩, ⟨.name "b", "b", ⟨4, 5⟩⟩,
    ⟨.name "c", "c", ⟨6, 7⟩⟩, ⟨.define, "=", ⟨8, 9⟩⟩, ⟨.name "d", "d", ⟨10, 11⟩⟩,
    ⟨.semicolon, ";", ⟨11, 12⟩⟩]

/-- The lexemes of `a ::= (b [2] c ::= d`. -/
def unclosedLexemes : List (Lexeme W3c.Sign) :=
  [⟨.name "a", "a", ⟨0, 1⟩⟩, ⟨.define, "::=", ⟨2, 5⟩⟩, ⟨.opening, "(", ⟨6, 7⟩⟩,
    ⟨.name "b", "b", ⟨7, 8⟩⟩, ⟨.label "[2]", "[2]", ⟨9, 12⟩⟩, ⟨.name "c", "c", ⟨13, 14⟩⟩,
    ⟨.define, "::=", ⟨15, 18⟩⟩, ⟨.name "d", "d", ⟨19, 20⟩⟩]

/-- In each notation a rule starts where the one before cannot end: what is unexpected is the
start of that rule. -/
theorem read_pinpoints_nextRule :
    (Bnf.reader.read barredLexemes = .error ⟨.unexpected .angledItem, barredLexemes.drop 4⟩ ∧
      Bnf.reader.Pinpoints 1 barredLexemes ⟨.unexpected .angledItem, barredLexemes.drop 4⟩) ∧
    ((Iso.reader (some nestingLimit)).read unendedLexemes =
        .error ⟨.unexpected (.sign ";"), unendedLexemes.drop 3⟩ ∧
      (Iso.reader (some nestingLimit)).Pinpoints 1 unendedLexemes
        ⟨.unexpected (.sign ";"), unendedLexemes.drop 3⟩) ∧
    ((W3c.reader (some nestingLimit)).read unclosedLexemes =
        .error ⟨.unexpected (.sign ")"), unclosedLexemes.drop 4⟩ ∧
      (W3c.reader (some nestingLimit)).Pinpoints 2 unclosedLexemes
        ⟨.unexpected (.sign ")"), unclosedLexemes.drop 4⟩) :=
  ⟨⟨rfl, read_pinpoints.1 _ _ _ rfl rfl⟩, ⟨rfl, read_pinpoints.2.1 _ _ _ rfl rfl⟩,
    ⟨rfl, read_pinpoints.2.2.1 _ _ _ rfl rfl⟩⟩

end GrammarTable.Grammar
