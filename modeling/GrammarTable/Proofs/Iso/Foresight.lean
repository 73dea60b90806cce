import GrammarTable.Proofs.Iso.Derivation
import GrammarTable.Proofs.Iso.Limit
import GrammarTable.Proofs.Token.Foresight

/-!
# Where the reader of ISO-style EBNF stops

The reader looks one lexeme ahead, for the sign of definition. In every state the rule at
hand can be completed: a factor if one is wanted, then the closers of all open brackets, and
a semicolon. So nothing opens that the limit on nesting could refuse.
-/

namespace GrammarTable.Iso

open Grammar Token

variable {limit : Nat} {limit? : Option Nat}

theorem foresees : (reader limit?).Foresees 1 := by
  refine Reader.foresees_one .define ?_ ?_
  · rintro ⟨rules, place⟩ lexeme ahead other h
    cases place <;> simp only [reader, take, takeAfterFactor, h]
  · rintro ⟨rules, place⟩ lexeme ahead wanted h
    cases place with
    | between => exact h
    | named name => exact h
    | wanting head around prior => exact h
    | holding head around prior factor =>
        cases htoken : lexeme.token <;>
          simp_all [reader, take, takeAfterFactor, takeFactor, comesNext, Except.map]

/-! ## Completing the rule at hand -/

def closer (bracket : Bracket) : Lexeme Unit :=
  ⟨(), bracket.closer, ⟨0, 0⟩⟩

def closers (around : List Enclosure) : List (Lexeme Sign) :=
  around.map fun enclosure => (closer enclosure.bracket).as (.closing enclosure.bracket)

/-- The expression at hand with everything around it. -/
def enclose : List Enclosure → Expression → Expression
  | [], body => body
  | ⟨prior, bracket, opening⟩ :: outer, body =>
      enclose outer (prior.expression (.bracketed bracket opening body (closer bracket)))

theorem lexemes_enclose (around : List Enclosure) (body : Expression) :
    (enclose around body).lexemes = enclosed around ++ (body.lexemes ++ closers around) := by
  induction around generalizing body with
  | nil => simp [enclose, enclosed, closers]
  | cons enclosure outer ih =>
      obtain ⟨prior, bracket, opening⟩ := enclosure
      rw [enclose, ih, Prior.lexemes_expression]
      simp [Factor.lexemes, enclosed, closers]

def anyFactor : Factor :=
  .reference ⟨"x", "x", ⟨0, 0⟩⟩

def anyDefine : Lexeme Unit :=
  ⟨(), "=", ⟨0, 0⟩⟩

def anySemicolon : Lexeme Unit :=
  ⟨(), ";", ⟨0, 0⟩⟩

/-- The lexemes taken are the start of some that have a derivation, and nothing opens behind
them. -/
theorem State.exists_yield (state : State) :
    ∃ more declarations, yield declarations = state.lexemes ++ more ∧
      ∀ lexeme ∈ more, lexeme.token.nesting ≤ 0 := by
  obtain ⟨rules, place⟩ := state
  cases place with
  | between => exact ⟨[], rules.reverse, by simp [State.lexemes, Place.lexemes], nofun⟩
  | named name =>
      refine ⟨anyDefine.as .define :: (anyFactor.lexemes ++ [anySemicolon.as .semicolon]),
        rules.reverse ++ [⟨name, anyDefine, .one (.one anyFactor), anySemicolon⟩], ?_, ?_⟩
      · simp [State.lexemes, Place.lexemes, yield, Declaration.lexemes, Expression.lexemes,
          Term.lexemes]
      · simp [anyFactor, Factor.lexemes, Sign.nesting]
  | wanting head around prior =>
      refine ⟨anyFactor.lexemes ++ (closers around ++ [anySemicolon.as .semicolon]),
        rules.reverse ++ [⟨head.name, head.define,
          enclose around (prior.expression anyFactor), anySemicolon⟩], ?_, ?_⟩
      · simp [State.lexemes, Place.lexemes, yield, Declaration.lexemes, Head.lexemes,
          lexemes_enclose, Prior.lexemes_expression]
      · simp [anyFactor, Factor.lexemes, closers, Sign.nesting, or_imp, forall_and]
  | holding head around prior factor =>
      refine ⟨closers around ++ [anySemicolon.as .semicolon],
        rules.reverse ++ [⟨head.name, head.define,
          enclose around (prior.expression factor), anySemicolon⟩], ?_, ?_⟩
      · simp [State.lexemes, Place.lexemes, yield, Declaration.lexemes, Head.lexemes,
          lexemes_enclose, Prior.lexemes_expression]
      · simp [closers, Sign.nesting, or_imp, forall_and]

theorem pinpoints {lexemes : List (Lexeme Sign)} {failure : Failure Sign} {wanted : Wanted}
    (h : (reader (some limit)).read lexemes = .error failure)
    (hcause : failure.cause = .unexpected wanted) :
    (reader (some limit)).Pinpoints 1 lexemes failure := by
  refine foresees.pinpoints h hcause ?_
  intro index last hreaches
  have hview : last.lexemes = lexemes.take index :=
    hreaches.view_eq rfl fun _ _ _ _ => lexemes_take
  obtain ⟨more, declarations, hyield, hfalls⟩ := last.exists_yield
  rw [hview] at hyield
  have hwithin := nests.nestsWithin_completed hreaches hfalls
  exact ⟨more, declarations, (read_eq_ok_iff hwithin).mpr hyield⟩

end GrammarTable.Iso
