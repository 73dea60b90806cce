import GrammarTable.Proofs.Bnf.Derivation
import GrammarTable.Proofs.Token.Foresight

/-!
# Where the reader of BNF stops

The reader looks one lexeme ahead, for the sign of definition. In every state the rule at
hand can be completed: a name wants a definition, and a sequence an item.
-/

namespace GrammarTable.Bnf

open Grammar Token

theorem foresees : reader.Foresees 1 := by
  refine Reader.foresees_one .define ?_ ?_
  · rintro ⟨rules, place⟩ lexeme ahead other h
    cases place <;> simp only [reader, take, h]
  · rintro ⟨rules, place⟩ lexeme ahead wanted h
    cases place with
    | between => exact h
    | named name => exact h
    | wanting head before =>
        cases htoken : lexeme.token <;> simp_all [reader, take, comesNext]
    | holding head before sequence =>
        cases htoken : lexeme.token <;> simp_all [reader, take, comesNext]

def anyItem : Item :=
  .reference ⟨"x", "<x>", ⟨0, 0⟩⟩

def anyDefine : Lexeme Unit :=
  ⟨(), "::=", ⟨0, 0⟩⟩

/-- The lexemes taken are the start of some that have a derivation. -/
theorem State.exists_yield (state : State) :
    ∃ more declarations, yield declarations = state.lexemes ++ more := by
  obtain ⟨rules, place⟩ := state
  cases place with
  | between => exact ⟨[], rules.reverse, by simp [State.lexemes, Place.lexemes]⟩
  | named name =>
      refine ⟨[anyDefine.as .define, anyItem.lexeme],
        rules.reverse ++ [⟨name, anyDefine, .one (.one anyItem)⟩], ?_⟩
      simp [State.lexemes, Place.lexemes, yield, Declaration.lexemes, Body.lexemes,
        Sequence.lexemes]
  | wanting head before =>
      refine ⟨[anyItem.lexeme],
        rules.reverse ++ [⟨head.name, head.define, closeBody before (.one anyItem)⟩], ?_⟩
      simp [State.lexemes, Place.lexemes, yield, Declaration.lexemes, Head.lexemes,
        lexemes_closeBody, Sequence.lexemes]
  | holding head before sequence =>
      refine ⟨[], rules.reverse ++ [⟨head.name, head.define, closeBody before sequence⟩], ?_⟩
      simp [State.lexemes, Place.lexemes, yield, Declaration.lexemes, Head.lexemes,
        lexemes_closeBody]

theorem pinpoints {lexemes : List (Lexeme Sign)} {failure : Failure Sign} {wanted : Wanted}
    (h : reader.read lexemes = .error failure) (hcause : failure.cause = .unexpected wanted) :
    reader.Pinpoints 1 lexemes failure := by
  refine foresees.pinpoints h hcause ?_
  intro index last hreaches
  have hview : last.lexemes = lexemes.take index :=
    hreaches.view_eq rfl fun _ _ _ _ => lexemes_take
  obtain ⟨more, declarations, hyield⟩ := last.exists_yield
  rw [hview] at hyield
  exact ⟨more, declarations, read_eq_ok_iff.mpr hyield⟩

end GrammarTable.Bnf
