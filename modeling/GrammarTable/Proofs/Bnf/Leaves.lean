import GrammarTable.Proofs.Bnf.Script
import GrammarTable.Proofs.Bnf.Translation
import GrammarTable.Proofs.Rule.Filled

/-!
# The leaves of BNF

Names and literals are the lexemes with a value, and all lexemes of a body but the bars are
of these.
-/

namespace GrammarTable.Bnf

open Rule Text Token

variable {owner : String}

def Sign.value : Sign → Option Label
  | .name text => some ⟨.nonTerminal, text⟩
  | .literal text => some ⟨.terminal, text⟩
  | _ => none

/-! ## Where a phrase starts -/

theorem Item.startsAt (item : Item) : StartsAt [item.lexeme] item.span.start := by
  cases item <;> exact ⟨_, rfl, rfl⟩

theorem Sequence.startsAt (sequence : Sequence) : StartsAt sequence.lexemes sequence.start := by
  induction sequence with
  | one item => exact item.startsAt
  | snoc before item ih => exact ih.append _

theorem Body.startsAt (body : Body) : StartsAt body.lexemes body.start := by
  induction body with
  | one sequence => exact sequence.startsAt
  | or before bar sequence ih => exact ih.append _

/-! ## Drafts over the lexemes -/

theorem Item.fills (item : Item) : Fills Sign.value [item.lexeme] [item.draft] := by
  cases item <;> exact .singleton_leaf rfl

theorem Sequence.fills_items (sequence : Sequence) :
    Fills Sign.value sequence.lexemes sequence.items := by
  induction sequence with
  | one item => exact item.fills
  | snoc before item ih => exact ih.append item.fills

theorem Sequence.fills (sequence : Sequence) :
    Fills Sign.value sequence.lexemes [sequence.translation owner] := by
  cases sequence with
  | one item => exact item.fills
  | snoc before item =>
      exact .singleton_composite (Sequence.snoc before item).startsAt
        (Sequence.snoc before item).endsAt (by simp) (Sequence.snoc before item).fills_items

theorem Body.fills_alternatives (body : Body) :
    Fills Sign.value body.lexemes (body.alternatives owner) := by
  induction body with
  | one sequence => exact sequence.fills
  | or before bar sequence ih => exact ih.append (.skip rfl sequence.fills)

/-! ## Rules -/

def Declaration.headLexemes (declaration : Declaration) : List (Lexeme Sign) :=
  [declaration.name.as (.name declaration.name.token), declaration.define.as .define]

theorem Declaration.lexemes_eq (declaration : Declaration) :
    declaration.lexemes = declaration.headLexemes ++ declaration.body.lexemes := rfl

theorem Declaration.fills (declaration : Declaration) :
    Fills Sign.value declaration.body.lexemes declaration.draft.children := by
  obtain ⟨name, define, body⟩ := declaration
  rw [Declaration.draft_eq, Declaration.translation]
  cases body with
  | one sequence => exact sequence.fills_items
  | or before bar sequence =>
      exact .singleton_composite (Body.or before bar sequence).startsAt
        (Body.or before bar sequence).endsAt (by simp [Draft.markAlternatives])
        (Body.or before bar sequence).fills_alternatives.markAlternatives

theorem Declaration.children_ne_nil (declaration : Declaration) :
    declaration.draft.children ≠ [] := by
  obtain ⟨name, define, body⟩ := declaration
  rw [Declaration.draft_eq, Declaration.translation]
  cases body with
  | one sequence => exact sequence.items_ne_nil
  | or before bar sequence => exact List.cons_ne_nil _ _

end GrammarTable.Bnf
