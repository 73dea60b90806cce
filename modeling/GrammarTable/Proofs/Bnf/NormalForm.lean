import GrammarTable.Proofs.Bnf.Translation
import GrammarTable.Proofs.Rule.NormalForm

/-!
# The normal form of BNF

A rule is a choice of sequences of leaves, each of them only where it has several parts.
-/

namespace GrammarTable.Bnf

open Rule

variable {owner : String}

theorem Item.stands (item : Item) :
    item.draft.Stands .bnf owner [.rule, .sequence, .choice] := by
  cases item with
  | reference name => exact Draft.stands_leaf (by decide) (by decide) (by decide)
  | literal text => exact Draft.stands_leaf (by decide) (by decide) (by decide)

theorem Sequence.items_stand (sequence : Sequence) :
    ∀ part ∈ sequence.items, part.Stands .bnf owner [.rule, .sequence, .choice] := by
  induction sequence with
  | one item => exact List.forall_mem_singleton.mpr item.stands
  | snoc before item ih =>
      exact List.forall_mem_append.mpr ⟨ih, List.forall_mem_singleton.mpr item.stands⟩

theorem Sequence.stands (sequence : Sequence) :
    (sequence.translation owner).Stands .bnf owner [.rule, .choice] := by
  cases sequence with
  | one item => exact item.stands.mono (by simp)
  | snoc before item =>
      exact Draft.stands_sequence before.items_ne_nil (Sequence.snoc before item).items_stand

theorem Body.alternatives_stand (body : Body) :
    ∀ part ∈ body.alternatives owner, part.Stands .bnf owner [.rule, .choice] := by
  induction body with
  | one sequence => exact List.forall_mem_singleton.mpr sequence.stands
  | or before bar sequence ih =>
      exact List.forall_mem_append.mpr ⟨ih, List.forall_mem_singleton.mpr sequence.stands⟩

theorem Declaration.normal (declaration : Declaration) :
    declaration.draft.node.Normal .bnf := by
  obtain ⟨name, define, body⟩ := declaration
  rw [Declaration.draft_eq, Declaration.translation]
  cases body with
  | one sequence => exact Draft.normal_rule_of_items sequence.items_ne_nil sequence.items_stand
  | or before bar sequence =>
      exact Draft.normal_rule_of_alternatives before.alternatives_ne_nil
        (Body.or before bar sequence).alternatives_stand

end GrammarTable.Bnf
