import GrammarTable.Proofs.Iso.Translation
import GrammarTable.Proofs.Rule.NormalForm

/-!
# The normal form of ISO-style EBNF

A factor is no sequence and no choice, so a term has no sequence in it and an expression no
choice. Brackets and operators each hold one part, and what a plus sign stands behind is a
factor.
-/

namespace GrammarTable.Iso

open Rule

variable {owner : String}

theorem Term.stands_of_items {term : Term}
    (h : ∀ part ∈ term.items owner, part.Stands .iso owner [.rule, .sequence, .choice]) :
    (term.translation owner).Stands .iso owner [.rule, .choice] := by
  cases term with
  | one factor =>
      have hfactor := h (factor.translation owner) (by simp [Term.items])
      rw [Term.translation]
      exact hfactor.mono (by simp)
  | snoc before comma? factor =>
      rw [Term.translation]
      exact Draft.stands_sequence before.items_ne_nil h

theorem Expression.stands_of_alternatives {expression : Expression}
    (h : ∀ part ∈ expression.alternatives owner, part.Stands .iso owner [.rule, .choice]) :
    (expression.translation owner).Stands .iso owner [.rule] := by
  cases expression with
  | one term =>
      have hterm := h (term.translation owner) (by simp [Expression.alternatives])
      rw [Expression.translation]
      exact hterm.mono (by simp)
  | or before bar term =>
      rw [Expression.translation]
      exact (Draft.stands_choice before.alternatives_ne_nil h).mono (by simp)

mutual

theorem Factor.stands (factor : Factor) :
    (factor.translation owner).Stands .iso owner [.rule, .sequence, .choice] := by
  cases factor with
  | reference name => exact Draft.stands_leaf (by decide) (by decide) (by decide)
  | literal text => exact Draft.stands_leaf (by decide) (by decide) (by decide)
  | bracketed bracket opening body closing =>
      have hbody : (body.translation owner).Stands .iso owner [.rule] :=
        Expression.stands_of_alternatives body.alternatives_stand
      rw [Factor.translation_bracketed]
      refine Draft.stands_around ?_ ⟨?_, ?_⟩ hbody ?_
      · cases bracket <;> decide
      · cases bracket <;> decide
      · intro hplus
        cases bracket <;> contradiction
      · cases bracket <;> decide
  | repeated factor operator =>
      have hfactor : (factor.translation owner).Stands .iso owner [.rule, .sequence, .choice] :=
        factor.stands
      have hitem := (hfactor.mono (List.subset_cons_self _ _)).kind_notMem
      rw [Factor.translation_repeated]
      refine Draft.stands_around ?_ ⟨?_, ?_⟩ (hfactor.mono (by simp)) ?_
      · cases operator.token <;> decide
      · cases operator.token <;> decide
      · exact fun _ => List.forall_mem_singleton.mpr hitem
      · cases operator.token <;> decide

theorem Term.items_stand (term : Term) :
    ∀ part ∈ term.items owner, part.Stands .iso owner [.rule, .sequence, .choice] := by
  cases term with
  | one factor =>
      rw [Term.items]
      exact List.forall_mem_singleton.mpr factor.stands
  | snoc before comma? factor =>
      rw [Term.items]
      exact List.forall_mem_append.mpr
        ⟨before.items_stand, List.forall_mem_singleton.mpr factor.stands⟩

theorem Expression.alternatives_stand (expression : Expression) :
    ∀ part ∈ expression.alternatives owner, part.Stands .iso owner [.rule, .choice] := by
  cases expression with
  | one term =>
      rw [Expression.alternatives]
      exact List.forall_mem_singleton.mpr (Term.stands_of_items term.items_stand)
  | or before bar term =>
      rw [Expression.alternatives]
      exact List.forall_mem_append.mpr ⟨before.alternatives_stand,
        List.forall_mem_singleton.mpr (Term.stands_of_items term.items_stand)⟩

end

theorem Declaration.normal (declaration : Declaration) :
    declaration.draft.node.Normal .iso := by
  obtain ⟨name, define, body, semicolon⟩ := declaration
  rw [Declaration.draft_eq, Declaration.translation]
  cases body with
  | one term => exact Draft.normal_rule_of_items term.items_ne_nil term.items_stand
  | or before bar term =>
      exact Draft.normal_rule_of_alternatives before.alternatives_ne_nil
        (Expression.or before bar term).alternatives_stand

end GrammarTable.Iso
