import GrammarTable.Proofs.Rule.NormalForm
import GrammarTable.Proofs.W3c.Translation

/-!
# The normal form of W3C EBNF

A primary is a leaf or a group, and so is what an operator stands behind. An operand is no
exclusion, so a minus sign has none beside it, and an item is no sequence and no choice.
-/

namespace GrammarTable.W3c

open Rule Token

variable {owner : String}

def notPrimary : List Kind :=
  [.rule, .sequence, .choice, .exclusion, .optional, .repetition, .repetition1]

theorem mem_of_notMem_notPrimary {kind : Kind} (h : kind ∉ notPrimary) :
    kind ∈ Kind.group :: Kind.leaves := by
  revert h
  cases kind <;> decide

theorem Operand.stands_of_primary {primary : Primary} (operator : Lexeme Operator)
    (h : (primary.translation owner).Stands .w3c owner notPrimary) :
    ((Operand.repeated primary operator).translation owner).Stands .w3c owner
      [.rule, .sequence, .choice, .exclusion] := by
  rw [Operand.translation_repeated]
  refine Draft.stands_around ?_ ⟨?_, ?_⟩ (h.mono (by decide)) ?_
  · cases operator.token <;> decide
  · exact fun _ => List.forall_mem_singleton.mpr (mem_of_notMem_notPrimary h.kind_notMem)
  · intro hkind
    cases htoken : operator.token <;> simp [htoken, Operator.kind] at hkind
  · cases operator.token <;> decide

theorem Item.stands_of_operands {left right : Operand} {span : Text.Span}
    (hleft : (left.translation owner).Stands .w3c owner
      [.rule, .sequence, .choice, .exclusion])
    (hright : (right.translation owner).Stands .w3c owner
      [.rule, .sequence, .choice, .exclusion]) :
    (Draft.composite .exclusion owner span
      [left.translation owner, right.translation owner]).Stands .w3c owner
        [.rule, .sequence, .choice] := by
  have hparts := List.forall_mem_cons.mpr ⟨hleft, List.forall_mem_singleton.mpr hright⟩
  refine ⟨Draft.throughout_composite rfl ⟨nofun, fun _ => ?_⟩ ?_, by simp [Draft.composite]⟩
  · rw [List.forall_mem_map]
    exact fun part hpart => ((hparts part hpart).mono (List.subset_cons_self _ _)).kind_notMem
  · exact fun part hpart => (hparts part hpart).mono (by simp)

theorem Sequence.stands_of_items {sequence : Sequence}
    (h : ∀ part ∈ sequence.items owner, part.Stands .w3c owner [.rule, .sequence, .choice]) :
    (sequence.translation owner).Stands .w3c owner [.rule, .choice] := by
  cases sequence with
  | one item =>
      have hitem := h (item.translation owner) (by simp [Sequence.items])
      rw [Sequence.translation]
      exact hitem.mono (by simp)
  | snoc before item =>
      rw [Sequence.translation]
      exact Draft.stands_sequence before.items_ne_nil h

theorem Choice.stands_of_alternatives {choice : Choice}
    (h : ∀ part ∈ choice.alternatives owner, part.Stands .w3c owner [.rule, .choice]) :
    (choice.translation owner).Stands .w3c owner [.rule] := by
  cases choice with
  | one sequence =>
      have hsequence := h (sequence.translation owner) (by simp [Choice.alternatives])
      rw [Choice.translation]
      exact hsequence.mono (by simp)
  | or before bar sequence =>
      rw [Choice.translation]
      exact (Draft.stands_choice before.alternatives_ne_nil h).mono (by simp)

mutual

theorem Primary.stands (primary : Primary) :
    (primary.translation owner).Stands .w3c owner notPrimary := by
  cases primary with
  | reference name => exact Draft.stands_leaf (by decide) (by decide) (by decide)
  | literal text => exact Draft.stands_leaf (by decide) (by decide) (by decide)
  | pattern text => exact Draft.stands_leaf (by decide) (by decide) (by decide)
  | label text => exact Draft.stands_leaf (by decide) (by decide) (by decide)
  | group opening body closing =>
      have hbody : (body.translation owner).Stands .w3c owner [.rule] :=
        Choice.stands_of_alternatives body.alternatives_stand
      rw [Primary.translation]
      exact Draft.stands_around (by decide) ⟨nofun, nofun⟩ hbody (by decide)

theorem Operand.stands (operand : Operand) :
    (operand.translation owner).Stands .w3c owner [.rule, .sequence, .choice, .exclusion] := by
  cases operand with
  | plain primary =>
      rw [Operand.translation]
      exact primary.stands.mono (by decide)
  | repeated primary operator => exact Operand.stands_of_primary operator primary.stands

theorem Item.stands (item : Item) :
    (item.translation owner).Stands .w3c owner [.rule, .sequence, .choice] := by
  cases item with
  | alone operand =>
      rw [Item.translation]
      exact operand.stands.mono (by decide)
  | difference left minus right =>
      rw [Item.translation]
      exact Item.stands_of_operands left.stands right.stands

theorem Sequence.items_stand (sequence : Sequence) :
    ∀ part ∈ sequence.items owner, part.Stands .w3c owner [.rule, .sequence, .choice] := by
  cases sequence with
  | one item =>
      rw [Sequence.items]
      exact List.forall_mem_singleton.mpr item.stands
  | snoc before item =>
      rw [Sequence.items]
      exact List.forall_mem_append.mpr
        ⟨before.items_stand, List.forall_mem_singleton.mpr item.stands⟩

theorem Choice.alternatives_stand (choice : Choice) :
    ∀ part ∈ choice.alternatives owner, part.Stands .w3c owner [.rule, .choice] := by
  cases choice with
  | one sequence =>
      rw [Choice.alternatives]
      exact List.forall_mem_singleton.mpr (Sequence.stands_of_items sequence.items_stand)
  | or before bar sequence =>
      rw [Choice.alternatives]
      exact List.forall_mem_append.mpr ⟨before.alternatives_stand,
        List.forall_mem_singleton.mpr (Sequence.stands_of_items sequence.items_stand)⟩

end

theorem Declaration.normal (declaration : Declaration) :
    declaration.draft.node.Normal .w3c := by
  obtain ⟨label?, name, define, body⟩ := declaration
  rw [Declaration.draft_eq, Declaration.translation]
  cases body with
  | one sequence => exact Draft.normal_rule_of_items sequence.items_ne_nil sequence.items_stand
  | or before bar sequence =>
      exact Draft.normal_rule_of_alternatives before.alternatives_ne_nil
        (Choice.or before bar sequence).alternatives_stand

end GrammarTable.W3c
