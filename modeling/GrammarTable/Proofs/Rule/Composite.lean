import GrammarTable.Proofs.Tree.Relabel
import GrammarTable.Rule.Composite

/-!
# Composites of several parts

A sequence or a choice of at least two parts is a node of its own. Marking alternatives adds
no node.
-/

namespace GrammarTable.Rule.Draft

open Text

theorem sequence_append {owner : String} {front : List Draft} (h : front ≠ []) (span : Span)
    (item : Draft) :
    sequence owner span (front ++ [item]) =
      composite .sequence owner span (front ++ [item]) := by
  obtain ⟨first, rest, rfl⟩ := List.exists_cons_of_ne_nil h
  cases rest <;> rfl

theorem choice_append {owner : String} {front : List Draft} (h : front ≠ []) (span : Span)
    (item : Draft) :
    choice owner span (front ++ [item]) =
      composite .choice owner span (markAlternatives (front ++ [item])) := by
  obtain ⟨first, rest, rfl⟩ := List.exists_cons_of_ne_nil h
  cases rest <;> rfl

theorem size_markUnique (unique : Bool) (draft : Draft) :
    (markUnique unique draft).size = draft.size := by
  rw [Tree.size_eq, Tree.size_eq]
  rfl

theorem forestSize_markAlternatives (alternatives : List Draft) :
    Tree.forestSize (markAlternatives alternatives) = Tree.forestSize alternatives :=
  Tree.forestSize_map fun _ _ => size_markUnique _ _

end GrammarTable.Rule.Draft
