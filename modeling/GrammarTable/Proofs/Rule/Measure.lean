import Mathlib.Algebra.GroupWithZero.Nat
import GrammarTable.Proofs.Tree.Relabel
import GrammarTable.Rule.Draft
import GrammarTable.Tree.Measure

/-!
# Measures of drafts

The walks that measure a draft take its parts in an order of their own, the last child first.
They find what the recursion over the children says: a node adds one level to the deepest of
its children and one node to theirs together. Marks have no part in either measure.
-/

namespace GrammarTable

/-! ## The recursion over the children -/

namespace Tree

variable {α : Type}

theorem forestSize_eq_sum (forest : List (Tree α)) :
    forestSize forest = (forest.map size).sum := by
  induction forest with
  | nil => rfl
  | cons tree rest ih => rw [forestSize, List.map_cons, List.sum_cons, ih]

theorem forestHeight_eq_max (forest : List (Tree α)) :
    forestHeight forest = (forest.map height).max?.getD 0 := by
  induction forest with
  | nil => rfl
  | cons tree rest ih =>
      rw [forestHeight, List.map_cons, List.max?_cons, Option.getD_some, ih]
      cases (rest.map height).max? with
      | none => exact Nat.max_zero _
      | some highest => rfl

/-- One node, and those of each child. -/
theorem count_mk (label : α) (children : List (Tree α)) :
    count ⟨label, children⟩ = 1 + (children.map count).sum := by
  have hcount : (count : Tree α → Nat) = size := funext count_eq_size
  rw [hcount, size, forestSize_eq_sum]

/-- One level, and those of the deepest child. -/
theorem depth_mk (label : α) (children : List (Tree α)) :
    depth ⟨label, children⟩ = 1 + (children.map depth).max?.getD 0 := by
  have hdepth : (depth : Tree α → Nat) = height := funext depth_eq_height
  rw [hdepth, height, forestHeight_eq_max]

end Tree

/-! ## Drafts without their marks -/

namespace Rule.Draft

theorem height_bare (draft : Draft) : draft.bare.height = draft.height :=
  Tree.height_map MarkedLabel.bare draft

theorem size_bare (draft : Draft) : draft.bare.size = draft.size :=
  Tree.size_map MarkedLabel.bare draft

theorem height_node (draft : Draft) : draft.node.height = draft.height :=
  Tree.height_map MarkedLabel.toLabel draft

theorem size_node (draft : Draft) : draft.node.size = draft.size :=
  Tree.size_map MarkedLabel.toLabel draft

/-- The depth and the number of nodes that the walks find are those of the recursion over the
children. Both stay when the marks are taken away in the draft, and its node has them too. -/
theorem walks_measure_structure :
    (∀ (label : MarkedLabel) (children : List Draft),
      Tree.depth ⟨label, children⟩ = 1 + (children.map Tree.depth).max?.getD 0 ∧
        Tree.count ⟨label, children⟩ = 1 + (children.map Tree.count).sum) ∧
    ∀ draft : Draft,
      (draft.depth = draft.height ∧ draft.count = draft.size) ∧
      (draft.bare.depth = draft.depth ∧ draft.bare.count = draft.count) ∧
      draft.node.height = draft.height ∧ draft.node.size = draft.size := by
  refine ⟨fun label children => ⟨Tree.depth_mk label children, Tree.count_mk label children⟩, ?_⟩
  intro draft
  refine ⟨⟨Tree.depth_eq_height draft, Tree.count_eq_size draft⟩, ⟨?_, ?_⟩, draft.height_node,
    draft.size_node⟩
  · rw [Tree.depth_eq_height, Tree.depth_eq_height, height_bare]
  · rw [Tree.count_eq_size, Tree.count_eq_size, size_bare]

end Rule.Draft

end GrammarTable
