import GrammarTable.Proofs.Tree.Forest

/-!
# Folding trees

A value for each node from the label, the labels right below it and the values of its
children. One such value is the greatest cost of a way from the node down to a leaf.
-/

namespace GrammarTable.Tree

variable {α β : Type}

mutual

/-- The value of the root when each node has one that follows from those of its children. -/
def fold (f : α → List α → List β → β) : Tree α → β
  | ⟨label, children⟩ => f label (children.map Tree.label) (foldEach f children)

def foldEach (f : α → List α → List β → β) : List (Tree α) → List β
  | [] => []
  | tree :: rest => fold f tree :: foldEach f rest

end

theorem foldEach_eq_map (f : α → List α → List β → β) (forest : List (Tree α)) :
    foldEach f forest = forest.map (fold f) := by
  induction forest with
  | nil => rfl
  | cons tree rest ih => rw [foldEach, ih, List.map_cons]

theorem fold_mk (f : α → List α → List β → β) (label : α) (children : List (Tree α)) :
    fold f ⟨label, children⟩ = f label (children.map Tree.label) (children.map (fold f)) := by
  rw [fold, foldEach_eq_map]

/-- The most that the nodes on one way from the root to a leaf cost together. -/
def pathCost (cost : α → List α → Nat) : Tree α → Nat :=
  fold fun label below costs => cost label below + costs.max?.getD 0

theorem pathCost_mk (cost : α → List α → Nat) (label : α) (children : List (Tree α)) :
    pathCost cost ⟨label, children⟩ =
      cost label (children.map Tree.label) + (children.map (pathCost cost)).max?.getD 0 :=
  fold_mk _ label children

theorem pathCost_le_max {cost : α → List α → Nat} {children : List (Tree α)} {child : Tree α}
    (h : child ∈ children) :
    pathCost cost child ≤ (children.map (pathCost cost)).max?.getD 0 :=
  List.le_max?_getD_of_mem (List.mem_map_of_mem h)

end GrammarTable.Tree
