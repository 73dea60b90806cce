import GrammarTable.Tree.Basic

/-!
# Leaves

The labels of the nodes without children, from left to right.
-/

namespace GrammarTable.Tree

variable {α : Type}

mutual

/-- The labels of the nodes without children, in pre-order. -/
def leaves : Tree α → List α
  | ⟨label, children⟩ => if children.isEmpty then [label] else forestLeaves children

def forestLeaves : List (Tree α) → List α
  | [] => []
  | tree :: rest => tree.leaves ++ forestLeaves rest

end

@[simp] theorem leaves_leaf (label : α) : leaves ⟨label, []⟩ = [label] := rfl

theorem leaves_of_ne_nil {tree : Tree α} (h : tree.children ≠ []) :
    tree.leaves = forestLeaves tree.children := by
  obtain ⟨label, children⟩ := tree
  rw [leaves, List.isEmpty_eq_false_iff.mpr h]
  rfl

end GrammarTable.Tree
