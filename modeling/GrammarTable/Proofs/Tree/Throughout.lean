import GrammarTable.Proofs.Tree.Relabel

/-!
# Conditions on every node

A condition on a label and the labels right below it may hold throughout a tree. It does
when it holds at the root and throughout each of the children.
-/

namespace GrammarTable.Tree

variable {α β : Type} {p q : α → List α → Prop}

mutual

/-- At every node the condition holds of its label and of those of its children. -/
def Throughout (p : α → List α → Prop) : Tree α → Prop
  | ⟨label, children⟩ => p label (children.map Tree.label) ∧ ForestThroughout p children

def ForestThroughout (p : α → List α → Prop) : List (Tree α) → Prop
  | [] => True
  | tree :: rest => Throughout p tree ∧ ForestThroughout p rest

end

mutual

instance decidableThroughout (p : α → List α → Prop) [∀ label below, Decidable (p label below)] :
    (tree : Tree α) → Decidable (Throughout p tree)
  | ⟨label, children⟩ =>
      have := decidableForestThroughout p children
      decidable_of_iff (p label (children.map Tree.label) ∧ ForestThroughout p children)
        (by rw [Throughout])

instance decidableForestThroughout (p : α → List α → Prop)
    [∀ label below, Decidable (p label below)] :
    (forest : List (Tree α)) → Decidable (ForestThroughout p forest)
  | [] => isTrue trivial
  | tree :: rest =>
      have := decidableThroughout p tree
      have := decidableForestThroughout p rest
      decidable_of_iff (Throughout p tree ∧ ForestThroughout p rest) (by rw [ForestThroughout])

end

theorem forestThroughout_iff {forest : List (Tree α)} :
    ForestThroughout p forest ↔ ∀ tree ∈ forest, Throughout p tree := by
  induction forest with
  | nil => simp [ForestThroughout]
  | cons tree rest ih => simp [ForestThroughout, ih]

theorem throughout_mk {label : α} {children : List (Tree α)} :
    Throughout p ⟨label, children⟩ ↔
      p label (children.map Tree.label) ∧ ∀ child ∈ children, Throughout p child := by
  rw [Throughout, forestThroughout_iff]

/-- What the new labels make true at every node holds throughout the relabelled tree. -/
theorem throughout_map {f : β → α} (h : ∀ label below, p (f label) below) (tree : Tree β) :
    (map f tree).Throughout p := by
  induction tree using child_induction with
  | mk label children ih =>
      rw [map_mk, throughout_mk]
      exact ⟨h label _, List.forall_mem_map.mpr ih⟩

end GrammarTable.Tree
