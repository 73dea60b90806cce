import GrammarTable.Tree.Basic

/-!
# Induction on forests

A fact about lists of trees is proved by one induction that goes through the children of
the first tree and through the trees behind it.
-/

namespace GrammarTable.Tree

variable {α : Type}

/-- What holds of no trees, and of trees with one more in front whenever it holds of them
and of the children of that one, holds of all lists of trees. -/
@[elab_as_elim]
theorem forest_induction {motive : List (Tree α) → Prop} (nil : motive [])
    (cons : ∀ label children rest, motive children → motive rest →
      motive (⟨label, children⟩ :: rest)) :
    ∀ forest, motive forest
  | [] => nil
  | ⟨label, children⟩ :: rest =>
      cons label children rest (forest_induction nil cons children)
        (forest_induction nil cons rest)

/-- What holds of a tree whenever it holds of all its children holds of all trees. -/
@[elab_as_elim]
theorem child_induction {motive : Tree α → Prop}
    (mk : ∀ label children, (∀ child ∈ children, motive child) → motive ⟨label, children⟩)
    (tree : Tree α) : motive tree := by
  have hforest : ∀ forest : List (Tree α), ∀ child ∈ forest, motive child := by
    intro forest
    induction forest using forest_induction with
    | nil => exact List.forall_mem_nil _
    | cons label children rest ihChildren ihRest =>
        exact List.forall_mem_cons.mpr ⟨mk label children ihChildren, ihRest⟩
  exact hforest [tree] tree (List.mem_singleton_self tree)

end GrammarTable.Tree
