import GrammarTable.Tree.Basic

/-!
# Trees within trees

A tree is within another one when it is that tree or within one of its children. What a tree
says about the children of a node is said of all trees within it.
-/

namespace GrammarTable.Tree

variable {α : Type}

/-- The first tree is the second one, or stands somewhere below its root. -/
inductive Within (inner : Tree α) : Tree α → Prop where
  | root : Within inner inner
  | child {label : α} {children : List (Tree α)} {child : Tree α} (hchild : child ∈ children)
      (hinner : Within inner child) : Within inner ⟨label, children⟩

/-- What holds of a tree, and of all within its children, holds of all within the tree. -/
theorem forall_within_mk {p : Tree α → Prop} {label : α} {children : List (Tree α)} :
    (∀ inner, inner.Within ⟨label, children⟩ → p inner) ↔
      p ⟨label, children⟩ ∧ ∀ child ∈ children, ∀ inner, inner.Within child → p inner := by
  constructor
  · intro h
    exact ⟨h _ .root, fun child hchild inner hinner => h inner (.child hchild hinner)⟩
  · rintro ⟨hroot, hchildren⟩ inner hinner
    cases hinner with
    | root => exact hroot
    | child hchild hinner => exact hchildren _ hchild inner hinner

mutual

def subtrees : Tree α → List (Tree α)
  | ⟨label, children⟩ => ⟨label, children⟩ :: forestSubtrees children

def forestSubtrees : List (Tree α) → List (Tree α)
  | [] => []
  | tree :: rest => tree.subtrees ++ forestSubtrees rest

end

end GrammarTable.Tree
