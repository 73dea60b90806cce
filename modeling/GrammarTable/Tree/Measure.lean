import GrammarTable.Tree.Basic

/-!
# Measures of trees

The number of nodes and the number of levels of trees of any depth. Both walk with a stack
of pending subtrees, its top in front, and do not recurse once per level. The children of a
tree go onto the stack in order, so the last of them is taken first, with all that is below
it, and the first of them last. What the walks find are the size and the height.
-/

namespace GrammarTable.Tree

variable {α : Type}

def countOnto (counted : Nat) : List (Tree α) → Nat
  | [] => counted
  | tree :: pending => countOnto (counted + 1) (tree.children.reverseAux pending)
termination_by pending => forestSize pending
decreasing_by
  rw [List.reverseAux_eq, forestSize_append, forestSize_reverse, forestSize, size_eq]
  omega

/-- The number of nodes, counted with a stack of pending trees. -/
def count (tree : Tree α) : Nat :=
  countOnto 0 [tree]

/-- At each step of the walk the nodes counted and those of the pending trees are all nodes. -/
theorem countOnto_eq (counted : Nat) (pending : List (Tree α)) :
    countOnto counted pending = counted + forestSize pending := by
  fun_induction countOnto counted pending with
  | case1 counted => simp [forestSize]
  | case2 counted tree pending ih =>
    rw [ih, List.reverseAux_eq, forestSize_append, forestSize_reverse, forestSize, size_eq]
    omega

theorem count_eq_size (tree : Tree α) : tree.count = tree.size := by
  simp [count, countOnto_eq, forestSize]

/-- The greater of a number and the deepest level reached in the pending trees, each of
which stands at a level of its own. -/
def depthOnto (deepest : Nat) : List (Nat × Tree α) → Nat
  | [] => deepest
  | (level, tree) :: pending =>
      depthOnto (max deepest level) ((atLevel (level + 1) tree.children).reverseAux pending)
termination_by pending => forestSize (pending.map Prod.snd)
decreasing_by
  simp only [List.reverseAux_eq, reverse_atLevel, List.map_append, map_snd_atLevel,
    forestSize_append, forestSize_reverse, List.map_cons, forestSize, size_eq]
  omega

/-- The number of levels, found with a stack of pending trees. -/
def depth (tree : Tree α) : Nat :=
  depthOnto 0 [(1, tree)]

def reach : List (Nat × Tree α) → Nat
  | [] => 0
  | (level, tree) :: rest => max (level + tree.height - 1) (reach rest)

theorem one_le_height (tree : Tree α) : 1 ≤ tree.height := by
  rw [height_eq]
  omega

theorem reach_append (front back : List (Nat × Tree α)) :
    reach (front ++ back) = max (reach front) (reach back) := by
  induction front with
  | nil => simp [reach]
  | cons tree rest ih => simp [reach, ih, Nat.max_assoc]

theorem reach_atLevel (level : Nat) (forest : List (Tree α)) :
    max level (reach (atLevel (level + 1) forest)) = level + forestHeight forest := by
  induction forest with
  | nil => simp [atLevel, reach, forestHeight]
  | cons tree rest ih =>
      have h := one_le_height tree
      simp only [atLevel, List.map_cons, reach, forestHeight] at *
      omega

/-- At each step of the walk the deepest level is one that was met or one that the pending
trees reach from where they stand. -/
theorem depthOnto_eq (deepest : Nat) (pending : List (Nat × Tree α)) :
    depthOnto deepest pending = max deepest (reach pending) := by
  fun_induction depthOnto deepest pending with
  | case1 deepest => simp [reach]
  | case2 deepest level tree pending ih =>
      have hbelow := reach_atLevel level tree.children.reverse
      have hchildren := forestHeight_reverse tree.children
      have hheight := height_eq tree
      rw [ih, List.reverseAux_eq, reverse_atLevel, reach_append, reach]
      omega

theorem depth_eq_height (tree : Tree α) : tree.depth = tree.height := by
  have h := one_le_height tree
  simp only [depth, depthOnto_eq, reach]
  omega

end GrammarTable.Tree
