/-!
# Labelled trees

Trees with a label at each node and ordered children, with their size and height by
recursion on the tree.
-/

namespace GrammarTable

structure Tree (α : Type) where
  label : α
  children : List (Tree α)
  deriving Repr, Inhabited

namespace Tree

variable {α : Type}

mutual

def size : Tree α → Nat
  | ⟨_, children⟩ => 1 + forestSize children

def forestSize : List (Tree α) → Nat
  | [] => 0
  | tree :: rest => tree.size + forestSize rest

end

mutual

/-- The number of nodes on the longest way down. -/
def height : Tree α → Nat
  | ⟨_, children⟩ => 1 + forestHeight children

/-- The greatest height of several trees, zero for none. -/
def forestHeight : List (Tree α) → Nat
  | [] => 0
  | tree :: rest => max tree.height (forestHeight rest)

end

theorem size_eq (tree : Tree α) : tree.size = 1 + forestSize tree.children := by
  cases tree
  simp only [size]

theorem height_eq (tree : Tree α) : tree.height = 1 + forestHeight tree.children := by
  cases tree
  simp only [height]

theorem forestSize_append (front back : List (Tree α)) :
    forestSize (front ++ back) = forestSize front + forestSize back := by
  induction front with
  | nil => simp [forestSize]
  | cons tree rest ih => simp [forestSize, ih, Nat.add_assoc]

theorem forestHeight_append (front back : List (Tree α)) :
    forestHeight (front ++ back) = max (forestHeight front) (forestHeight back) := by
  induction front with
  | nil => simp [forestHeight]
  | cons tree rest ih => simp [forestHeight, ih, Nat.max_assoc]

theorem forestSize_reverse (forest : List (Tree α)) :
    forestSize forest.reverse = forestSize forest := by
  induction forest with
  | nil => rfl
  | cons tree rest ih =>
      rw [List.reverse_cons, forestSize_append, ih]
      simp [forestSize, Nat.add_comm]

theorem forestHeight_reverse (forest : List (Tree α)) :
    forestHeight forest.reverse = forestHeight forest := by
  induction forest with
  | nil => rfl
  | cons tree rest ih =>
      rw [List.reverse_cons, forestHeight_append, ih]
      simp [forestHeight, Nat.max_comm]

def forestsSize : List (List (Tree α)) → Nat
  | [] => 0
  | forest :: rest => forestSize forest + forestsSize rest

def atLevel (level : Nat) (forest : List (Tree α)) : List (Nat × Tree α) :=
  forest.map fun tree => (level, tree)

@[simp] theorem map_snd_atLevel (level : Nat) (forest : List (Tree α)) :
    (atLevel level forest).map Prod.snd = forest := by
  simp [atLevel, Function.comp_def]

theorem reverse_atLevel (level : Nat) (forest : List (Tree α)) :
    (atLevel level forest).reverse = atLevel level forest.reverse :=
  List.map_reverse.symm

end Tree

end GrammarTable
