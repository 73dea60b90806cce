import GrammarTable.Tree.Basic

/-!
# Flat form of trees

Trees as a list of their labels in pre-order, each with its level, and trees from such a
list.
-/

namespace GrammarTable.Tree

variable {α : Type}

def outlineOnto (listed : List (Nat × α)) : List (Nat × Tree α) → List (Nat × α)
  | [] => listed.reverse
  | (level, tree) :: pending =>
      outlineOnto ((level, tree.label) :: listed)
        (atLevel (level + 1) tree.children ++ pending)
termination_by pending => forestSize (pending.map Prod.snd)
decreasing_by
  simp only [List.map_append, map_snd_atLevel, forestSize_append, List.map_cons,
    forestSize, size_eq]
  omega

/-- Trees written flat: each label in pre-order with its level, roots at zero. -/
def outline (forest : List (Tree α)) : List (Nat × α) :=
  outlineOnto [] (atLevel 0 forest)

/-- Put a label in front of later trees: those that stand deeper become its children. -/
def graft (row : Nat × α) (later : List (Nat × Tree α)) : List (Nat × Tree α) :=
  let below := later.takeWhile fun tree => row.1 < tree.1
  (row.1, ⟨row.2, below.map Prod.snd⟩) :: later.drop below.length

def ofOutline (rows : List (Nat × α)) : List (Tree α) :=
  (rows.foldr graft []).map Prod.snd

end GrammarTable.Tree
