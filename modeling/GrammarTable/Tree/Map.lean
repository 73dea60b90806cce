import GrammarTable.Tree.Basic

/-!
# Relabelling trees

The same tree with other labels. The walk keeps a list of the nodes that are being
rebuilt, innermost first, and so needs no room that grows with the depth.
-/

namespace GrammarTable.Tree

variable {α β : Type}

/-- A node whose children are being rebuilt: its new label, the children still to do and
those done (latest first). -/
structure Frame (α β : Type) where
  label : β
  pending : List (Tree α)
  done : List (Tree β)

def Frame.close (frame : Frame α β) : Tree β :=
  ⟨frame.label, frame.done.reverse⟩

def Frame.waiting (frame : Frame α β) (around : List (Frame α β)) : Nat :=
  forestsSize (frame.pending :: around.map Frame.pending)

def Frame.finish (f : α → β) : Frame α β → List (Frame α β) → Tree β
  | ⟨label, tree :: pending, done⟩, around =>
      Frame.finish f ⟨f tree.label, tree.children, []⟩ (⟨label, pending, done⟩ :: around)
  | ⟨label, [], done⟩, [] => Frame.close ⟨label, ([] : List (Tree α)), done⟩
  | ⟨label, [], done⟩, ⟨outer, pending, before⟩ :: around =>
      Frame.finish f
        ⟨outer, pending, Frame.close ⟨label, ([] : List (Tree α)), done⟩ :: before⟩ around
termination_by frame around => 2 * frame.waiting around + around.length
decreasing_by
  · simp only [Frame.waiting, List.map_cons, List.length_cons, forestsSize, forestSize,
      size_eq]
    omega
  · simp only [Frame.waiting, List.map_cons, List.length_cons, forestsSize, forestSize]
    omega

/-- The same tree with each label replaced, built with a list of open frames. -/
def map (f : α → β) (tree : Tree α) : Tree β :=
  Frame.finish f ⟨f tree.label, tree.children, []⟩ []

end GrammarTable.Tree
