import GrammarTable.Proofs.Tree.Forest
import GrammarTable.Tree.Map

/-!
# Relabelling, node by node

The walk that relabels a tree goes through open frames. Together they always stand for one
tree, the one that comes out: what is done in a frame, then the images of what is pending,
and that as one more child done of the frame around it. So the walk is the recursion on the
tree.
-/

namespace GrammarTable.Tree

variable {α β γ : Type}

/-! ## The recursion -/

mutual

/-- The same tree with each label replaced, by recursion on the tree. -/
def relabel (f : α → β) : Tree α → Tree β
  | ⟨label, children⟩ => ⟨f label, relabelEach f children⟩

def relabelEach (f : α → β) : List (Tree α) → List (Tree β)
  | [] => []
  | tree :: rest => relabel f tree :: relabelEach f rest

end

theorem relabelEach_eq_map (f : α → β) (forest : List (Tree α)) :
    relabelEach f forest = forest.map (relabel f) := by
  induction forest with
  | nil => rfl
  | cons tree rest ih => rw [relabelEach, ih, List.map_cons]

theorem relabel_mk (f : α → β) (label : α) (children : List (Tree α)) :
    relabel f ⟨label, children⟩ = ⟨f label, children.map (relabel f)⟩ := by
  rw [relabel, relabelEach_eq_map]

/-! ## The walk -/

def Frame.image (f : α → β) (frame : Frame α β) : Tree β :=
  ⟨frame.label, frame.done.reverse ++ frame.pending.map (relabel f)⟩

/-- The tree that a frame and the frames around it stand for, innermost first. -/
def Frame.outcome (f : α → β) : Frame α β → List (Frame α β) → Tree β
  | frame, [] => frame.image f
  | frame, outer :: around =>
      Frame.outcome f { outer with done := frame.image f :: outer.done } around

/-- The first pending child may as well be done. -/
theorem Frame.outcome_done (f : α → β) (label : β) (tree : Tree α) (pending : List (Tree α))
    (done : List (Tree β)) (around : List (Frame α β)) :
    Frame.outcome f ⟨label, tree :: pending, done⟩ around =
      Frame.outcome f ⟨label, pending, relabel f tree :: done⟩ around := by
  have himage : Frame.image f ⟨label, tree :: pending, done⟩ =
      Frame.image f ⟨label, pending, relabel f tree :: done⟩ := by
    simp [Frame.image]
  cases around with
  | nil => exact himage
  | cons outer around => rw [Frame.outcome, Frame.outcome, himage]

/-- A new frame stands for the image of its tree. -/
theorem Frame.image_open (f : α → β) (tree : Tree α) :
    Frame.image f ⟨f tree.label, tree.children, []⟩ = relabel f tree := by
  obtain ⟨label, children⟩ := tree
  rw [relabel_mk]
  rfl

/-- A frame without pending children stands for what it is closed to. -/
theorem Frame.image_close (f : α → β) (label : β) (done : List (Tree β)) :
    Frame.image f (⟨label, [], done⟩ : Frame α β) =
      Frame.close ⟨label, ([] : List (Tree α)), done⟩ := by
  rw [Frame.image, Frame.close, List.map_nil, List.append_nil]

/-- Each step of the walk keeps what the frames stand for, so that is what comes out. -/
theorem Frame.finish_eq_outcome (f : α → β) (frame : Frame α β) (around : List (Frame α β)) :
    Frame.finish f frame around = Frame.outcome f frame around := by
  fun_induction Frame.finish f frame around with
  | case1 around label tree pending done ih =>
      rw [ih, Frame.outcome, Frame.image_open, Frame.outcome_done]
  | case2 label done => rw [Frame.outcome, Frame.image_close]
  | case3 label done outer pending before around ih =>
      rw [ih, Frame.outcome, Frame.image_close]

theorem map_eq_relabel (f : α → β) (tree : Tree α) : map f tree = relabel f tree := by
  rw [map, Frame.finish_eq_outcome, Frame.outcome, Frame.image_open]

@[simp] theorem map_mk (f : α → β) (label : α) (children : List (Tree α)) :
    map f ⟨label, children⟩ = ⟨f label, children.map (map f)⟩ := by
  have hmap : map f = relabel f := funext (map_eq_relabel f)
  rw [hmap, relabel_mk]

@[simp] theorem label_map (f : α → β) (tree : Tree α) : (map f tree).label = f tree.label := by
  obtain ⟨label, children⟩ := tree
  rw [map_mk]

@[simp] theorem children_map (f : α → β) (tree : Tree α) :
    (map f tree).children = tree.children.map (map f) := by
  obtain ⟨label, children⟩ := tree
  rw [map_mk]

theorem map_map_forest (f : α → β) (g : β → γ) (forest : List (Tree α)) :
    (forest.map (map f)).map (map g) = forest.map (map (g ∘ f)) := by
  induction forest using forest_induction with
  | nil => rfl
  | cons label children rest ihChildren ihRest =>
      rw [List.map_cons, List.map_cons, List.map_cons, ihRest, map_mk, map_mk, map_mk,
        ihChildren]
      rfl

theorem map_map (f : α → β) (g : β → γ) (tree : Tree α) :
    map g (map f tree) = map (g ∘ f) tree := by
  have hforest := map_map_forest f g [tree]
  exact (List.cons.inj hforest).1

/-! ## Trees of one shape -/

mutual

/-- The trees have one shape, and the labels at each place of it are related. -/
def Related (r : α → β → Prop) : Tree α → Tree β → Prop
  | ⟨label, children⟩, ⟨other, others⟩ => r label other ∧ RelatedEach r children others

/-- The trees are as many on both sides, and those at each place are related. -/
def RelatedEach (r : α → β → Prop) : List (Tree α) → List (Tree β) → Prop
  | [], [] => True
  | tree :: rest, other :: others => Related r tree other ∧ RelatedEach r rest others
  | _, _ => False

end

theorem relatedEach_iff (f : α → γ) (g : β → γ) (forest : List (Tree α)) (others : List (Tree β)) :
    RelatedEach (fun label other => f label = g other) forest others ↔
      forest.map (relabel f) = others.map (relabel g) := by
  induction forest using forest_induction generalizing others with
  | nil => cases others <;> simp [RelatedEach]
  | cons label children rest ihChildren ihRest =>
      cases others with
      | nil => simp [RelatedEach]
      | cons other others =>
          obtain ⟨other, below⟩ := other
          simp [RelatedEach, Related, relabel_mk, ihChildren, ihRest]

/-- Trees of one shape with the same images of labels are those with the same image. -/
theorem related_iff (f : α → γ) (g : β → γ) (tree : Tree α) (other : Tree β) :
    Related (fun label other => f label = g other) tree other ↔
      relabel f tree = relabel g other := by
  have heach := relatedEach_iff f g [tree] [other]
  simpa [RelatedEach] using heach

/-! ## Sizes and heights -/

section Measures

variable {f : Tree α → Tree β} {forest : List (Tree α)}

theorem forestSize_map (h : ∀ tree ∈ forest, (f tree).size = tree.size) :
    forestSize (forest.map f) = forestSize forest := by
  induction forest with
  | nil => rfl
  | cons tree rest ih =>
      have ⟨htree, hrest⟩ := List.forall_mem_cons.mp h
      rw [List.map_cons, forestSize, forestSize, htree, ih hrest]

theorem forestHeight_map (h : ∀ tree ∈ forest, (f tree).height = tree.height) :
    forestHeight (forest.map f) = forestHeight forest := by
  induction forest with
  | nil => rfl
  | cons tree rest ih =>
      have ⟨htree, hrest⟩ := List.forall_mem_cons.mp h
      rw [List.map_cons, forestHeight, forestHeight, htree, ih hrest]

end Measures

theorem size_map (f : α → β) (tree : Tree α) : (map f tree).size = tree.size := by
  induction tree using child_induction with
  | mk label children ih => rw [map_mk, size, size, forestSize_map ih]

theorem height_map (f : α → β) (tree : Tree α) : (map f tree).height = tree.height := by
  induction tree using child_induction with
  | mk label children ih => rw [map_mk, height, height, forestHeight_map ih]

end GrammarTable.Tree
