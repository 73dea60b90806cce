import GrammarTable.Proofs.Table.Parts
import GrammarTable.Proofs.Tree.Within

/-!
# Indentation of listings

In a listing every step of indentation is taken back, and none before it has been added. So
the level that printing keeps is the number of steps that are open, although it stops at
zero. The lines of what is printed can be counted node by node.
-/

namespace GrammarTable.Table

open Rule

/-! ## Changes of indentation -/

/-- What an item adds to the indentation. -/
def Item.shift : Item → Int
  | .text _ => 0
  | .quoted _ => 0
  | .line => 0
  | .indent => 1
  | .dedent => -1

def shift : List Item → Int
  | [] => 0
  | item :: rest => item.shift + shift rest

/-- Nothing is taken back that has not been added, and all is in the end. -/
structure Balanced (items : List Item) : Prop where
  nonneg : ∀ front back, items = front ++ back → 0 ≤ shift front
  settled : shift items = 0

@[simp] theorem shift_nil : shift [] = 0 := rfl

@[simp] theorem shift_cons (item : Item) (items : List Item) :
    shift (item :: items) = item.shift + shift items := rfl

@[simp] theorem shift_append (front back : List Item) :
    shift (front ++ back) = shift front + shift back := by
  induction front with
  | nil => simp
  | cons item rest ih => rw [List.cons_append, shift_cons, ih, shift_cons, Int.add_assoc]

namespace Balanced

variable {items others : List Item}

theorem nil : Balanced [] where
  nonneg front back h := by
    obtain ⟨rfl, -⟩ := List.append_eq_nil_iff.mp h.symm
    exact Int.le_refl 0
  settled := rfl

theorem append (hitems : Balanced items) (hothers : Balanced others) :
    Balanced (items ++ others) where
  nonneg front back h := by
    rcases List.append_eq_append_iff.mp h with ⟨later, rfl, hlater⟩ | ⟨later, hearlier, -⟩
    · rw [shift_append, hitems.settled, Int.zero_add]
      exact hothers.nonneg later back hlater
    · exact hitems.nonneg front later hearlier
  settled := by
    rw [shift_append, hitems.settled, hothers.settled]
    rfl

/-- An item that changes nothing may stand in front. -/
theorem cons {item : Item} (hitem : item.shift = 0) (hitems : Balanced items) :
    Balanced (item :: items) where
  nonneg front back h := by
    rcases List.cons_eq_append_iff.mp h with ⟨rfl, -⟩ | ⟨later, rfl, hlater⟩
    · exact Int.le_refl 0
    · rw [shift_cons, hitem, Int.zero_add]
      exact hitems.nonneg later back hlater
  settled := by
    rw [shift_cons, hitem, hitems.settled]
    rfl

/-- Balanced items may stand one step further in. -/
theorem indented (hitems : Balanced items) : Balanced (.indent :: (items ++ [.dedent])) where
  nonneg front back h := by
    rcases List.cons_eq_append_iff.mp h with ⟨rfl, -⟩ | ⟨inside, rfl, hinside⟩
    · exact Int.le_refl 0
    have hopen : 0 ≤ shift inside + 1 := by
      rcases List.append_eq_append_iff.mp hinside with ⟨later, rfl, hlater⟩ | ⟨later, hearlier, -⟩
      · rcases List.cons_eq_append_iff.mp hlater with ⟨rfl, -⟩ | ⟨behind, rfl, hbehind⟩
        · simp [hitems.settled]
        · obtain ⟨rfl, -⟩ := List.append_eq_nil_iff.mp hbehind.symm
          simp [Item.shift, hitems.settled]
      · have hnonneg := hitems.nonneg inside later hearlier
        omega
    rw [shift_cons, Item.shift]
    omega
  settled := by
    simp [Item.shift, hitems.settled]

end Balanced

/-! ## Balanced listings -/

theorem balanced_closeNode_tail (later : List Node) :
    Balanced (.text "\x7d" :: ((if later.isEmpty then [] else [.text ","]) ++ [.line])) := by
  refine .cons rfl ?_
  split
  · exact .cons rfl .nil
  · exact .cons rfl (.cons rfl .nil)

/-- An object is balanced around what its children are listed as. -/
theorem balanced_node {items : List Item} (h : Balanced items) (node : Node) (later : List Node) :
    Balanced (openNode node ++ (items ++ closeNode later)) := by
  have hfields : Balanced [.quoted "name", .text ": ", .quoted node.label.name, .text ",", .line,
      .quoted "type", .text ": ", .quoted node.label.kind.word, .text ",", .line,
      .quoted "children", .text ": "] := by
    iterate 12
      refine .cons rfl ?_
    exact .nil
  have hline : Balanced [.line] := .cons rfl .nil
  have hinside := ((hfields.append h).append hline).indented
  have hobject : Balanced (.text "\x7b" :: .line :: _) :=
    .cons rfl (.cons rfl (hinside.append (balanced_closeNode_tail later)))
  simpa only [openNode, closeNode, List.cons_append, List.nil_append, List.append_assoc]
    using hobject

theorem balanced_arrayItems_of_elements {nodes : List Node} (h : Balanced (elementItems nodes)) :
    Balanced (arrayItems nodes) := by
  unfold arrayItems
  split
  · exact .cons rfl .nil
  · have hclosing : Balanced [.text "]"] := .cons rfl .nil
    have harray : Balanced (.text "[" :: .line :: _) :=
      .cons rfl (.cons rfl (h.indented.append hclosing))
    simpa only [openArray, closeArray, List.cons_append, List.nil_append, List.append_assoc]
      using harray

theorem balanced_elementItems (nodes : List Node) : Balanced (elementItems nodes) := by
  induction nodes using Tree.forest_induction with
  | nil => exact .nil
  | cons label children rest ihChildren ihRest =>
      have hnode := balanced_node (balanced_arrayItems_of_elements ihChildren) ⟨label, children⟩ rest
      simpa only [elementItems, nodeItems_eq, List.append_assoc] using hnode.append ihRest

theorem balanced_listing (nodes : List Node) : Balanced (listing nodes) := by
  rw [listing_eq_arrayItems]
  exact balanced_arrayItems_of_elements (balanced_elementItems nodes)

/-! ## The level of printing -/

@[simp] theorem level_push (printed : Printed) (text : String) :
    (printed.push text).level = printed.level := by
  obtain ⟨before, level, atLineStart⟩ := printed
  rw [Printed.push]
  split
  · rfl
  · split <;> rfl

theorem level_item (printed : Printed) (item : Item) (h : 0 ≤ printed.level + item.shift) :
    ((printed.item item).level : Int) = printed.level + item.shift := by
  cases item with
  | text text => simp [Printed.item, Item.shift]
  | quoted text => simp [Printed.item, Item.shift]
  | line => simp [Printed.item, Item.shift]
  | indent => simp [Printed.item, Item.shift]
  | dedent =>
      simp only [Printed.item, Item.shift] at h ⊢
      omega

/-- The level does not stop at zero where nothing is taken back too early. -/
theorem level_foldl {items : List Item} {printed : Printed}
    (h : ∀ front back, items = front ++ back → 0 ≤ printed.level + shift front) :
    ((items.foldl Printed.item printed).level : Int) = printed.level + shift items := by
  induction items generalizing printed with
  | nil => simp
  | cons item rest ih =>
      have hitem : ((printed.item item).level : Int) = printed.level + item.shift := by
        refine level_item printed item ?_
        have hfirst := h [item] rest rfl
        rwa [shift_cons, shift_nil, Int.add_zero] at hfirst
      rw [List.foldl_cons, ih, hitem, shift_cons, Int.add_assoc]
      rintro front back rfl
      have hlater := h (item :: front) back rfl
      rwa [shift_cons, ← Int.add_assoc, ← hitem] at hlater

theorem Balanced.level_eq {items front back : List Item} (h : Balanced items)
    (hsplit : items = front ++ back) (printed : Printed) :
    ((front.foldl Printed.item printed).level : Int) = printed.level + shift front := by
  refine level_foldl fun earlier later hearlier => ?_
  have hnonneg := h.nonneg earlier (later ++ back) (by rw [hsplit, hearlier, List.append_assoc])
  omega

/-! ## The lines of an array -/

/-- How many nodes have no children, of some nodes and all below them. -/
def childless (nodes : List Node) : Nat :=
  (Tree.forestSubtrees nodes).countP fun node => node.children.isEmpty

def parents (nodes : List Node) : Nat :=
  (Tree.forestSubtrees nodes).countP fun node => !node.children.isEmpty

theorem childless_cons (label : Label) (children rest : List Node) :
    childless (⟨label, children⟩ :: rest) =
      (if children.isEmpty then 1 else 0) + childless children + childless rest := by
  simp only [childless, Tree.forestSubtrees, Tree.subtrees, List.countP_append, List.countP_cons]
  omega

theorem parents_cons (label : Label) (children rest : List Node) :
    parents (⟨label, children⟩ :: rest) =
      (if children.isEmpty then 0 else 1) + parents children + parents rest := by
  simp only [parents, Tree.forestSubtrees, Tree.subtrees, List.countP_append, List.countP_cons]
  cases children with
  | nil => simp
  | cons first later =>
      simp
      omega

@[simp] theorem count_margin (level : Nat) : (margin level).count '\n' = 0 := by
  rw [List.count_eq_zero]
  intro h
  exact absurd (List.eq_of_mem_replicate h) (by decide)

@[simp] theorem count_quoteChars (cs : List Char) : (quoteChars cs).count '\n' = 0 := by
  rw [List.count_eq_zero]
  intro h
  exact absurd (quiet_of_mem_quoteChars h) (by decide)

theorem count_openText (level : Nat) (label : Label) : (openText level label).count '\n' = 3 := by
  simp only [openText, List.count_append, count_margin, count_quoteChars]
  decide

/-- An array that is not empty has one line more than its elements. -/
theorem count_arrayText_of_elements {nodes : List Node} {level lines : Nat}
    (h : (elementsText (level + 1) nodes).count '\n' = lines) :
    (arrayText level nodes).count '\n' = if nodes.isEmpty then 0 else 1 + lines := by
  unfold arrayText
  split
  · decide
  · simp only [List.count_append, h, count_margin]
    simp

theorem count_elementsText (nodes : List Node) (level : Nat) :
    (elementsText level nodes).count '\n' = 5 * childless nodes + 6 * parents nodes := by
  induction nodes using Tree.forest_induction generalizing level with
  | nil => rfl
  | cons label children rest ihChildren ihRest =>
      have harray := count_arrayText_of_elements (ihChildren (level + 1 + 1))
      have hend : (if rest.isEmpty then "\n".toList else ",\n".toList).count '\n' = 1 := by
        split <;> decide
      have hline : "\n".toList.count '\n' = 1 := by decide
      have hbrace : "\x7d".toList.count '\n' = 0 := by decide
      -- Besides its children a node has five lines, and one more if it has any.
      simp only [elementsText, nodeText_eq, List.count_append, count_openText, harray, hend, hline,
        hbrace, count_margin, ihRest, childless_cons, parents_cons]
      cases children with
      | nil =>
          simp only [List.isEmpty_nil, if_true, childless, parents, Tree.forestSubtrees,
            List.countP_nil]
          omega
      | cons first later =>
          simp only [List.isEmpty_cons, Bool.false_eq_true, if_false]
          omega

theorem count_arrayText (level : Nat) (nodes : List Node) :
    (arrayText level nodes).count '\n' =
      if nodes.isEmpty then 0 else 1 + 5 * childless nodes + 6 * parents nodes := by
  rw [count_arrayText_of_elements (count_elementsText nodes (level + 1)), Nat.add_assoc]

/-- The listing of nodes is printed as their array, with the margin that it is begun with. On
the way the level is the number of steps that are open, and the lines are those of the nodes
and of the arrays that are not empty. -/
theorem listing_rendered (nodes : List Node) :
    (∀ level fresh, Prints (listing nodes) level fresh
      (lead level fresh ++ arrayText level nodes) level false) ∧
    print (listing nodes) = String.ofList (arrayText 0 nodes) ∧
    Balanced (listing nodes) ∧
    (∀ passed, ((((listing nodes).take passed).foldl Printed.item {}).level : Int) =
      shift ((listing nodes).take passed)) ∧
    (print (listing nodes)).toList.count '\n' =
      if nodes.isEmpty then 0 else 1 + 5 * childless nodes + 6 * parents nodes := by
  refine ⟨prints_listing nodes, print_listing nodes, balanced_listing nodes, ?_, ?_⟩
  · intro passed
    have hsplit := (List.take_append_drop passed (listing nodes)).symm
    rw [(balanced_listing nodes).level_eq hsplit {}]
    exact Int.zero_add _
  · rw [print_listing, String.toList_ofList, count_arrayText]

/-- A rule of two literals. -/
example : print (listing [⟨⟨.rule, "rule"⟩, [⟨⟨.terminal, "a"⟩, []⟩, ⟨⟨.terminal, "b"⟩, []⟩]⟩]) =
    "[\n  \x7b\n    \"name\": \"rule\",\n    \"type\": \"rule\",\n    \"children\": [\n" ++
    "      \x7b\n        \"name\": \"a\",\n        \"type\": \"terminal\",\n" ++
    "        \"children\": []\n      \x7d,\n" ++
    "      \x7b\n        \"name\": \"b\",\n        \"type\": \"terminal\",\n" ++
    "        \"children\": []\n      \x7d\n    ]\n  \x7d\n]" := by
  decide +kernel

end GrammarTable.Table
