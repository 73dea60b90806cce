import GrammarTable.Proofs.Tree.Forest
import GrammarTable.Table.Listing

/-!
# Printed arrays

What printing the listing of nodes writes, by recursion on the nodes. The listing keeps a
list of the arrays that are open and printing keeps a level and the state of a line; both
are shown to follow the nodes.
-/

namespace GrammarTable.Table

open Rule

/-! ## The listing by recursion -/

mutual

/-- The items of a node up to the end of its children. -/
def nodeItems : Node → List Item
  | ⟨label, children⟩ =>
      openNode ⟨label, children⟩ ++
        (if children.isEmpty then [.text "[]"]
          else openArray ++ (elementItems children ++ closeArray))

def elementItems : List Node → List Item
  | [] => []
  | node :: rest => nodeItems node ++ (closeNode rest ++ elementItems rest)

end

def arrayItems (nodes : List Node) : List Item :=
  if nodes.isEmpty then [.text "[]"] else openArray ++ (elementItems nodes ++ closeArray)

theorem nodeItems_eq (label : Label) (children : List Node) :
    nodeItems ⟨label, children⟩ = openNode ⟨label, children⟩ ++ arrayItems children := by
  rw [nodeItems, arrayItems]

/-- The items that remain for the arrays that are open, innermost first. -/
def openItems : List (List Node) → List Item
  | [] => []
  | [nodes] => elementItems nodes ++ closeArray
  | nodes :: later :: around =>
      elementItems nodes ++ (closeArray ++ (closeNode later ++ openItems (later :: around)))

theorem openItems_cons (node : Node) (later : List Node) (around : List (List Node)) :
    openItems ((node :: later) :: around) =
      nodeItems node ++ (closeNode later ++ openItems (later :: around)) := by
  cases around <;> simp [openItems, elementItems]

theorem listOnto_eq (listed : List Item) (arrays : List (List Node)) :
    listOnto listed arrays = listed.reverse ++ openItems arrays := by
  fun_induction listOnto listed arrays with
  | case1 listed => simp [openItems]
  | case2 listed => simp [openItems, elementItems]
  | case3 listed later around ih =>
      rw [ih]
      simp [openItems, elementItems]
  | case4 listed later around label ih =>
      rw [ih, openItems_cons ⟨label, []⟩]
      simp [nodeItems_eq, arrayItems]
  | case5 listed later around label first rest ih =>
      rw [ih, openItems_cons ⟨label, first :: rest⟩]
      simp [nodeItems_eq, arrayItems, openItems]

theorem listing_eq_arrayItems (nodes : List Node) : listing nodes = arrayItems nodes := by
  cases nodes with
  | nil => rfl
  | cons first rest => simp [listing, arrayItems, listOnto_eq, openItems]

/-! ## The text of an array by recursion -/

def margin (level : Nat) : List Char :=
  List.replicate (2 * level) ' '

def openText (level : Nat) (label : Label) : List Char :=
  margin level ++ "\x7b\n".toList ++
    margin (level + 1) ++ "\"name\": ".toList ++ quoteChars label.name.toList ++
      ",\n".toList ++
    margin (level + 1) ++ "\"type\": ".toList ++ quoteChars label.kind.word.toList ++
      ",\n".toList ++
    margin (level + 1) ++ "\"children\": ".toList

mutual

def nodeText (level : Nat) : Node → List Char
  | ⟨label, children⟩ =>
      openText level label ++
        (if children.isEmpty then "[]".toList
          else "[\n".toList ++ elementsText (level + 2) children ++ margin (level + 1) ++
            "]".toList) ++
        "\n".toList ++ margin level ++ "\x7d".toList

def elementsText (level : Nat) : List Node → List Char
  | [] => []
  | node :: rest =>
      nodeText level node ++ (if rest.isEmpty then "\n".toList else ",\n".toList) ++
        elementsText level rest

end

def arrayText (level : Nat) (nodes : List Node) : List Char :=
  if nodes.isEmpty then "[]".toList
  else "[\n".toList ++ elementsText (level + 1) nodes ++ margin level ++ "]".toList

theorem nodeText_eq (level : Nat) (label : Label) (children : List Node) :
    nodeText level ⟨label, children⟩ =
      openText level label ++ arrayText (level + 1) children ++ "\n".toList ++
        margin level ++ "\x7d".toList := by
  rw [nodeText, arrayText]

/-! ## Printing parts of a layout -/

/-- What stands in front of a text: the margin where its line is still empty. -/
def lead (level : Nat) (fresh : Bool) : List Char :=
  if fresh then margin level else []

/-- Wherever lines are indented by one level and the line at hand is empty or not, the items
print a text and leave another level and another state of the line. -/
def Prints (items : List Item) (level : Nat) (fresh : Bool) (text : List Char)
    (level' : Nat) (fresh' : Bool) : Prop :=
  ∀ before : String, items.foldl Printed.item ⟨before, level, fresh⟩ =
    ⟨before ++ String.ofList text, level', fresh'⟩

theorem Prints.append {front back : List Item} {l₁ l₂ l₃ : Nat} {f₁ f₂ f₃ : Bool}
    {t₁ t₂ : List Char} (h₁ : Prints front l₁ f₁ t₁ l₂ f₂) (h₂ : Prints back l₂ f₂ t₂ l₃ f₃) :
    Prints (front ++ back) l₁ f₁ (t₁ ++ t₂) l₃ f₃ := by
  intro before
  rw [List.foldl_append, h₁, h₂, String.ofList_append, String.append_assoc]

theorem fold_indentation (level : Nat) (before : String) :
    level.fold (fun _ _ indented => indented ++ indentation) before =
      before ++ String.ofList (margin level) := by
  induction level with
  | zero => simp [margin]
  | succ level ih =>
      have hmargin : margin (level + 1) = margin level ++ [' ', ' '] := by
        simp only [margin, Nat.mul_add, ← List.replicate_append_replicate]
        rfl
      rw [Nat.fold_succ, ih, hmargin, String.ofList_append, String.append_assoc]
      rfl

theorem push_of_ne_empty (before : String) (level : Nat) (fresh : Bool) {text : String}
    (h : text ≠ "") :
    Printed.push ⟨before, level, fresh⟩ text =
      ⟨before ++ String.ofList (lead level fresh ++ text.toList), level, false⟩ := by
  cases fresh <;>
    simp [Printed.push, h, lead, fold_indentation, String.ofList_append, String.append_assoc]

@[simp] theorem toList_quote (text : String) :
    (quote text).toList = quoteChars text.toList := by
  simp [quote]

theorem quote_ne_empty (text : String) : quote text ≠ "" := by
  intro h
  have hlist := congrArg String.toList h
  simp [quoteChars] at hlist

theorem prints_openNode (level : Nat) (node : Node) :
    Prints (openNode node) level true (openText level node.label) (level + 1) false := by
  intro before
  have hname : quoteChars "name".toList = "\"name\"".toList := by decide
  have htype : quoteChars "type".toList = "\"type\"".toList := by decide
  have hchildren : quoteChars "children".toList = "\"children\"".toList := by decide
  simp only [openNode, List.foldl_cons, List.foldl_nil, Printed.item,
    push_of_ne_empty _ _ _ (quote_ne_empty _), push_of_ne_empty, ne_eq, String.reduceEq,
    not_false_eq_true, lead, Printed.mk.injEq, and_true]
  apply String.toList_injective
  simp only [String.toList_append, String.toList_ofList, toList_quote, hname, htype,
    hchildren, openText]
  simp

theorem prints_closeNode (level : Nat) (later : List Node) :
    Prints (closeNode later) (level + 1) false
      ("\n".toList ++ margin level ++ "\x7d".toList ++
        (if later.isEmpty then "\n".toList else ",\n".toList)) level true := by
  intro before
  cases later <;>
    simp [closeNode, Printed.item, push_of_ne_empty, lead, String.ofList_append,
      String.append_assoc]

theorem prints_openArray (level : Nat) (fresh : Bool) :
    Prints openArray level fresh (lead level fresh ++ "[\n".toList) (level + 1) true := by
  intro before
  simp [openArray, Printed.item, push_of_ne_empty, String.ofList_append, String.append_assoc]

theorem prints_closeArray (level : Nat) :
    Prints closeArray (level + 1) true (margin level ++ "]".toList) level false := by
  intro before
  simp [closeArray, Printed.item, push_of_ne_empty, lead]

theorem prints_emptyArray (level : Nat) (fresh : Bool) :
    Prints [.text "[]"] level fresh (lead level fresh ++ "[]".toList) level false := by
  intro before
  simp [Printed.item, push_of_ne_empty]

/-! ## Printing an array -/

/-- An array is printed as its text when its elements are. -/
theorem prints_arrayItems_of_elements {nodes : List Node} {level : Nat} (fresh : Bool)
    (h : Prints (elementItems nodes) (level + 1) true (elementsText (level + 1) nodes)
      (level + 1) true) :
    Prints (arrayItems nodes) level fresh (lead level fresh ++ arrayText level nodes)
      level false := by
  unfold arrayItems arrayText
  split
  · exact prints_emptyArray level fresh
  · have harray := (prints_openArray level fresh).append (h.append (prints_closeArray level))
    simpa only [List.append_assoc] using harray

theorem prints_elementItems (nodes : List Node) (level : Nat) :
    Prints (elementItems nodes) level true (elementsText level nodes) level true := by
  induction nodes using Tree.forest_induction generalizing level with
  | nil =>
      intro before
      simp [elementItems, elementsText]
  | cons label children rest ihChildren ihRest =>
      have hchildren := prints_arrayItems_of_elements false (ihChildren (level + 2))
      have hnode := (prints_openNode level ⟨label, children⟩).append hchildren
      have hall := hnode.append ((prints_closeNode level rest).append (ihRest level))
      simpa only [elementItems, nodeItems_eq, elementsText, nodeText_eq, lead,
        List.append_assoc, List.nil_append, Bool.false_eq_true, if_false] using hall

theorem prints_listing (nodes : List Node) (level : Nat) (fresh : Bool) :
    Prints (listing nodes) level fresh (lead level fresh ++ arrayText level nodes)
      level false := by
  rw [listing_eq_arrayItems]
  exact prints_arrayItems_of_elements fresh (prints_elementItems nodes (level + 1))

/-- The table of the nodes, printed by itself. -/
theorem print_listing (nodes : List Node) :
    print (listing nodes) = String.ofList (arrayText 0 nodes) := by
  rw [print, prints_listing nodes 0 true ""]
  simp [lead, margin]

end GrammarTable.Table
