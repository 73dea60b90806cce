import GrammarTable.Rule.Draft
import GrammarTable.Table.Layout

/-!
# Listings

The layout of a list of nodes as an array of objects. Nodes may be nested to any depth:
the listing keeps a list of the arrays that are open, innermost first, each with the nodes
that are still to come in it.
-/

namespace GrammarTable.Table

open Rule

def openNode (node : Node) : List Item :=
  [.text "\x7b", .line, .indent,
    .quoted "name", .text ": ", .quoted node.label.name, .text ",", .line,
    .quoted "type", .text ": ", .quoted node.label.kind.word, .text ",", .line,
    .quoted "children", .text ": "]

/-- The end of an object behind its children, in front of the nodes that follow it. -/
def closeNode (later : List Node) : List Item :=
  [.line, .dedent, .text "\x7d"] ++ (if later.isEmpty then [] else [.text ","]) ++ [.line]

def openArray : List Item :=
  [.text "[", .line, .indent]

def closeArray : List Item :=
  [.dedent, .text "]"]

/-- List the open arrays to their ends, after the items listed so far (latest first). -/
def listOnto (listed : List Item) : List (List Node) → List Item
  | [] => listed.reverse
  | [] :: [] => (closeArray.reverse ++ listed).reverse
  | [] :: later :: around =>
      listOnto ((closeNode later).reverse ++ (closeArray.reverse ++ listed))
        (later :: around)
  | (node :: later) :: around =>
      match node with
      | ⟨label, []⟩ =>
          listOnto
            ((closeNode later).reverse ++
              (.text "[]" :: ((openNode ⟨label, []⟩).reverse ++ listed)))
            (later :: around)
      | ⟨label, first :: rest⟩ =>
          listOnto
            (openArray.reverse ++ ((openNode ⟨label, first :: rest⟩).reverse ++ listed))
            ((first :: rest) :: later :: around)
termination_by arrays => 2 * Tree.forestsSize arrays + arrays.length
decreasing_by
  all_goals
    simp only [Tree.forestsSize, List.length_cons, Tree.forestSize, Tree.size_eq]
    omega

def listing : List Node → List Item
  | [] => [.text "[]"]
  | nodes => openArray ++ listOnto [] [nodes]

end GrammarTable.Table
