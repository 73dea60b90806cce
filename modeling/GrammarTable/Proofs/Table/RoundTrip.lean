import Mathlib.Algebra.Group.Nat.Defs
import GrammarTable.Proofs.Json.Reader
import GrammarTable.Proofs.Table.Parts

/-!
# Rule tables as JSON documents

A printed rule table is a JSON document that says the nodes and nothing else, so that they
can be read back from it. It stands in a generated module between the start of the
declaration and the last lines, whatever the module says besides.
-/

namespace GrammarTable.Json

open Rule

/-! ## Nodes in values -/

def Value.member? (name : String) : Value → Option Value
  | .object members => members.lookup name
  | _ => none

theorem sizeOf_lt_of_lookup {name : String} {members : List (String × Value)} {found : Value}
    (h : members.lookup name = some found) : sizeOf found < sizeOf members := by
  induction members with
  | nil => simp at h
  | cons member rest ih =>
      obtain ⟨key, value⟩ := member
      rw [List.lookup_cons] at h
      simp only [List.cons.sizeOf_spec, Prod.mk.sizeOf_spec]
      split at h
      · cases h
        omega
      · have hlt := ih h
        omega

theorem Value.sizeOf_lt_of_member? {name : String} {value found : Value}
    (h : value.member? name = some found) : sizeOf found < sizeOf value := by
  cases value with
  | object members =>
      have hlt := sizeOf_lt_of_lookup h
      simp only [object.sizeOf_spec]
      omega
  | _ => simp [member?] at h

mutual

/-- The node that an object with a name, a type and children stands for. -/
def node? (value : Value) : Option Node :=
  match value.member? "name", value.member? "type", _h : value.member? "children" with
  | some (.text name), some (.text word), some (.array items) =>
      match Kind.ofWord? word, nodes? items with
      | some kind, some children => some ⟨⟨kind, name⟩, children⟩
      | _, _ => none
  | _, _, _ => none
termination_by sizeOf value
decreasing_by
  have hlt := Value.sizeOf_lt_of_member? _h
  simp only [Value.array.sizeOf_spec] at hlt
  omega

def nodes? : List Value → Option (List Node)
  | [] => some []
  | value :: rest =>
      match node? value, nodes? rest with
      | some node, some nodes => some (node :: nodes)
      | _, _ => none
termination_by values => sizeOf values

end

/-- The nodes that an array stands for. -/
def table? : Value → Option (List Node)
  | .array items => nodes? items
  | _ => none

mutual

def ofNode : Node → Value
  | ⟨label, children⟩ =>
      .object [("name", .text label.name), ("type", .text label.kind.word),
        ("children", .array (ofNodes children))]

def ofNodes : List Node → List Value
  | [] => []
  | node :: rest => ofNode node :: ofNodes rest

end

theorem nodes?_ofNodes (nodes : List Node) : nodes? (ofNodes nodes) = some nodes := by
  induction nodes using Tree.forest_induction with
  | nil => rw [ofNodes, nodes?]
  | cons label children rest ihChildren ihRest =>
      have hnode : node? (ofNode ⟨label, children⟩) = some ⟨label, children⟩ := by
        rw [ofNode, node?]
        simp [Value.member?, List.lookup_cons, Kind.ofWord?_word, ihChildren]
      rw [ofNodes, nodes?, hnode, ihRest]

end GrammarTable.Json

namespace GrammarTable.Table

open Calendar Json Rule Settings

/-! ## Quoted texts -/

theorem digit?_hexDigit {n : Nat} (h : n < 16) : digit? (hexDigit n) = some n := by
  have hall : ∀ m < 16, digit? (hexDigit m) = some m := by decide
  exact hall n h

theorem digitsOnto?_append (written : Nat) (front back : List Char) :
    digitsOnto? written (front ++ back) =
      (digitsOnto? written front).bind fun n => digitsOnto? n back := by
  induction front generalizing written with
  | nil => rfl
  | cons c front ih =>
      simp only [List.cons_append, digitsOnto?]
      cases digit? c with
      | none => rfl
      | some n => exact ih (16 * written + n)

theorem length_hexDigits (width n : Nat) : (hexDigits width n).length = width := by
  induction width generalizing n with
  | zero => rfl
  | succ width ih => simp [hexDigits, ih]

theorem digitsOnto?_hexDigits (written width n : Nat) :
    digitsOnto? written (hexDigits width n) = some (16 ^ width * written + n % 16 ^ width) := by
  induction width generalizing n with
  | zero => simp [hexDigits, digitsOnto?, Nat.mod_one]
  | succ width ih =>
      have hdigit := digit?_hexDigit (Nat.mod_lt n (by decide : 0 < 16))
      have hsplit : n % 16 ^ (width + 1) = 16 * (n / 16 % 16 ^ width) + n % 16 := by
        rw [Nat.pow_succ', Nat.mod_mul]
        omega
      rw [hexDigits, digitsOnto?_append, ih, hsplit, Nat.pow_succ]
      simp only [Option.bind_some, digitsOnto?, hdigit, Option.some.injEq]
      rw [Nat.mul_add, Nat.mul_comm (16 ^ width) 16, Nat.mul_assoc, Nat.add_assoc]

theorem unit?_hexDigits {n : Nat} (h : n < 0x10000) : unit? (hexDigits 4 n) = some n := by
  rw [unit?, if_pos (length_hexDigits 4 n), digitsOnto?_hexDigits]
  simpa using Nat.mod_eq_of_lt h

theorem spells_quoteChar (c : Char) : SpellsChar (quoteChar c) c := by
  unfold quoteChar
  -- the characters with an escape letter of their own
  iterate 7
    split
    · subst c
      exact .escape (by decide)
  split
  · rename_i hspecial
    have hsmall : c.toNat < 0xD800 := by
      rcases hspecial with h | rfl | rfl | rfl
      · omega
      · decide
      · decide
      · decide
    have hunit := SpellsChar.unit (unit?_hexDigits (by omega : c.toNat < 0x10000))
      (by simp [isHighHalf]; omega) (by simp [isLowHalf]; omega)
    rwa [Char.ofNat_toNat] at hunit
  · rename_i hquote hback _ _ _ _ _ hspecial
    have hplain : isPlain c = true := by
      simp only [isPlain, Bool.and_eq_true, decide_eq_true_eq, bne_iff_ne, ne_eq]
      exact ⟨⟨by omega, hquote⟩, hback⟩
    exact .plain hplain

theorem spells_flatMap_quoteChar (cs : List Char) : SpellsChars (cs.flatMap quoteChar) cs := by
  induction cs with
  | nil => exact .nil
  | cons c cs ih => exact .cons (spells_quoteChar c) ih

theorem spells_quoteChars (text : String) :
    Spells (quoteChars text.toList) (.text text) := by
  have htext := Spells.text (spells_flatMap_quoteChar text.toList)
  rwa [String.ofList_toList] at htext

/-! ## Arrays -/

theorem blank_append {front back : List Char} (hfront : Blank front) (hback : Blank back) :
    Blank (front ++ back) := by
  intro c hc
  rcases List.mem_append.mp hc with hc | hc
  · exact hfront c hc
  · exact hback c hc

theorem blank_margin (level : Nat) : Blank (margin level) := by
  intro c hc
  obtain rfl := List.eq_of_mem_replicate hc
  rfl

theorem blank_newline : Blank ['\n'] := by
  intro c hc
  obtain rfl := List.mem_singleton.mp hc
  rfl

theorem blank_nil : Blank [] := by
  intro c hc
  cases hc

theorem spellsItems_blank_append {gap cs : List Char} {items : List Value} (hgap : Blank gap)
    (h : SpellsItems cs items) : SpellsItems (gap ++ cs) items := by
  cases h with
  | last hbefore hitem hafter =>
      rw [← List.append_assoc]
      exact .last (blank_append hgap hbefore) hitem hafter
  | more hbefore hitem hafter hback =>
      rw [← List.append_assoc]
      exact .more (blank_append hgap hbefore) hitem hafter hback

theorem spellsItems_append_blank {gap : List Char} (hgap : Blank gap) :
    ∀ {cs : List Char} {items : List Value}, SpellsItems cs items →
      SpellsItems (cs ++ gap) items
  | _, _, .last hbefore hitem hafter => by
      simpa only [List.append_assoc] using
        SpellsItems.last hbefore hitem (blank_append hafter hgap)
  | _, _, .more hbefore hitem hafter hback => by
      simpa only [List.append_assoc, List.cons_append] using
        SpellsItems.more hbefore hitem hafter (spellsItems_append_blank hgap hback)

theorem spellsKey_quoteChars {gap : List Char} (hgap : Blank gap) (name : String) :
    SpellsKey (gap ++ quoteChars name.toList) name := by
  have hkey := SpellsKey.mk hgap (spells_flatMap_quoteChar name.toList) blank_nil
  rwa [String.ofList_toList] at hkey

/-- A node is an object behind its margin when its children are an array. -/
theorem spells_nodeText {level : Nat} {children : List Node}
    (h : Spells (arrayText (level + 1) children) (.array (ofNodes children))) (label : Label) :
    ∃ cs, nodeText level ⟨label, children⟩ = margin level ++ cs ∧
      Spells cs (ofNode ⟨label, children⟩) := by
  have hgap : Blank (['\n'] ++ margin (level + 1)) :=
    blank_append blank_newline (blank_margin (level + 1))
  have hspace : Blank [' '] := by
    intro c hc
    obtain rfl := List.mem_singleton.mp hc
    rfl
  have hchildren := SpellsMembers.last (spellsKey_quoteChars hgap "children") hspace h
    (blank_append blank_newline (blank_margin level))
  have htype := SpellsMembers.more (spellsKey_quoteChars hgap "type") hspace
    (spells_quoteChars label.kind.word) blank_nil hchildren
  have hname := SpellsMembers.more (spellsKey_quoteChars hgap "name") hspace
    (spells_quoteChars label.name) blank_nil htype
  refine ⟨_, ?_, .object hname⟩
  have hnameText : quoteChars "name".toList = "\"name\"".toList := by decide
  have htypeText : quoteChars "type".toList = "\"type\"".toList := by decide
  have hchildrenText : quoteChars "children".toList = "\"children\"".toList := by decide
  simp only [nodeText_eq, openText, hnameText, htypeText, hchildrenText]
  simp

theorem spells_arrayText_of_elements {level : Nat} {nodes : List Node}
    (h : nodes ≠ [] → SpellsItems (elementsText (level + 1) nodes) (ofNodes nodes)) :
    Spells (arrayText level nodes) (.array (ofNodes nodes)) := by
  cases nodes with
  | nil => exact .emptyArray blank_nil
  | cons node rest =>
      have hitems := spellsItems_append_blank (blank_margin level) (h (List.cons_ne_nil _ _))
      have harray := Spells.array (spellsItems_blank_append blank_newline hitems)
      simpa [arrayText] using harray

theorem spellsItems_elementsText (nodes : List Node) (level : Nat) (hne : nodes ≠ []) :
    SpellsItems (elementsText level nodes) (ofNodes nodes) := by
  induction nodes using Tree.forest_induction generalizing level with
  | nil => exact absurd rfl hne
  | cons label children rest ihChildren ihRest =>
      have hchildren : Spells (arrayText (level + 1) children) (.array (ofNodes children)) :=
        spells_arrayText_of_elements (ihChildren (level + 1 + 1))
      obtain ⟨cs, htext, hnode⟩ := spells_nodeText hchildren label
      rw [elementsText, htext, ofNodes]
      cases rest with
      | nil =>
          simpa [elementsText, ofNodes] using
            SpellsItems.last (blank_margin level) hnode blank_newline
      | cons next later =>
          have hrest := spellsItems_blank_append blank_newline
            (ihRest level (List.cons_ne_nil _ _))
          simpa using SpellsItems.more (blank_margin level) hnode blank_nil hrest

/-- The text of an array spells the objects of its nodes. -/
theorem spells_arrayText (level : Nat) (nodes : List Node) :
    Spells (arrayText level nodes) (.array (ofNodes nodes)) :=
  spells_arrayText_of_elements (spellsItems_elementsText nodes (level + 1))

/-! ## Tables -/

/-- The printed table is a document of the objects of its nodes. -/
theorem document_print_listing (nodes : List Node) :
    Document (print (listing nodes)).toList (.array (ofNodes nodes)) := by
  rw [print_listing, String.toList_ofList]
  simpa using Document.mk blank_nil (spells_arrayText 0 nodes) blank_nil

theorem print_listing_injective {nodes others : List Node}
    (h : print (listing others) = print (listing nodes)) : others = nodes := by
  have hother := document_print_listing others
  rw [h] at hother
  have hvalues := (document_print_listing nodes).unique hother
  have hnodes := nodes?_ofNodes others
  rw [Value.array.inj hvalues, nodes?_ofNodes] at hnodes
  exact (Option.some.inj hnodes).symm

theorem moduleText_eq_front_append (nodes : List Node) (declaration : Export)
    (snapshot : Option Snapshot) (moment : Moment) :
    ∃ front, moduleText nodes declaration snapshot moment =
      front ++ declarationLead declaration ++ print (listing nodes) ++
        ";\n// end of generated rule table\n" := by
  refine ⟨String.ofList (linesText (comments snapshot moment) ++ '\n' ::
    ((preamble declaration.target).toList ++ "\n\n".toList)), ?_⟩
  apply String.toList_injective
  rw [toList_moduleText, print_listing]
  simp [codeText, footer]

/-- A module goes on, behind its start and the lead of its declaration, with the table and
two last ends of lines. The table hangs on the nodes alone. It is a document of one value,
from which the nodes can be read back; it holds no character that a script or a reader of
lines would take for something else; and other nodes have another table. -/
theorem moduleText_table_round_trip (nodes : List Node) (declaration : Export)
    (snapshot : Option Snapshot) (moment : Moment) :
    (∃ front, moduleText nodes declaration snapshot moment =
      front ++
        (match declaration.target with
          | .typed => "export const " ++ declaration.symbol.name ++ ": RuleTable = "
          | .untyped => "grammar." ++ declaration.symbol.name ++ " = ") ++
        print (listing nodes) ++ ";\n// end of generated rule table\n") ∧
    (∃ value, Document (print (listing nodes)).toList value ∧
      (∀ other, Document (print (listing nodes)).toList other → other = value) ∧
      read? (print (listing nodes)).toList = some value ∧ table? value = some nodes) ∧
    (∀ c ∈ (print (listing nodes)).toList, c = '\n' ∨
      0x20 ≤ c.toNat ∧ c ≠ '\x7f' ∧ c ≠ '\u2028' ∧ c ≠ '\u2029') ∧
    ∀ others, print (listing others) = print (listing nodes) → others = nodes := by
  have hdocument := document_print_listing nodes
  refine ⟨moduleText_eq_front_append nodes declaration snapshot moment, ?_, ?_, ?_⟩
  · exact ⟨.array (ofNodes nodes), hdocument, fun other hother => hdocument.unique hother,
      read?_eq_some_iff.mpr hdocument, nodes?_ofNodes nodes⟩
  · rw [print_listing, String.toList_ofList]
    exact quiet_arrayText 0 nodes
  · exact fun others h => print_listing_injective h

end GrammarTable.Table
