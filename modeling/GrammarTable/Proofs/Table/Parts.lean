import GrammarTable.Proofs.Table.Array
import GrammarTable.Table.Module

/-!
# The parts of a module

A generated module is its lines of comment, a blank line, and code in which only the rules
and their declaration show. The code holds no break of a line but its own line feeds.
-/

namespace GrammarTable.Table

open Calendar Rule Settings

/-! ## Comments and code -/

def linesText (texts : List String) : List Char :=
  texts.flatMap fun text => text.toList ++ ['\n']

def comments (snapshot : Option Snapshot) (moment : Moment) : List String :=
  banner :: (momentLead ++ moment.text) :: provenance snapshot

/-- A module from the line of its preamble on. -/
def codeText (nodes : List Node) (declaration : Export) : List Char :=
  (preamble declaration.target).toList ++ "\n\n".toList ++
    (declarationLead declaration).toList ++ arrayText 0 nodes ++ ";\n".toList ++
    footer.toList ++ "\n".toList

theorem prints_onLines (texts : List String) :
    Prints (onLines texts) 0 true (linesText texts) 0 true := by
  induction texts with
  | nil =>
      intro before
      simp [onLines, linesText]
  | cons text rest ih =>
      have hline : Prints [.text text, .line] 0 true (text.toList ++ ['\n']) 0 true := by
        intro before
        by_cases hempty : text = "" <;>
          simp [Printed.item, Printed.push, hempty, String.ofList_append, String.append_assoc]
      exact hline.append ih

theorem preamble_ne_empty (target : Target) : preamble target ≠ "" := by
  cases target <;> decide

theorem declarationLead_ne_empty (declaration : Export) : declarationLead declaration ≠ "" := by
  intro h
  have hlist := congrArg String.toList h
  unfold declarationLead at hlist
  split at hlist <;> simp at hlist

theorem prints_declaration (declaration : Export) :
    Prints [.line, .text (preamble declaration.target), .line, .line,
        .text (declarationLead declaration)] 0 true
      ("\n".toList ++ (preamble declaration.target).toList ++ "\n\n".toList ++
        (declarationLead declaration).toList) 0 false := by
  intro before
  simp only [List.foldl_cons, List.foldl_nil, Printed.item, push_of_ne_empty,
    preamble_ne_empty, declarationLead_ne_empty, ne_eq, not_false_eq_true, lead, margin,
    Printed.mk.injEq, and_true]
  apply String.toList_injective
  simp

theorem prints_end :
    Prints [.text ";", .line, .text footer, .line] 0 false
      (";\n".toList ++ footer.toList ++ "\n".toList) 0 true := by
  intro before
  simp [Printed.item, push_of_ne_empty, footer, lead, margin, String.append_assoc]

/-- The text of a module: comments, a blank line, code. -/
theorem toList_moduleText (nodes : List Node) (declaration : Export)
    (snapshot : Option Snapshot) (moment : Moment) :
    (moduleText nodes declaration snapshot moment).toList =
      linesText (comments snapshot moment) ++ '\n' :: codeText nodes declaration := by
  have hprints := (((prints_onLines (comments snapshot moment)).append
    (prints_declaration declaration)).append (prints_listing nodes 0 false)).append prints_end
  have htext := hprints ""
  simp only [moduleText, print, moduleItems]
  simp only [comments] at htext
  rw [htext]
  simp [comments, codeText, lead]

/-! ## Quiet characters -/

/-- A character that neither ends a line in a script nor is a control character. -/
def Quiet (c : Char) : Prop :=
  0x20 ≤ c.toNat ∧ c ≠ '\x7f' ∧ c ≠ '\u2028' ∧ c ≠ '\u2029'

instance (c : Char) : Decidable (Quiet c) :=
  inferInstanceAs (Decidable (_ ∧ _ ∧ _ ∧ _))

def QuietLines (cs : List Char) : Prop :=
  ∀ c ∈ cs, c = '\n' ∨ Quiet c

instance (cs : List Char) : Decidable (QuietLines cs) :=
  List.decidableBAll (fun c => c = '\n' ∨ Quiet c) cs

theorem quietLines_nil : QuietLines [] := by
  decide

@[simp] theorem quietLines_append (front back : List Char) :
    QuietLines (front ++ back) ↔ QuietLines front ∧ QuietLines back :=
  List.forall_mem_append

theorem quiet_of_mem_hexDigits {width n : Nat} {d : Char} (hd : d ∈ hexDigits width n) :
    Quiet d := by
  induction width generalizing n with
  | zero => exact nomatch hd
  | succ width ih =>
      have hdigit : ∀ m < 16, Quiet (hexDigit m) := by decide
      rcases List.mem_append.mp hd with hd | hd
      · exact ih hd
      · obtain rfl := List.mem_singleton.mp hd
        exact hdigit _ (Nat.mod_lt n (by decide))

theorem quiet_of_mem_quoteChar {c d : Char} (hd : d ∈ quoteChar c) : Quiet d := by
  unfold quoteChar at hd
  iterate 7
    split at hd
    · revert d
      decide
  split at hd
  · have hlead : ∀ d ∈ ['\\', 'u'], Quiet d := by decide
    rcases List.mem_append.mp (show d ∈ ['\\', 'u'] ++ hexDigits 4 c.toNat from hd) with hd | hd
    · exact hlead d hd
    · exact quiet_of_mem_hexDigits hd
  · rename_i hspecial
    obtain rfl := List.mem_singleton.mp hd
    simp only [not_or] at hspecial
    exact ⟨by omega, hspecial.2⟩

/-- Nothing in a literal ends a line. -/
theorem quiet_of_mem_quoteChars {cs : List Char} {d : Char} (hd : d ∈ quoteChars cs) :
    Quiet d := by
  have hquote : Quiet '"' := by decide
  rcases List.mem_cons.mp hd with rfl | hd
  · exact hquote
  rcases List.mem_append.mp hd with hd | hd
  · obtain ⟨c, -, hc⟩ := List.mem_flatMap.mp hd
    exact quiet_of_mem_quoteChar hc
  · obtain rfl := List.mem_singleton.mp hd
    exact hquote

theorem quiet_quoteChars (cs : List Char) : QuietLines (quoteChars cs) :=
  fun _ hd => .inr (quiet_of_mem_quoteChars hd)

theorem quiet_margin (level : Nat) : QuietLines (margin level) := by
  intro c hc
  obtain rfl := List.eq_of_mem_replicate hc
  exact .inr (by decide)

theorem quiet_openText (level : Nat) (label : Label) : QuietLines (openText level label) := by
  simp only [openText, quietLines_append]
  and_intros
  all_goals first
    | exact quiet_margin _
    | exact quiet_quoteChars _
    | decide

theorem quiet_arrayText_of_elements {level : Nat} {nodes : List Node}
    (h : QuietLines (elementsText (level + 1) nodes)) : QuietLines (arrayText level nodes) := by
  unfold arrayText
  split
  · decide
  · simp only [quietLines_append]
    exact ⟨⟨⟨by decide, h⟩, quiet_margin level⟩, by decide⟩

theorem quiet_elementsText (nodes : List Node) (level : Nat) :
    QuietLines (elementsText level nodes) := by
  induction nodes using Tree.forest_induction generalizing level with
  | nil => exact quietLines_nil
  | cons label children rest ihChildren ihRest =>
      have hchildren := quiet_arrayText_of_elements (ihChildren (level + 1 + 1))
      have hcomma : QuietLines (if rest.isEmpty then "\n".toList else ",\n".toList) := by
        split <;> decide
      simp only [elementsText, nodeText_eq, quietLines_append]
      exact ⟨⟨⟨⟨⟨⟨quiet_openText level label, hchildren⟩, by decide⟩, quiet_margin level⟩,
        by decide⟩, hcomma⟩, ihRest level⟩

theorem quiet_arrayText (level : Nat) (nodes : List Node) : QuietLines (arrayText level nodes) :=
  quiet_arrayText_of_elements (quiet_elementsText nodes (level + 1))

end GrammarTable.Table
