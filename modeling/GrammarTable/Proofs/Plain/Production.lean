import GrammarTable.Rule.Composite
import GrammarTable.Text.Word
import GrammarTable.Token.Lexicon

/-!
# Productions

What can be said in every notation: rules whose alternatives are rows of names and literals.
The names are words that may hold hyphens, and a literal stands on one line and between quotes
that it does not hold.
-/

namespace GrammarTable.Plain

open Rule Text Token

/-- An ASCII letter or an underscore, and then letters, digits, underscores and hyphens. -/
def isName : List Char → Bool
  | [] => false
  | c :: rest => isWordStart c && rest.all fun d => isWordPart d || d == '-'

structure Name where
  text : String
  isName_text : isName text.toList = true

structure Literal where
  text : String
  inline : ∀ c ∈ text.toList, isInline c = true
  quotable : '"' ∉ text.toList ∨ '\'' ∉ text.toList

inductive Item where
  | reference (name : Name)
  | literal (quoted : Literal)

inductive Row (α : Type) where
  | one (last : α)
  | snoc (before : Row α) (last : α)

/-- A rule: alternatives, and the items of each. -/
structure Production where
  name : Name
  alternatives : Row (Row Item)

/-- One or more rules with names that differ. -/
structure Productions where
  list : List Production
  list_ne_nil : list ≠ []
  names_nodup : (list.map fun production => production.name.text).Nodup

/-! ## What productions say -/

def Row.toList {α : Type} : Row α → List α
  | .one last => [last]
  | .snoc before last => before.toList ++ [last]

def Item.draft : Item → Draft
  | .reference name => Draft.leaf .nonTerminal name.text ⟨0, 0⟩
  | .literal quoted => Draft.leaf .terminal quoted.text ⟨0, 0⟩

def alternativeDraft (owner : String) (items : Row Item) : Draft :=
  Draft.sequence owner ⟨0, 0⟩ (items.toList.map Item.draft)

def Production.draft (production : Production) : Draft :=
  Draft.rule production.name.text ⟨0, 0⟩
    (Draft.choice production.name.text ⟨0, 0⟩
      (production.alternatives.toList.map (alternativeDraft production.name.text)))

theorem Name.exists_eq_cons (name : Name) :
    ∃ c rest, name.text.toList = c :: rest ∧ isWordStart c = true ∧
      ∀ d ∈ rest, (isWordPart d || d == '-') = true := by
  have hname := name.isName_text
  cases htext : name.text.toList with
  | nil =>
      rw [htext] at hname
      exact nomatch hname
  | cons c rest =>
      rw [htext, isName, Bool.and_eq_true, List.all_eq_true] at hname
      exact ⟨c, rest, rfl, hname⟩

theorem Name.forall_mem (name : Name) :
    ∀ c ∈ name.text.toList, (isWordPart c || c == '-') = true := by
  obtain ⟨c, rest, htext, hstart, hrest⟩ := name.exists_eq_cons
  rw [htext]
  refine List.forall_mem_cons.mpr ⟨?_, hrest⟩
  rw [isWordPart_of_isWordStart hstart, Bool.true_or]

end GrammarTable.Plain
