import GrammarTable.Bnf.Phrase
import GrammarTable.Proofs.Rule.Composite

/-!
# The translation of BNF

Phrase by phrase, what a grammar stands for: names and literals are leaves, and a sequence
or a choice of one part is that part. The drafts of bodies are put together with the parts
behind as an argument; they are the translation.
-/

namespace GrammarTable.Bnf

open Rule Text Token

variable {owner : String}

/-! ## The translation of a phrase -/

def Sequence.items : Sequence → List Draft
  | .one item => [item.draft]
  | .snoc before item => before.items ++ [item.draft]

def Sequence.translation (owner : String) : Sequence → Draft
  | .one item => item.draft
  | .snoc before item =>
      .composite .sequence owner ⟨before.start, item.span.stop⟩ (before.items ++ [item.draft])

def Body.alternatives (owner : String) : Body → List Draft
  | .one sequence => [sequence.translation owner]
  | .or before _ sequence => before.alternatives owner ++ [sequence.translation owner]

def Body.translation (owner : String) : Body → Draft
  | .one sequence => sequence.translation owner
  | .or before _ sequence =>
      .composite .choice owner ⟨before.start, sequence.stop⟩
        (Draft.markAlternatives (before.alternatives owner ++ [sequence.translation owner]))

def Declaration.translation (declaration : Declaration) : Draft :=
  let owner := declaration.name.token
  .composite .rule owner ⟨declaration.name.span.start, declaration.body.stop⟩
    (match declaration.body with
    | .one sequence => sequence.items
    | body => [body.translation owner])

/-! ## Drafts are translations -/

theorem Sequence.items_ne_nil (sequence : Sequence) : sequence.items ≠ [] := by
  cases sequence <;> simp [Sequence.items]

theorem Body.alternatives_ne_nil (body : Body) : body.alternatives owner ≠ [] := by
  cases body <;> simp [Body.alternatives]

theorem Sequence.draftsOnto_eq (sequence : Sequence) (later : List Draft) :
    sequence.draftsOnto later = sequence.items ++ later := by
  induction sequence generalizing later with
  | one item => rfl
  | snoc before item ih =>
      rw [Sequence.draftsOnto, ih, Sequence.items, List.append_assoc]
      rfl

theorem Sequence.draft_eq (sequence : Sequence) :
    sequence.draft owner = sequence.translation owner := by
  rw [Sequence.draft, sequence.draftsOnto_eq, List.append_nil]
  cases sequence with
  | one item => rfl
  | snoc before item =>
      rw [Sequence.items, Draft.sequence_append before.items_ne_nil]
      rfl

theorem Body.draftsOnto_eq (body : Body) (later : List Draft) :
    body.draftsOnto owner later = body.alternatives owner ++ later := by
  induction body generalizing later with
  | one sequence =>
      rw [Body.draftsOnto, sequence.draft_eq]
      rfl
  | or before bar sequence ih =>
      rw [Body.draftsOnto, ih, sequence.draft_eq, Body.alternatives, List.append_assoc]
      rfl

theorem Body.draft_eq (body : Body) : body.draft owner = body.translation owner := by
  rw [Body.draft, body.draftsOnto_eq, List.append_nil]
  cases body with
  | one sequence => rfl
  | or before bar sequence =>
      rw [Body.alternatives, Draft.choice_append before.alternatives_ne_nil]
      rfl

/-- An item is no sequence, so that the body of a rule is one only by its alternative. -/
theorem Item.kind_ne_sequence (item : Item) : item.draft.label.kind ≠ .sequence := by
  cases item <;> exact nofun

theorem Declaration.draft_eq (declaration : Declaration) :
    declaration.draft = declaration.translation := by
  obtain ⟨name, define, body⟩ := declaration
  rw [Declaration.draft, Body.draft_eq, Draft.rule, Declaration.translation]
  cases body with
  | or before bar sequence => rfl
  | one sequence =>
      rw [Body.translation]
      cases sequence with
      | snoc before item => rfl
      | one item =>
          rw [Sequence.translation, if_neg item.kind_ne_sequence]
          rfl

end GrammarTable.Bnf
