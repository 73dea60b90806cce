import GrammarTable.Proofs.Rule.Composite
import GrammarTable.W3c.Phrase

/-!
# The translation of W3C EBNF

Phrase by phrase, what a grammar stands for: names, literals, patterns and labels are
leaves, and so on up to the rules. The drafts of sequences and choices are put together
with the parts behind as an argument; they are the translation.
-/

namespace GrammarTable.W3c

open Rule Text Token

variable {owner : String}

/-! ## The translation of a phrase -/

mutual

def Primary.translation (owner : String) : Primary → Draft
  | .reference name => .leaf .nonTerminal name.token name.span
  | .literal text => .leaf .terminal text.token text.span
  | .pattern text => .leaf .pattern text.token text.span
  | .label text => .leaf .pattern text.token text.span
  | .group opening body closing =>
      .composite .group owner ⟨opening.span.start, closing.span.stop⟩
        [body.translation owner]

def Operand.translation (owner : String) : Operand → Draft
  | .plain primary => primary.translation owner
  | .repeated primary operator =>
      let kind := match operator.token with
        | .question => Kind.optional
        | .star => .repetition
        | .plus => .repetition1
      .composite kind owner ⟨primary.span.start, operator.span.stop⟩
        [primary.translation owner]

def Item.translation (owner : String) : Item → Draft
  | .alone operand => operand.translation owner
  | .difference left _ right =>
      .composite .exclusion owner ⟨left.span.start, right.span.stop⟩
        [left.translation owner, right.translation owner]

def Sequence.items (owner : String) : Sequence → List Draft
  | .one item => [item.translation owner]
  | .snoc before item => before.items owner ++ [item.translation owner]

def Sequence.translation (owner : String) : Sequence → Draft
  | .one item => item.translation owner
  | .snoc before item =>
      .composite .sequence owner ⟨before.start, item.span.stop⟩
        (before.items owner ++ [item.translation owner])

def Choice.alternatives (owner : String) : Choice → List Draft
  | .one sequence => [sequence.translation owner]
  | .or before _ sequence => before.alternatives owner ++ [sequence.translation owner]

def Choice.translation (owner : String) : Choice → Draft
  | .one sequence => sequence.translation owner
  | .or before _ sequence =>
      .composite .choice owner ⟨before.start, sequence.stop⟩
        (Draft.markAlternatives (before.alternatives owner ++ [sequence.translation owner]))

end

theorem Operand.translation_repeated (primary : Primary) (operator : Lexeme Operator) :
    (Operand.repeated primary operator).translation owner =
      .composite operator.token.kind owner ⟨primary.span.start, operator.span.stop⟩
        [primary.translation owner] := by
  obtain ⟨token, text, span⟩ := operator
  cases token <;> rfl

/-- The label of a rule shows in the bytes of the rule only. -/
def Declaration.translation (declaration : Declaration) : Draft :=
  let owner := declaration.name.token
  let start := match declaration.label? with
    | none => declaration.name.span.start
    | some label => label.span.start
  .composite .rule owner ⟨start, declaration.body.stop⟩
    (match declaration.body with
    | .one sequence => sequence.items owner
    | body => [body.translation owner])

/-! ## Drafts are translations -/

theorem Sequence.items_ne_nil (sequence : Sequence) : sequence.items owner ≠ [] := by
  cases sequence <;> simp [Sequence.items]

theorem Choice.alternatives_ne_nil (choice : Choice) : choice.alternatives owner ≠ [] := by
  cases choice <;> simp [Choice.alternatives]

theorem Sequence.sequence_items (sequence : Sequence) :
    Draft.sequence owner sequence.span (sequence.items owner) =
      sequence.translation owner := by
  cases sequence with
  | one item =>
      rw [Sequence.items, Sequence.translation]
      rfl
  | snoc before item =>
      rw [Sequence.items, Sequence.translation, Draft.sequence_append before.items_ne_nil]
      rfl

theorem Choice.choice_alternatives (choice : Choice) :
    Draft.choice owner choice.span (choice.alternatives owner) =
      choice.translation owner := by
  cases choice with
  | one sequence =>
      rw [Choice.alternatives, Choice.translation]
      rfl
  | or before bar sequence =>
      rw [Choice.alternatives, Choice.translation,
        Draft.choice_append before.alternatives_ne_nil]
      rfl

mutual

theorem Primary.draft_eq (primary : Primary) :
    primary.draft owner = primary.translation owner := by
  cases primary with
  | reference name => rfl
  | literal text => rfl
  | pattern text => rfl
  | label text => rfl
  | group opening body closing =>
      rw [Primary.draft, body.draftsOnto_eq, List.append_nil, body.choice_alternatives,
        Primary.translation]
      rfl

theorem Operand.draft_eq (operand : Operand) :
    operand.draft owner = operand.translation owner := by
  cases operand with
  | plain primary =>
      rw [Operand.draft, primary.draft_eq, Operand.translation]
  | repeated primary operator =>
      rw [Operand.draft, primary.draft_eq]
      obtain ⟨token, text, span⟩ := operator
      cases token <;> rfl

theorem Item.draft_eq (item : Item) : item.draft owner = item.translation owner := by
  cases item with
  | alone operand => rw [Item.draft, operand.draft_eq, Item.translation]
  | difference left minus right =>
      rw [Item.draft, left.draft_eq, right.draft_eq, Item.translation]
      rfl

theorem Sequence.draftsOnto_eq (sequence : Sequence) (later : List Draft) :
    sequence.draftsOnto owner later = sequence.items owner ++ later := by
  cases sequence with
  | one item =>
      rw [Sequence.draftsOnto, item.draft_eq, Sequence.items]
      rfl
  | snoc before item =>
      rw [Sequence.draftsOnto, before.draftsOnto_eq, item.draft_eq, Sequence.items,
        List.append_assoc]
      rfl

theorem Choice.draftsOnto_eq (choice : Choice) (later : List Draft) :
    choice.draftsOnto owner later = choice.alternatives owner ++ later := by
  cases choice with
  | one sequence =>
      rw [Choice.draftsOnto, sequence.draftsOnto_eq, List.append_nil,
        sequence.sequence_items, Choice.alternatives]
      rfl
  | or before bar sequence =>
      rw [Choice.draftsOnto, before.draftsOnto_eq, sequence.draftsOnto_eq, List.append_nil,
        sequence.sequence_items, Choice.alternatives, List.append_assoc]
      rfl

end

theorem Choice.draft_eq (choice : Choice) :
    choice.draft owner = choice.translation owner := by
  rw [Choice.draft, choice.draftsOnto_eq, List.append_nil, choice.choice_alternatives]

theorem Primary.kind_ne_sequence (primary : Primary) :
    (primary.translation owner).label.kind ≠ .sequence := by
  cases primary <;> exact nofun

theorem Operand.kind_ne_sequence (operand : Operand) :
    (operand.translation owner).label.kind ≠ .sequence := by
  cases operand with
  | plain primary => exact primary.kind_ne_sequence
  | repeated primary operator =>
      obtain ⟨token, text, span⟩ := operator
      cases token <;> exact nofun

/-- An item is no sequence, so that the body of a rule is one only by its alternative. -/
theorem Item.kind_ne_sequence (item : Item) :
    (item.translation owner).label.kind ≠ .sequence := by
  cases item with
  | alone operand => exact operand.kind_ne_sequence
  | difference left minus right => exact nofun

theorem Declaration.draft_eq (declaration : Declaration) :
    declaration.draft = declaration.translation := by
  obtain ⟨label?, name, define, body⟩ := declaration
  have hstart : Declaration.start ⟨label?, name, define, body⟩ =
      match label? with
      | none => name.span.start
      | some label => label.span.start := by
    cases label? <;> rfl
  rw [Declaration.draft, Choice.draft_eq, Draft.rule, Declaration.translation, hstart]
  cases body with
  | or before bar sequence =>
      rw [Choice.translation]
      rfl
  | one sequence =>
      rw [Choice.translation]
      cases sequence with
      | snoc before item =>
          rw [Sequence.translation]
          rfl
      | one item =>
          rw [Sequence.translation, if_neg item.kind_ne_sequence]
          rfl

end GrammarTable.W3c
