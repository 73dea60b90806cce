import GrammarTable.Proofs.Rule.Filled
import GrammarTable.Proofs.W3c.Script
import GrammarTable.Proofs.W3c.Translation

/-!
# The leaves of W3C EBNF

Names, literals, patterns and labels are the lexemes with a value; a label in front of the
name of a rule belongs to its head. The drafts of a phrase stand over the lexemes of the
phrase.
-/

namespace GrammarTable.W3c

open Rule Text Token

variable {owner : String}

def Sign.value : Sign → Option Label
  | .name text => some ⟨.nonTerminal, text⟩
  | .literal text => some ⟨.terminal, text⟩
  | .pattern text => some ⟨.pattern, text⟩
  | .label text => some ⟨.pattern, text⟩
  | _ => none

/-! ## Where a phrase starts -/

theorem Primary.startsAt (primary : Primary) :
    StartsAt primary.lexemes primary.span.start := by
  cases primary <;> exact ⟨_, rfl, rfl⟩

theorem Operand.startsAt (operand : Operand) :
    StartsAt operand.lexemes operand.span.start := by
  cases operand with
  | plain primary => exact primary.startsAt
  | repeated primary operator => exact primary.startsAt.append _

theorem Item.startsAt (item : Item) : StartsAt item.lexemes item.span.start := by
  cases item with
  | alone operand => exact operand.startsAt
  | difference left minus right => exact left.startsAt.append _

theorem Sequence.startsAt (sequence : Sequence) : StartsAt sequence.lexemes sequence.start := by
  cases sequence with
  | one item => exact item.startsAt
  | snoc before item => exact before.startsAt.append _

theorem Choice.startsAt (choice : Choice) : StartsAt choice.lexemes choice.start := by
  cases choice with
  | one sequence => exact sequence.startsAt
  | or before bar sequence => exact before.startsAt.append _

/-! ## Drafts over the lexemes -/

theorem Sequence.fills_of_items {sequence : Sequence}
    (h : Fills Sign.value sequence.lexemes (sequence.items owner)) :
    Fills Sign.value sequence.lexemes [sequence.translation owner] := by
  cases sequence with
  | one item =>
      rw [Sequence.translation]
      exact h
  | snoc before item =>
      rw [Sequence.translation]
      exact .singleton_composite (Sequence.snoc before item).startsAt
        (Sequence.snoc before item).endsAt (by simp) h

theorem Choice.fills_of_alternatives {choice : Choice}
    (h : Fills Sign.value choice.lexemes (choice.alternatives owner)) :
    Fills Sign.value choice.lexemes [choice.translation owner] := by
  cases choice with
  | one sequence =>
      rw [Choice.translation]
      exact h
  | or before bar sequence =>
      rw [Choice.translation]
      exact .singleton_composite (Choice.or before bar sequence).startsAt
        (Choice.or before bar sequence).endsAt (by simp [Draft.markAlternatives])
        h.markAlternatives

mutual

theorem Primary.fills (primary : Primary) :
    Fills Sign.value primary.lexemes [primary.translation owner] := by
  cases primary with
  | reference name => exact .singleton_leaf rfl
  | literal text => exact .singleton_leaf rfl
  | pattern text => exact .singleton_leaf rfl
  | label text => exact .singleton_leaf rfl
  | group opening body closing =>
      have hbody : Fills Sign.value body.lexemes [body.translation owner] :=
        Choice.fills_of_alternatives body.fills_alternatives
      rw [Primary.translation]
      refine .singleton_composite (Primary.group opening body closing).startsAt
        (Primary.group opening body closing).endsAt (List.cons_ne_nil _ _) ?_
      exact .skip rfl (hbody.append (.singleton_skip rfl))

theorem Operand.fills (operand : Operand) :
    Fills Sign.value operand.lexemes [operand.translation owner] := by
  cases operand with
  | plain primary => exact primary.fills
  | repeated primary operator =>
      rw [Operand.translation_repeated]
      refine .singleton_composite (Operand.repeated primary operator).startsAt
        (Operand.repeated primary operator).endsAt (List.cons_ne_nil _ _) ?_
      exact primary.fills.append (.singleton_skip rfl)

theorem Item.fills (item : Item) :
    Fills Sign.value item.lexemes [item.translation owner] := by
  cases item with
  | alone operand => exact operand.fills
  | difference left minus right =>
      rw [Item.translation]
      refine .singleton_composite (Item.difference left minus right).startsAt
        (Item.difference left minus right).endsAt (List.cons_ne_nil _ _) ?_
      exact left.fills.append (.skip rfl right.fills)

theorem Sequence.fills_items (sequence : Sequence) :
    Fills Sign.value sequence.lexemes (sequence.items owner) := by
  cases sequence with
  | one item => exact item.fills
  | snoc before item => exact before.fills_items.append item.fills

theorem Choice.fills_alternatives (choice : Choice) :
    Fills Sign.value choice.lexemes (choice.alternatives owner) := by
  cases choice with
  | one sequence => exact Sequence.fills_of_items sequence.fills_items
  | or before bar sequence =>
      exact before.fills_alternatives.append
        (.skip rfl (Sequence.fills_of_items sequence.fills_items))

end

/-! ## Where a rule is defined -/

mutual

theorem Primary.ne_define (primary : Primary) :
    ∀ lexeme ∈ primary.lexemes, lexeme.token ≠ .define := by
  cases primary with
  | reference name => simp [Primary.lexemes]
  | literal text => simp [Primary.lexemes]
  | pattern text => simp [Primary.lexemes]
  | label text => simp [Primary.lexemes]
  | group opening body closing =>
      have hbody := body.ne_define
      simpa [Primary.lexemes, or_imp, forall_and] using hbody

theorem Operand.ne_define (operand : Operand) :
    ∀ lexeme ∈ operand.lexemes, lexeme.token ≠ .define := by
  cases operand with
  | plain primary => exact primary.ne_define
  | repeated primary operator =>
      have hprimary := primary.ne_define
      simpa [Operand.lexemes, or_imp, forall_and] using hprimary

theorem Item.ne_define (item : Item) : ∀ lexeme ∈ item.lexemes, lexeme.token ≠ .define := by
  cases item with
  | alone operand => exact operand.ne_define
  | difference left minus right =>
      have hleft := left.ne_define
      have hright := right.ne_define
      simpa [Item.lexemes, or_imp, forall_and] using ⟨hleft, hright⟩

theorem Sequence.ne_define (sequence : Sequence) :
    ∀ lexeme ∈ sequence.lexemes, lexeme.token ≠ .define := by
  cases sequence with
  | one item => exact item.ne_define
  | snoc before item =>
      exact List.forall_mem_append.mpr ⟨before.ne_define, item.ne_define⟩

theorem Choice.ne_define (choice : Choice) :
    ∀ lexeme ∈ choice.lexemes, lexeme.token ≠ .define := by
  cases choice with
  | one sequence => exact sequence.ne_define
  | or before bar sequence =>
      have hbefore := before.ne_define
      have hsequence := sequence.ne_define
      simpa [Choice.lexemes, or_imp, forall_and] using ⟨hbefore, hsequence⟩

end

/-! ## Rules -/

def Declaration.headLexemes (declaration : Declaration) : List (Lexeme Sign) :=
  labelLexemes declaration.label? ++
    [declaration.name.as (.name declaration.name.token), declaration.define.as .define]

theorem Declaration.lexemes_eq (declaration : Declaration) :
    declaration.lexemes = declaration.headLexemes ++ declaration.body.lexemes := by
  simp [Declaration.lexemes, Declaration.headLexemes, labelLexemes]

theorem Declaration.fills (declaration : Declaration) :
    Fills Sign.value declaration.body.lexemes declaration.draft.children := by
  obtain ⟨label?, name, define, body⟩ := declaration
  rw [Declaration.draft_eq, Declaration.translation]
  cases body with
  | one sequence => exact sequence.fills_items
  | or before bar sequence =>
      exact Choice.fills_of_alternatives (Choice.or before bar sequence).fills_alternatives

theorem Declaration.children_ne_nil (declaration : Declaration) :
    declaration.draft.children ≠ [] := by
  obtain ⟨label?, name, define, body⟩ := declaration
  rw [Declaration.draft_eq, Declaration.translation]
  cases body with
  | one sequence => exact sequence.items_ne_nil
  | or before bar sequence => exact List.cons_ne_nil _ _

end GrammarTable.W3c
