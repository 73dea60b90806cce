import GrammarTable.Proofs.Rule.Depth
import GrammarTable.Proofs.W3c.Completeness
import GrammarTable.Proofs.W3c.Translation

/-!
# The depth of rules in W3C EBNF

Each pair of parentheses adds five levels at most: a choice, a sequence, an exclusion, a node
for how often something occurs, and the group. Nothing else adds levels without end, since an
operand has one operator and an item one minus sign.
-/

namespace GrammarTable.W3c

open Rule Text Token

variable {owner : String} {limit : Nat}

theorem Sequence.height_le_of_items (sequence : Sequence) :
    (sequence.translation owner).height ≤ 1 + Tree.forestHeight (sequence.items owner) := by
  cases sequence with
  | one item =>
      rw [Sequence.translation, Sequence.items, Tree.forestHeight_singleton]
      omega
  | snoc before item =>
      apply Nat.le_of_eq
      rw [Sequence.translation, Sequence.items, Draft.height_composite]

theorem Choice.height_le_of_alternatives (choice : Choice) :
    (choice.translation owner).height ≤ 1 + Tree.forestHeight (choice.alternatives owner) := by
  cases choice with
  | one sequence =>
      rw [Choice.translation, Choice.alternatives, Tree.forestHeight_singleton]
      omega
  | or before bar sequence =>
      apply Nat.le_of_eq
      rw [Choice.translation, Choice.alternatives, Draft.height_composite,
        Draft.forestHeight_markAlternatives]

/- The induction is on the phrases. Only a group hands less room on to what it holds. -/
mutual

theorem Primary.height_le (primary : Primary) {depth : Int} {room : Nat}
    (fits : NestsWithin Sign.nesting (some limit) depth primary.lexemes)
    (hroom : (limit : Int) ≤ depth + room) :
    (primary.translation owner).height ≤ 5 * room + 1 := by
  cases primary with
  | reference name =>
      rw [Primary.translation, Draft.height_leaf]
      omega
  | literal text =>
      rw [Primary.translation, Draft.height_leaf]
      omega
  | pattern text =>
      rw [Primary.translation, Draft.height_leaf]
      omega
  | label text =>
      rw [Primary.translation, Draft.height_leaf]
      omega
  | group opening body closing =>
      have hinside : NestsWithin Sign.nesting (some limit) (depth + 1) body.lexemes :=
        (nestsWithin_append.mp fits.2).1
      have ⟨inner, hinner, hless⟩ := hinside.exists_room hroom
      have halternatives := body.forestHeight_alternatives_le hinside hless
      have hbody :
          (body.translation owner).height ≤ 1 + Tree.forestHeight (body.alternatives owner) :=
        body.height_le_of_alternatives
      rw [Primary.translation, Draft.height_composite, Tree.forestHeight_singleton]
      omega

theorem Operand.height_le (operand : Operand) {depth : Int} {room : Nat}
    (fits : NestsWithin Sign.nesting (some limit) depth operand.lexemes)
    (hroom : (limit : Int) ≤ depth + room) :
    (operand.translation owner).height ≤ 5 * room + 2 := by
  cases operand with
  | plain primary =>
      have hprimary := primary.height_le fits hroom
      rw [Operand.translation]
      omega
  | repeated primary operator =>
      have hprimary := primary.height_le (nestsWithin_append.mp fits).1 hroom
      rw [Operand.translation_repeated, Draft.height_composite, Tree.forestHeight_singleton]
      omega

theorem Item.height_le (item : Item) {depth : Int} {room : Nat}
    (fits : NestsWithin Sign.nesting (some limit) depth item.lexemes)
    (hroom : (limit : Int) ≤ depth + room) :
    (item.translation owner).height ≤ 5 * room + 3 := by
  cases item with
  | alone operand =>
      have hoperand := operand.height_le fits hroom
      rw [Item.translation]
      omega
  | difference left minus right =>
      rw [Item.lexemes, nestsWithin_append, left.depthBehind_lexemes] at fits
      have hleft := left.height_le fits.1 hroom
      have hright := right.height_le (fits.2.of_level rfl) hroom
      rw [Item.translation, Draft.height_composite, Tree.forestHeight, Tree.forestHeight_singleton]
      omega

theorem Sequence.forestHeight_items_le (sequence : Sequence) {depth : Int} {room : Nat}
    (fits : NestsWithin Sign.nesting (some limit) depth sequence.lexemes)
    (hroom : (limit : Int) ≤ depth + room) :
    Tree.forestHeight (sequence.items owner) ≤ 5 * room + 3 := by
  cases sequence with
  | one item =>
      rw [Sequence.items, Tree.forestHeight_singleton]
      exact item.height_le fits hroom
  | snoc before item =>
      rw [Sequence.lexemes, nestsWithin_append, before.depthBehind_lexemes] at fits
      have hitems := before.forestHeight_items_le fits.1 hroom
      have hlast := item.height_le fits.2 hroom
      rw [Sequence.items, Tree.forestHeight_concat]
      omega

theorem Choice.forestHeight_alternatives_le (choice : Choice) {depth : Int} {room : Nat}
    (fits : NestsWithin Sign.nesting (some limit) depth choice.lexemes)
    (hroom : (limit : Int) ≤ depth + room) :
    Tree.forestHeight (choice.alternatives owner) ≤ 5 * room + 4 := by
  cases choice with
  | one sequence =>
      have hitems := sequence.forestHeight_items_le fits hroom
      have hsequence : (sequence.translation owner).height ≤
          1 + Tree.forestHeight (sequence.items owner) :=
        sequence.height_le_of_items
      rw [Choice.alternatives, Tree.forestHeight_singleton]
      omega
  | or before bar sequence =>
      rw [Choice.lexemes, nestsWithin_append, before.depthBehind_lexemes] at fits
      have halternatives := before.forestHeight_alternatives_le fits.1 hroom
      have hitems := sequence.forestHeight_items_le (fits.2.of_level rfl) hroom
      have hsequence : (sequence.translation owner).height ≤
          1 + Tree.forestHeight (sequence.items owner) :=
        sequence.height_le_of_items
      rw [Choice.alternatives, Tree.forestHeight_concat]
      omega

end

/-- A rule is as deep as its parentheses let it be. -/
theorem Declaration.height_draft_le (declaration : Declaration)
    (fits : NestsWithin Sign.nesting (some limit) 0 declaration.lexemes) :
    declaration.draft.height ≤ 5 * limit + 6 := by
  have hbody : NestsWithin Sign.nesting (some limit) 0 declaration.body.lexemes := by
    have ⟨label?, name, define, body⟩ := declaration
    cases label? with
    | none => exact (fits.of_level rfl).of_level rfl
    | some label => exact ((fits.of_level rfl).of_level rfl).of_level rfl
  have hroom : (limit : Int) ≤ 0 + limit := by omega
  let owner := declaration.name.token
  have halternatives : Tree.forestHeight (declaration.body.alternatives owner) ≤ _ :=
    declaration.body.forestHeight_alternatives_le hbody hroom
  have hheight : (declaration.body.translation owner).height ≤ _ :=
    declaration.body.height_le_of_alternatives
  have hrule : declaration.draft.height ≤ 1 + (declaration.body.draft owner).height :=
    Draft.height_rule_le _
  rw [Choice.draft_eq] at hrule
  omega

end GrammarTable.W3c
