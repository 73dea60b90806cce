import GrammarTable.Proofs.Iso.Completeness
import GrammarTable.Proofs.Iso.Translation
import GrammarTable.Proofs.Rule.Depth

/-!
# The depth of rules in ISO-style EBNF

Each bracket adds a choice, a sequence and a node of its own at most, and each operator one
node. Any number of operators may stand one behind the other, so that the depth of a rule is
bounded with their number.
-/

namespace GrammarTable.Iso

open Rule Text Token

/-- Whether the sign says how often what stands in front of it occurs. -/
def Sign.isOperator : Sign → Bool
  | .operator _ => true
  | _ => false

def operatorCount (lexemes : List (Lexeme Sign)) : Nat :=
  lexemes.countP fun lexeme => lexeme.token.isOperator

@[simp] theorem operatorCount_append (front back : List (Lexeme Sign)) :
    operatorCount (front ++ back) = operatorCount front + operatorCount back :=
  List.countP_append

@[simp] theorem operatorCount_cons (lexeme : Lexeme Sign) (rest : List (Lexeme Sign)) :
    operatorCount (lexeme :: rest) =
      operatorCount rest + if lexeme.token.isOperator then 1 else 0 :=
  List.countP_cons

variable {owner : String} {limit : Nat}

theorem Term.height_le_of_items (term : Term) :
    (term.translation owner).height ≤ 1 + Tree.forestHeight (term.items owner) := by
  cases term with
  | one factor =>
      rw [Term.translation, Term.items, Tree.forestHeight_singleton]
      omega
  | snoc before comma? factor =>
      apply Nat.le_of_eq
      rw [Term.translation, Term.items, Draft.height_composite]

theorem Expression.height_le_of_alternatives (expression : Expression) :
    (expression.translation owner).height ≤
      1 + Tree.forestHeight (expression.alternatives owner) := by
  cases expression with
  | one term =>
      rw [Expression.translation, Expression.alternatives, Tree.forestHeight_singleton]
      omega
  | or before bar term =>
      apply Nat.le_of_eq
      rw [Expression.translation, Expression.alternatives, Draft.height_composite,
        Draft.forestHeight_markAlternatives]

theorem depthBehind_comma (comma? : Option (Lexeme Unit)) (depth : Int) :
    depthBehind Sign.nesting depth (comma?.map fun comma => comma.as Sign.comma).toList =
      depth := by
  cases comma? with
  | none => rfl
  | some comma => exact Int.add_zero depth

/- The induction is on the phrases. Only a bracket hands less room on to what it holds. -/
mutual

theorem Factor.height_le (factor : Factor) {depth : Int} {room : Nat}
    (fits : NestsWithin Sign.nesting (some limit) depth factor.lexemes)
    (hroom : (limit : Int) ≤ depth + room) :
    (factor.translation owner).height ≤ 3 * room + 1 + operatorCount factor.lexemes := by
  cases factor with
  | reference name =>
      rw [Factor.translation, Draft.height_leaf]
      omega
  | literal text =>
      rw [Factor.translation, Draft.height_leaf]
      omega
  | bracketed bracket opening body closing =>
      have hinside : NestsWithin Sign.nesting (some limit) (depth + 1) body.lexemes :=
        (nestsWithin_append.mp fits.2).1
      have ⟨inner, hinner, hless⟩ := hinside.exists_room hroom
      have halternatives := body.forestHeight_alternatives_le hinside hless
      have hbody :
          (body.translation owner).height ≤ 1 + Tree.forestHeight (body.alternatives owner) :=
        body.height_le_of_alternatives
      rw [Factor.translation_bracketed, Draft.height_composite, Tree.forestHeight_singleton,
        Factor.lexemes, operatorCount_cons, operatorCount_append]
      omega
  | repeated factor operator =>
      have hfactor := factor.height_le (nestsWithin_append.mp fits).1 hroom
      have hone : operatorCount [operator.as (.operator operator.token)] = 1 := rfl
      rw [Factor.translation_repeated, Draft.height_composite, Tree.forestHeight_singleton,
        Factor.lexemes, operatorCount_append, hone]
      omega

theorem Term.forestHeight_items_le (term : Term) {depth : Int} {room : Nat}
    (fits : NestsWithin Sign.nesting (some limit) depth term.lexemes)
    (hroom : (limit : Int) ≤ depth + room) :
    Tree.forestHeight (term.items owner) ≤ 3 * room + 1 + operatorCount term.lexemes := by
  cases term with
  | one factor =>
      rw [Term.items, Tree.forestHeight_singleton]
      exact factor.height_le fits hroom
  | snoc before comma? factor =>
      rw [Term.lexemes, nestsWithin_append, before.depthBehind_lexemes, nestsWithin_append,
        depthBehind_comma] at fits
      have hitems := before.forestHeight_items_le fits.1 hroom
      have hlast := factor.height_le fits.2.2 hroom
      rw [Term.items, Tree.forestHeight_concat, Term.lexemes, operatorCount_append,
        operatorCount_append]
      omega

theorem Expression.forestHeight_alternatives_le (expression : Expression) {depth : Int}
    {room : Nat} (fits : NestsWithin Sign.nesting (some limit) depth expression.lexemes)
    (hroom : (limit : Int) ≤ depth + room) :
    Tree.forestHeight (expression.alternatives owner) ≤
      3 * room + 2 + operatorCount expression.lexemes := by
  cases expression with
  | one term =>
      have hitems := term.forestHeight_items_le fits hroom
      have hterm : (term.translation owner).height ≤ 1 + Tree.forestHeight (term.items owner) :=
        term.height_le_of_items
      rw [Expression.alternatives, Tree.forestHeight_singleton, Expression.lexemes]
      omega
  | or before bar term =>
      rw [Expression.lexemes, nestsWithin_append, before.depthBehind_lexemes] at fits
      have halternatives := before.forestHeight_alternatives_le fits.1 hroom
      have hitems := term.forestHeight_items_le (fits.2.of_level rfl) hroom
      have hterm : (term.translation owner).height ≤ 1 + Tree.forestHeight (term.items owner) :=
        term.height_le_of_items
      rw [Expression.alternatives, Tree.forestHeight_concat, Expression.lexemes,
        operatorCount_append, operatorCount_cons]
      omega

end

/-- A rule is as deep as its brackets let it be and no deeper than its operators make it. -/
theorem Declaration.height_draft_le (declaration : Declaration)
    (fits : NestsWithin Sign.nesting (some limit) 0 declaration.lexemes) :
    declaration.draft.height ≤ 3 * limit + 4 + operatorCount declaration.lexemes := by
  have hbody : NestsWithin Sign.nesting (some limit) 0 declaration.body.lexemes :=
    (nestsWithin_append.mp ((fits.of_level rfl).of_level rfl)).1
  have hroom : (limit : Int) ≤ 0 + limit := by omega
  let owner := declaration.name.token
  have halternatives : Tree.forestHeight (declaration.body.alternatives owner) ≤ _ :=
    declaration.body.forestHeight_alternatives_le hbody hroom
  have hheight : (declaration.body.translation owner).height ≤ _ :=
    declaration.body.height_le_of_alternatives
  have hrule : declaration.draft.height ≤ 1 + (declaration.body.draft owner).height :=
    Draft.height_rule_le _
  rw [Expression.draft_eq] at hrule
  simp only [Declaration.lexemes, operatorCount_cons, operatorCount_append]
  omega

end GrammarTable.Iso
