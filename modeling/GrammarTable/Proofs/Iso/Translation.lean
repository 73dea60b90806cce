import GrammarTable.Iso.Phrase
import GrammarTable.Proofs.Rule.Composite

/-!
# The translation of ISO-style EBNF

Phrase by phrase, what a grammar stands for: names and literals are leaves, brackets and
operators nodes around what they hold, and a sequence or a choice of one part is that part.
The drafts of phrases are put together in another order, with the operators and the parts
behind as arguments; they are the translation.
-/

namespace GrammarTable.Iso

open Rule Text Token

variable {owner : String}

/-! ## The translation of a phrase -/

mutual

def Factor.translation (owner : String) : Factor → Draft
  | .reference name => .leaf .nonTerminal name.token name.span
  | .literal text => .leaf .terminal text.token text.span
  | .bracketed bracket opening body closing =>
      let kind := match bracket with
        | .round => Kind.group
        | .square => .optional
        | .curly => .repetition
      .composite kind owner ⟨opening.span.start, closing.span.stop⟩ [body.translation owner]
  | .repeated factor operator =>
      let kind := match operator.token with
        | .question => Kind.optional
        | .star => .repetition
        | .plus => .repetition1
      .composite kind owner ⟨factor.start, operator.span.stop⟩ [factor.translation owner]

def Term.items (owner : String) : Term → List Draft
  | .one factor => [factor.translation owner]
  | .snoc before _ factor => before.items owner ++ [factor.translation owner]

def Term.translation (owner : String) : Term → Draft
  | .one factor => factor.translation owner
  | .snoc before _ factor =>
      .composite .sequence owner ⟨before.start, factor.stop⟩
        (before.items owner ++ [factor.translation owner])

def Expression.alternatives (owner : String) : Expression → List Draft
  | .one term => [term.translation owner]
  | .or before _ term => before.alternatives owner ++ [term.translation owner]

def Expression.translation (owner : String) : Expression → Draft
  | .one term => term.translation owner
  | .or before _ term =>
      .composite .choice owner ⟨before.start, term.stop⟩
        (Draft.markAlternatives (before.alternatives owner ++ [term.translation owner]))

end

def Declaration.translation (declaration : Declaration) : Draft :=
  let owner := declaration.name.token
  .composite .rule owner ⟨declaration.name.span.start, declaration.semicolon.span.stop⟩
    (match declaration.body with
    | .one term => term.items owner
    | body => [body.translation owner])

theorem Factor.translation_bracketed (bracket : Bracket) (opening closing : Lexeme Unit)
    (body : Expression) :
    (Factor.bracketed bracket opening body closing).translation owner =
      .composite bracket.kind owner ⟨opening.span.start, closing.span.stop⟩
        [body.translation owner] := by
  cases bracket <;> rfl

theorem Factor.translation_repeated (factor : Factor) (operator : Lexeme Operator) :
    (Factor.repeated factor operator).translation owner =
      .composite operator.token.kind owner ⟨factor.start, operator.span.stop⟩
        [factor.translation owner] := by
  obtain ⟨token, text, span⟩ := operator
  cases token <;> rfl

/-! ## Drafts are translations -/

theorem Term.items_ne_nil (term : Term) : term.items owner ≠ [] := by
  cases term <;> simp [Term.items]

theorem Expression.alternatives_ne_nil (expression : Expression) :
    expression.alternatives owner ≠ [] := by
  cases expression <;> simp [Expression.alternatives]

theorem Term.sequence_items (term : Term) :
    Draft.sequence owner term.span (term.items owner) = term.translation owner := by
  cases term with
  | one factor =>
      rw [Term.items, Term.translation]
      rfl
  | snoc before comma? factor =>
      rw [Term.items, Term.translation, Draft.sequence_append before.items_ne_nil]
      rfl

theorem Expression.choice_alternatives (expression : Expression) :
    Draft.choice owner expression.span (expression.alternatives owner) =
      expression.translation owner := by
  cases expression with
  | one term =>
      rw [Expression.alternatives, Expression.translation]
      rfl
  | or before bar term =>
      rw [Expression.alternatives, Expression.translation,
        Draft.choice_append before.alternatives_ne_nil]
      rfl

mutual

theorem Factor.draftUnder_eq (factor : Factor) (operators : List (Lexeme Operator)) :
    factor.draftUnder owner operators =
      repeatDraft owner factor.start operators (factor.translation owner) := by
  cases factor with
  | reference name => rfl
  | literal text => rfl
  | bracketed bracket opening body closing =>
      rw [Factor.draftUnder, body.draftsOnto_eq, List.append_nil,
        body.choice_alternatives]
      cases bracket <;> rfl
  | repeated factor operator =>
      rw [Factor.draftUnder, factor.draftUnder_eq]
      obtain ⟨token, text, span⟩ := operator
      cases token <;> rfl

theorem Term.draftsOnto_eq (term : Term) (later : List Draft) :
    term.draftsOnto owner later = term.items owner ++ later := by
  cases term with
  | one factor =>
      rw [Term.draftsOnto, factor.draftUnder_eq, Term.items]
      rfl
  | snoc before comma? factor =>
      rw [Term.draftsOnto, before.draftsOnto_eq, factor.draftUnder_eq, Term.items,
        List.append_assoc]
      rfl

theorem Expression.draftsOnto_eq (expression : Expression) (later : List Draft) :
    expression.draftsOnto owner later = expression.alternatives owner ++ later := by
  cases expression with
  | one term =>
      rw [Expression.draftsOnto, term.draftsOnto_eq, List.append_nil, term.sequence_items,
        Expression.alternatives]
      rfl
  | or before bar term =>
      rw [Expression.draftsOnto, before.draftsOnto_eq, term.draftsOnto_eq, List.append_nil,
        term.sequence_items, Expression.alternatives, List.append_assoc]
      rfl

end

theorem Expression.draft_eq (expression : Expression) :
    expression.draft owner = expression.translation owner := by
  rw [Expression.draft, expression.draftsOnto_eq, List.append_nil,
    expression.choice_alternatives]

/-- A factor is no sequence, so that the body of a rule is one only by its term. -/
theorem Factor.kind_ne_sequence (factor : Factor) :
    (factor.translation owner).label.kind ≠ .sequence := by
  cases factor with
  | reference name => exact nofun
  | literal text => exact nofun
  | bracketed bracket opening body closing =>
      cases bracket <;> exact nofun
  | repeated factor operator =>
      obtain ⟨token, text, span⟩ := operator
      cases token <;> exact nofun

theorem Declaration.draft_eq (declaration : Declaration) :
    declaration.draft = declaration.translation := by
  obtain ⟨name, define, body, semicolon⟩ := declaration
  rw [Declaration.draft, Expression.draft_eq, Draft.rule, Declaration.translation]
  cases body with
  | or before bar term =>
      rw [Expression.translation]
      rfl
  | one term =>
      rw [Expression.translation]
      cases term with
      | snoc before comma? factor =>
          rw [Term.translation]
          rfl
      | one factor =>
          rw [Term.translation, if_neg factor.kind_ne_sequence]
          rfl

end GrammarTable.Iso
