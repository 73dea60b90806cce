import GrammarTable.Proofs.Iso.Translation
import GrammarTable.Proofs.Rule.Filled

/-!
# The leaves of ISO-style EBNF

Names and literals are the lexemes with a value. The drafts of a phrase stand over the
lexemes of the phrase: brackets and operators belong to the nodes that they make, and bars
and commas stand between parts.
-/

namespace GrammarTable.Iso

open Rule Text Token

variable {owner : String}

def Sign.value : Sign → Option Label
  | .name text => some ⟨.nonTerminal, text⟩
  | .literal text => some ⟨.terminal, text⟩
  | _ => none

/-! ## Where a phrase starts and ends -/

theorem Factor.startsAt (factor : Factor) : StartsAt factor.lexemes factor.start := by
  cases factor with
  | reference name => exact ⟨_, rfl, rfl⟩
  | literal text => exact ⟨_, rfl, rfl⟩
  | bracketed bracket opening body closing => exact ⟨_, rfl, rfl⟩
  | repeated factor operator => exact factor.startsAt.append _

theorem Term.startsAt (term : Term) : StartsAt term.lexemes term.start := by
  cases term with
  | one factor => exact factor.startsAt
  | snoc before comma? factor => exact before.startsAt.append _

theorem Expression.startsAt (expression : Expression) :
    StartsAt expression.lexemes expression.start := by
  cases expression with
  | one term => exact term.startsAt
  | or before bar term => exact before.startsAt.append _

theorem Factor.endsAt (factor : Factor) : EndsAt factor.lexemes factor.stop := by
  cases factor with
  | reference name => exact ⟨_, rfl, rfl⟩
  | literal text => exact ⟨_, rfl, rfl⟩
  | bracketed bracket opening body closing =>
      exact endsAt_append_singleton (opening.as (.opening bracket) :: body.lexemes)
        (closing.as (.closing bracket))
  | repeated factor operator => exact endsAt_append_singleton factor.lexemes _

theorem Term.endsAt (term : Term) : EndsAt term.lexemes term.stop := by
  cases term with
  | one factor => exact factor.endsAt
  | snoc before comma? factor => exact (factor.endsAt.append _).append before.lexemes

theorem Expression.endsAt (expression : Expression) :
    EndsAt expression.lexemes expression.stop := by
  cases expression with
  | one term => exact term.endsAt
  | or before bar term => exact (term.endsAt.append [bar.as .bar]).append before.lexemes

/-! ## Drafts over the lexemes -/

theorem Term.fills_of_items {term : Term}
    (h : Fills Sign.value term.lexemes (term.items owner)) :
    Fills Sign.value term.lexemes [term.translation owner] := by
  cases term with
  | one factor =>
      rw [Term.translation]
      exact h
  | snoc before comma? factor =>
      rw [Term.translation]
      exact .singleton_composite (Term.snoc before comma? factor).startsAt
        (Term.snoc before comma? factor).endsAt (by simp) h

theorem Expression.fills_of_alternatives {expression : Expression}
    (h : Fills Sign.value expression.lexemes (expression.alternatives owner)) :
    Fills Sign.value expression.lexemes [expression.translation owner] := by
  cases expression with
  | one term =>
      rw [Expression.translation]
      exact h
  | or before bar term =>
      rw [Expression.translation]
      exact .singleton_composite (Expression.or before bar term).startsAt
        (Expression.or before bar term).endsAt (by simp [Draft.markAlternatives])
        h.markAlternatives

mutual

theorem Factor.fills (factor : Factor) :
    Fills Sign.value factor.lexemes [factor.translation owner] := by
  cases factor with
  | reference name => exact .singleton_leaf rfl
  | literal text => exact .singleton_leaf rfl
  | bracketed bracket opening body closing =>
      have hbody : Fills Sign.value body.lexemes [body.translation owner] :=
        Expression.fills_of_alternatives body.fills_alternatives
      rw [Factor.translation_bracketed]
      refine .singleton_composite (Factor.bracketed bracket opening body closing).startsAt
        (Factor.bracketed bracket opening body closing).endsAt (List.cons_ne_nil _ _) ?_
      exact .skip rfl (hbody.append (.singleton_skip rfl))
  | repeated factor operator =>
      rw [Factor.translation_repeated]
      refine .singleton_composite (Factor.repeated factor operator).startsAt
        (Factor.repeated factor operator).endsAt (List.cons_ne_nil _ _) ?_
      exact factor.fills.append (.singleton_skip rfl)

theorem Term.fills_items (term : Term) :
    Fills Sign.value term.lexemes (term.items owner) := by
  cases term with
  | one factor => exact factor.fills
  | snoc before comma? factor =>
      have hcomma : Fills Sign.value (comma?.map fun comma => comma.as Sign.comma).toList [] := by
        cases comma? with
        | none => exact .nil
        | some comma => exact .singleton_skip rfl
      exact before.fills_items.append (hcomma.append factor.fills)

theorem Expression.fills_alternatives (expression : Expression) :
    Fills Sign.value expression.lexemes (expression.alternatives owner) := by
  cases expression with
  | one term => exact Term.fills_of_items term.fills_items
  | or before bar term =>
      exact before.fills_alternatives.append (.skip rfl (Term.fills_of_items term.fills_items))

end

/-! ## Where a rule is defined -/

mutual

theorem Factor.ne_define (factor : Factor) : ∀ lexeme ∈ factor.lexemes, lexeme.token ≠ .define := by
  cases factor with
  | reference name => simp [Factor.lexemes]
  | literal text => simp [Factor.lexemes]
  | bracketed bracket opening body closing =>
      have hbody := body.ne_define
      simpa [Factor.lexemes, or_imp, forall_and] using hbody
  | repeated factor operator =>
      have hfactor := factor.ne_define
      simpa [Factor.lexemes, or_imp, forall_and] using hfactor

theorem Term.ne_define (term : Term) : ∀ lexeme ∈ term.lexemes, lexeme.token ≠ .define := by
  cases term with
  | one factor => exact factor.ne_define
  | snoc before comma? factor =>
      have hbefore := before.ne_define
      have hfactor := factor.ne_define
      cases comma? <;> simpa [Term.lexemes, or_imp, forall_and] using ⟨hbefore, hfactor⟩

theorem Expression.ne_define (expression : Expression) :
    ∀ lexeme ∈ expression.lexemes, lexeme.token ≠ .define := by
  cases expression with
  | one term => exact term.ne_define
  | or before bar term =>
      have hbefore := before.ne_define
      have hterm := term.ne_define
      simpa [Expression.lexemes, or_imp, forall_and] using ⟨hbefore, hterm⟩

end

/-! ## Rules -/

def Declaration.headLexemes (declaration : Declaration) : List (Lexeme Sign) :=
  [declaration.name.as (.name declaration.name.token), declaration.define.as .define]

def Declaration.bodyLexemes (declaration : Declaration) : List (Lexeme Sign) :=
  declaration.body.lexemes ++ [declaration.semicolon.as .semicolon]

theorem Declaration.lexemes_eq (declaration : Declaration) :
    declaration.lexemes = declaration.headLexemes ++ declaration.bodyLexemes := rfl

theorem Declaration.fills (declaration : Declaration) :
    Fills Sign.value declaration.bodyLexemes declaration.draft.children := by
  obtain ⟨name, define, body, semicolon⟩ := declaration
  have hsemicolon : Fills Sign.value [semicolon.as Sign.semicolon] [] := .singleton_skip rfl
  rw [Declaration.draft_eq, Declaration.translation, ← List.append_nil (Tree.children _)]
  cases body with
  | one term => exact term.fills_items.append hsemicolon
  | or before bar term =>
      exact (Expression.fills_of_alternatives
        (Expression.or before bar term).fills_alternatives).append hsemicolon

theorem Declaration.children_ne_nil (declaration : Declaration) :
    declaration.draft.children ≠ [] := by
  obtain ⟨name, define, body, semicolon⟩ := declaration
  rw [Declaration.draft_eq, Declaration.translation]
  cases body with
  | one term => exact term.items_ne_nil
  | or before bar term => exact List.cons_ne_nil _ _

end GrammarTable.Iso
