import GrammarTable.Iso.Reader
import GrammarTable.Proofs.Token.Run

/-!
# What the reader of ISO-style EBNF takes

The reader takes the lexemes of a phrase to the state that holds the phrase. Only a name
behind a factor is looked beyond, and no phrase goes on with the sign of definition there.
-/

namespace GrammarTable.Iso

open Token

variable {limit? : Option Nat} {rules : List Declaration} {head : Head}
  {around : List Enclosure} {rest : List (Lexeme Sign)}

/-! ## Nesting -/

/-- What a sign adds to the depth of nesting. -/
def Sign.nesting : Sign → Int
  | .opening _ => 1
  | .closing _ => -1
  | _ => 0

mutual

theorem Factor.depthBehind_lexemes (factor : Factor) (depth : Int) :
    depthBehind Sign.nesting depth factor.lexemes = depth := by
  cases factor with
  | reference name =>
      simp [Factor.lexemes, depthBehind, Lexeme.as, Sign.nesting]
  | literal text =>
      simp [Factor.lexemes, depthBehind, Lexeme.as, Sign.nesting]
  | bracketed bracket opening body closing =>
      have hbody := body.depthBehind_lexemes (depth + 1)
      simp only [Factor.lexemes, depthBehind, depthBehind_append, Lexeme.as, Sign.nesting, hbody]
      omega
  | repeated factor operator =>
      have hfactor := factor.depthBehind_lexemes depth
      simp [Factor.lexemes, depthBehind, Lexeme.as, Sign.nesting, hfactor]

theorem Term.depthBehind_lexemes (term : Term) (depth : Int) :
    depthBehind Sign.nesting depth term.lexemes = depth := by
  cases term with
  | one factor => exact factor.depthBehind_lexemes depth
  | snoc before comma? factor =>
      have hbefore := before.depthBehind_lexemes depth
      have hfactor := factor.depthBehind_lexemes depth
      cases comma? <;>
        simp [Term.lexemes, depthBehind, Lexeme.as, Sign.nesting, hbefore, hfactor]

theorem Expression.depthBehind_lexemes (expression : Expression) (depth : Int) :
    depthBehind Sign.nesting depth expression.lexemes = depth := by
  cases expression with
  | one term => exact term.depthBehind_lexemes depth
  | or before bar term =>
      have hbefore := before.depthBehind_lexemes depth
      have hterm := term.depthBehind_lexemes depth
      simp [Expression.lexemes, depthBehind, Lexeme.as, Sign.nesting, hbefore, hterm]

end

theorem Declaration.depthBehind_lexemes (declaration : Declaration) (depth : Int) :
    depthBehind Sign.nesting depth declaration.lexemes = depth := by
  have hbody := declaration.body.depthBehind_lexemes depth
  simp [Declaration.lexemes, depthBehind, Lexeme.as, Sign.nesting, hbody]

/-! ## The first lexeme of a factor -/

def Factor.first : Factor → Lexeme Sign
  | .reference name => name.as (.name name.token)
  | .literal text => text.as (.literal text.token)
  | .bracketed bracket opening _ _ => opening.as (.opening bracket)
  | .repeated factor _ => factor.first

def Factor.behind : Factor → List (Lexeme Sign)
  | .reference _ => []
  | .literal _ => []
  | .bracketed bracket _ body closing => body.lexemes ++ [closing.as (.closing bracket)]
  | .repeated factor operator => factor.behind ++ [operator.as (.operator operator.token)]

theorem Factor.lexemes_eq_cons (factor : Factor) :
    factor.lexemes = factor.first :: factor.behind := by
  cases factor with
  | reference name => rfl
  | literal text => rfl
  | bracketed bracket opening body closing => rfl
  | repeated factor operator =>
      rw [Factor.lexemes, factor.lexemes_eq_cons]
      rfl

theorem Factor.comesNext_define (factor : Factor) :
    comesNext .define (factor.lexemes ++ rest) = false := by
  rw [factor.lexemes_eq_cons]
  induction factor using Factor.first.induct with
  | case1 name => rfl
  | case2 text => rfl
  | case3 bracket opening body closing => rfl
  | case4 factor operator ih => exact ih

/-- Behind a factor the next one starts as it does in its own place, unless the sign of
definition follows. -/
theorem Factor.take_first (factor : Factor) (prior : Prior) (held : Factor)
    (hrest : comesNext .define rest = false) :
    (reader limit?).take ⟨rules, .holding head around prior held⟩ factor.first
        (factor.behind ++ rest) =
      (reader limit?).take ⟨rules, .wanting head around
        { terms? := prior.terms?, factors? := some (prior.term held, none) }⟩ factor.first
        (factor.behind ++ rest) := by
  induction factor using Factor.first.induct generalizing rest with
  | case1 name =>
      rw [Factor.behind, List.nil_append]
      simp only [reader, take, takeAfterFactor, Factor.first, Lexeme.as, hrest]
      rfl
  | case2 text => rfl
  | case3 bracket opening body closing => rfl
  | case4 factor operator ih =>
      rw [Factor.behind, List.append_assoc]
      exact ih rfl

theorem Factor.takes_behind {factor held : Factor} {prior : Prior} {next : State}
    (h : (reader limit?).Takes ⟨rules, .wanting head around
      { terms? := prior.terms?, factors? := some (prior.term held, none) }⟩ factor.lexemes
      rest next)
    (hrest : comesNext .define rest = false) :
    (reader limit?).Takes ⟨rules, .holding head around prior held⟩ factor.lexemes rest
      next := by
  rw [factor.lexemes_eq_cons] at h ⊢
  exact .of_take_eq (factor.take_first prior held hrest) h

/-! ## What is derived is read -/

def Term.before? : Term → Option (Term × Option (Lexeme Unit))
  | .one _ => none
  | .snoc before comma? _ => some (before, comma?)

def Term.last : Term → Factor
  | .one factor => factor
  | .snoc _ _ factor => factor

def Expression.prior : Expression → Prior
  | .one term => { terms? := none, factors? := term.before? }
  | .or before bar term => { terms? := some (before, bar), factors? := term.before? }

def Expression.last : Expression → Factor
  | .one term => term.last
  | .or _ _ term => term.last

theorem Term.term_last (terms? : Option (Expression × Lexeme Unit)) (term : Term) :
    Prior.term { terms?, factors? := term.before? } term.last = term := by
  cases term <;> rfl

theorem Expression.expression_last (expression : Expression) :
    expression.prior.expression expression.last = expression := by
  cases expression with
  | one term => exact congrArg Expression.one (term.term_last none)
  | or before bar term =>
      exact congrArg (Expression.or before bar) (term.term_last (some (before, bar)))

mutual

theorem Factor.takes (factor : Factor) (prior : Prior) (around : List Enclosure)
    (rest : List (Lexeme Sign))
    (fits : NestsWithin Sign.nesting limit? around.length factor.lexemes) :
    (reader limit?).Takes ⟨rules, .wanting head around prior⟩ factor.lexemes rest
      ⟨rules, .holding head around prior factor⟩ := by
  cases factor with
  | reference name => exact .of_take rfl
  | literal text => exact .of_take rfl
  | bracketed bracket opening body closing =>
      have hbody : NestsWithin Sign.nesting limit? (around.length + 1 : Nat) body.lexemes :=
        (nestsWithin_append.mp fits.2).1
      have hfull : isFull limit? around.length = false := isFull_eq_false hbody.depth_le
      have hopening : (reader limit?).take ⟨rules, .wanting head around prior⟩
          (opening.as (.opening bracket))
          (body.lexemes ++ [closing.as (.closing bracket)] ++ rest) =
            .ok ⟨rules, .wanting head (⟨prior, bracket, opening⟩ :: around) {}⟩ := by
        simp only [reader, take, takeFactor, Lexeme.as, hfull]
        rfl
      have hclosing : (reader limit?).take
          ⟨rules, .holding head (⟨prior, bracket, opening⟩ :: around) body.prior body.last⟩
          (closing.as (.closing bracket)) rest =
            .ok ⟨rules, .holding head around prior
              (.bracketed bracket opening body closing)⟩ := by
        simp only [reader, take, takeAfterFactor, Lexeme.as, body.expression_last, if_true]
      exact .cons hopening
        ((body.takes (⟨prior, bracket, opening⟩ :: around) _ hbody rfl).trans
          (.of_take hclosing))
  | repeated factor operator =>
      have hfactor := (nestsWithin_append.mp fits).1
      exact (factor.takes prior around _ hfactor).trans (.of_take rfl)

theorem Term.takes (term : Term) (terms? : Option (Expression × Lexeme Unit))
    (around : List Enclosure) (rest : List (Lexeme Sign))
    (fits : NestsWithin Sign.nesting limit? around.length term.lexemes)
    (hrest : comesNext .define rest = false) :
    (reader limit?).Takes ⟨rules, .wanting head around { terms? }⟩ term.lexemes rest
      ⟨rules, .holding head around { terms?, factors? := term.before? } term.last⟩ := by
  cases term with
  | one factor => exact factor.takes { terms? } around rest fits
  | snoc before comma? factor =>
      obtain ⟨hbefore, hfactor⟩ := nestsWithin_append.mp fits
      rw [before.depthBehind_lexemes] at hfactor
      cases comma? with
      | none =>
          have hheld : (reader limit?).Takes
              ⟨rules, .holding head around { terms?, factors? := before.before? } before.last⟩
              factor.lexemes rest
              ⟨rules, .holding head around { terms?, factors? := some (before, none) }
                factor⟩ := by
            refine Factor.takes_behind ?_ hrest
            rw [before.term_last]
            exact factor.takes { terms?, factors? := some (before, none) } around rest hfactor
          exact (before.takes terms? around _ hbefore factor.comesNext_define).trans hheld
      | some comma =>
          have hcomma : (reader limit?).take
              ⟨rules, .holding head around { terms?, factors? := before.before? } before.last⟩
              (comma.as .comma) (factor.lexemes ++ rest) =
                .ok ⟨rules, .wanting head around
                  { terms?, factors? := some (before, some comma) }⟩ := by
            simp only [reader, take, takeAfterFactor, Lexeme.as, before.term_last]
          exact (before.takes terms? around _ hbefore rfl).trans
            (.cons hcomma (factor.takes _ around rest hfactor.2))

theorem Expression.takes (expression : Expression) (around : List Enclosure)
    (rest : List (Lexeme Sign))
    (fits : NestsWithin Sign.nesting limit? around.length expression.lexemes)
    (hrest : comesNext .define rest = false) :
    (reader limit?).Takes ⟨rules, .wanting head around {}⟩ expression.lexemes rest
      ⟨rules, .holding head around expression.prior expression.last⟩ := by
  cases expression with
  | one term => exact term.takes none around rest fits hrest
  | or before bar term =>
      obtain ⟨hbefore, hterm⟩ := nestsWithin_append.mp fits
      rw [before.depthBehind_lexemes] at hterm
      have hbar : (reader limit?).take
          ⟨rules, .holding head around before.prior before.last⟩ (bar.as .bar)
          (term.lexemes ++ rest) =
            .ok ⟨rules, .wanting head around { terms? := some (before, bar) }⟩ := by
        simp only [reader, take, takeAfterFactor, Lexeme.as, before.expression_last]
      exact (before.takes around _ hbefore rfl).trans
        (.cons hbar (term.takes _ around rest hterm.2 hrest))

end

theorem Declaration.takes (declaration : Declaration) (rest : List (Lexeme Sign))
    (fits : NestsWithin Sign.nesting limit? 0 declaration.lexemes) :
    (reader limit?).Takes ⟨rules, .between⟩ declaration.lexemes rest
      ⟨declaration :: rules, .between⟩ := by
  obtain ⟨name, define, body, semicolon⟩ := declaration
  obtain ⟨hbody, -⟩ := nestsWithin_append.mp fits.2.2
  have hsemicolon : (reader limit?).take
      ⟨rules, .holding ⟨name, define⟩ [] body.prior body.last⟩ (semicolon.as .semicolon)
      rest = .ok ⟨⟨name, define, body, semicolon⟩ :: rules, .between⟩ := by
    simp only [reader, take, takeAfterFactor, Lexeme.as, body.expression_last]
  exact .cons rfl (.cons rfl
    ((body.takes [] _ hbody rfl).trans (.of_take hsemicolon)))

def yield (declarations : List Declaration) : List (Lexeme Sign) :=
  declarations.flatMap Declaration.lexemes

theorem takes_yield (declarations : List Declaration) (rules : List Declaration)
    (fits : NestsWithin Sign.nesting limit? 0 (yield declarations)) :
    (reader limit?).Takes ⟨rules, .between⟩ (yield declarations) []
      ⟨declarations.reverse ++ rules, .between⟩ := by
  induction declarations generalizing rules with
  | nil => exact .nil _
  | cons declaration later ih =>
      obtain ⟨hfirst, hlater⟩ := nestsWithin_append.mp fits
      rw [declaration.depthBehind_lexemes] at hlater
      rw [List.reverse_cons, List.append_assoc, List.singleton_append]
      exact (declaration.takes _ hfirst).trans (ih (declaration :: rules) hlater)

theorem read_yield (declarations : List Declaration)
    (fits : NestsWithin Sign.nesting limit? 0 (yield declarations)) :
    (reader limit?).read (yield declarations) = .ok declarations := by
  refine Reader.read_of_takes (takes_yield declarations [] fits) ?_
  simp [reader, finish]

end GrammarTable.Iso
