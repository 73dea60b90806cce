import GrammarTable.Iso.Lexicon
import GrammarTable.Rule.Composite

/-!
# Phrases of ISO-style EBNF

How the lexemes of a grammar in the ISO style belong together:

* a declaration is a name, the sign of definition, an expression and a semicolon;
* an expression is one or more terms with bars between them;
* a term is one or more factors, with or without commas between them;
* a factor is a name, a literal or an expression in brackets, with any number of
  operators behind it.

Each phrase knows the lexemes that it is made of and the draft that it stands for.
-/

namespace GrammarTable.Iso

open Rule Text Token

mutual

/-- A name, a literal or an expression in brackets, with operators behind it. -/
inductive Factor where
  | reference (name : Lexeme String)
  | literal (text : Lexeme String)
  | bracketed (bracket : Bracket) (opening : Lexeme Unit) (body : Expression)
      (closing : Lexeme Unit)
  | repeated (factor : Factor) (operator : Lexeme Operator)

inductive Term where
  | one (factor : Factor)
  | snoc (before : Term) (comma? : Option (Lexeme Unit)) (factor : Factor)

inductive Expression where
  | one (term : Term)
  | or (before : Expression) (bar : Lexeme Unit) (term : Term)

end

structure Declaration where
  name : Lexeme String
  define : Lexeme Unit
  body : Expression
  semicolon : Lexeme Unit

/-! ### The lexemes of a phrase -/

mutual

def Factor.lexemes : Factor → List (Lexeme Sign)
  | .reference name => [name.as (.name name.token)]
  | .literal text => [text.as (.literal text.token)]
  | .bracketed bracket opening body closing =>
      opening.as (.opening bracket) ::
        (body.lexemes ++ [closing.as (.closing bracket)])
  | .repeated factor operator =>
      factor.lexemes ++ [operator.as (.operator operator.token)]

def Term.lexemes : Term → List (Lexeme Sign)
  | .one factor => factor.lexemes
  | .snoc before comma? factor =>
      before.lexemes ++
        ((comma?.map fun comma => comma.as Sign.comma).toList ++ factor.lexemes)

def Expression.lexemes : Expression → List (Lexeme Sign)
  | .one term => term.lexemes
  | .or before bar term => before.lexemes ++ bar.as .bar :: term.lexemes

end

def Declaration.lexemes (declaration : Declaration) : List (Lexeme Sign) :=
  declaration.name.as (.name declaration.name.token) ::
    declaration.define.as .define ::
      (declaration.body.lexemes ++ [declaration.semicolon.as .semicolon])

/-! ### The bytes of a phrase -/

def Factor.start : Factor → Nat
  | .reference name => name.span.start
  | .literal text => text.span.start
  | .bracketed _ opening _ _ => opening.span.start
  | .repeated factor _ => factor.start

def Factor.stop : Factor → Nat
  | .reference name => name.span.stop
  | .literal text => text.span.stop
  | .bracketed _ _ _ closing => closing.span.stop
  | .repeated _ operator => operator.span.stop

def Term.start : Term → Nat
  | .one factor => factor.start
  | .snoc before _ _ => before.start

def Term.stop : Term → Nat
  | .one factor => factor.stop
  | .snoc _ _ factor => factor.stop

def Term.span (term : Term) : Span :=
  ⟨term.start, term.stop⟩

def Expression.start : Expression → Nat
  | .one term => term.start
  | .or before _ _ => before.start

def Expression.stop : Expression → Nat
  | .one term => term.stop
  | .or _ _ term => term.stop

def Expression.span (expression : Expression) : Span :=
  ⟨expression.start, expression.stop⟩

/-! ### The draft of a phrase -/

def Bracket.kind : Bracket → Kind
  | .round => .group
  | .square => .optional
  | .curly => .repetition

/-- Put operators around a draft, the innermost first. -/
def repeatDraft (owner : String) (start : Nat) (operators : List (Lexeme Operator))
    (draft : Draft) : Draft :=
  operators.foldl (fun inner operator =>
    Draft.composite operator.token.kind owner ⟨start, operator.span.stop⟩ [inner]) draft

mutual

/-- The draft of a factor with further operators behind it. -/
def Factor.draftUnder (owner : String) : Factor → List (Lexeme Operator) → Draft
  | .reference name, operators =>
      repeatDraft owner name.span.start operators
        (Draft.leaf .nonTerminal name.token name.span)
  | .literal text, operators =>
      repeatDraft owner text.span.start operators
        (Draft.leaf .terminal text.token text.span)
  | .bracketed bracket opening body closing, operators =>
      repeatDraft owner opening.span.start operators
        (Draft.composite bracket.kind owner (opening.span.to closing.span)
          [Draft.choice owner body.span (body.draftsOnto owner [])])
  | .repeated factor operator, operators =>
      factor.draftUnder owner (operator :: operators)

/-- The drafts of the factors, in front of others. -/
def Term.draftsOnto (owner : String) : Term → List Draft → List Draft
  | .one factor, later => factor.draftUnder owner [] :: later
  | .snoc before _ factor, later =>
      before.draftsOnto owner (factor.draftUnder owner [] :: later)

/-- The drafts of the alternatives, in front of others. -/
def Expression.draftsOnto (owner : String) : Expression → List Draft → List Draft
  | .one term, later => Draft.sequence owner term.span (term.draftsOnto owner []) :: later
  | .or before _ term, later =>
      before.draftsOnto owner
        (Draft.sequence owner term.span (term.draftsOnto owner []) :: later)

end

def Factor.draft (owner : String) (factor : Factor) : Draft :=
  factor.draftUnder owner []

def Term.draft (owner : String) (term : Term) : Draft :=
  Draft.sequence owner term.span (term.draftsOnto owner [])

def Expression.draft (owner : String) (expression : Expression) : Draft :=
  Draft.choice owner expression.span (expression.draftsOnto owner [])

def Declaration.draft (declaration : Declaration) : Draft :=
  Draft.rule declaration.name.token
    (declaration.name.span.to declaration.semicolon.span)
    (declaration.body.draft declaration.name.token)

end GrammarTable.Iso
