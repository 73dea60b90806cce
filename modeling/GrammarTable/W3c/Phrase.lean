import GrammarTable.Rule.Composite
import GrammarTable.W3c.Lexicon

/-!
# Phrases of W3C EBNF

How the lexemes of a W3C grammar belong together:

* a declaration is a name, after a label or not, the sign of definition and a choice;
* a choice is one or more sequences with bars between them;
* a sequence is one or more items;
* an item is an operand, or two with a minus sign between them;
* an operand is a primary with at most one operator behind it;
* a primary is a name, a literal, a pattern, a label or a choice in parentheses.

Each phrase knows the lexemes that it is made of and the draft that it stands for.
-/

namespace GrammarTable.W3c

open Rule Text Token

mutual

/-- A name, a literal, a pattern, a label or a choice in parentheses. -/
inductive Primary where
  | reference (name : Lexeme String)
  | literal (text : Lexeme String)
  | pattern (text : Lexeme String)
  | label (text : Lexeme String)
  | group (opening : Lexeme Unit) (body : Choice) (closing : Lexeme Unit)

/-- A primary and how often it occurs. -/
inductive Operand where
  | plain (primary : Primary)
  | repeated (primary : Primary) (operator : Lexeme Operator)

/-- An operand, or what matches one and does not match another. -/
inductive Item where
  | alone (operand : Operand)
  | difference (left : Operand) (minus : Lexeme Unit) (right : Operand)

inductive Sequence where
  | one (item : Item)
  | snoc (before : Sequence) (item : Item)

inductive Choice where
  | one (sequence : Sequence)
  | or (before : Choice) (bar : Lexeme Unit) (sequence : Sequence)

end

structure Declaration where
  label? : Option (Lexeme String)
  name : Lexeme String
  define : Lexeme Unit
  body : Choice

/-! ### The lexemes of a phrase -/

mutual

def Primary.lexemes : Primary → List (Lexeme Sign)
  | .reference name => [name.as (.name name.token)]
  | .literal text => [text.as (.literal text.token)]
  | .pattern text => [text.as (.pattern text.token)]
  | .label text => [text.as (.label text.token)]
  | .group opening body closing =>
      opening.as .opening :: (body.lexemes ++ [closing.as .closing])

def Operand.lexemes : Operand → List (Lexeme Sign)
  | .plain primary => primary.lexemes
  | .repeated primary operator =>
      primary.lexemes ++ [operator.as (.operator operator.token)]

def Item.lexemes : Item → List (Lexeme Sign)
  | .alone operand => operand.lexemes
  | .difference left minus right => left.lexemes ++ minus.as .minus :: right.lexemes

def Sequence.lexemes : Sequence → List (Lexeme Sign)
  | .one item => item.lexemes
  | .snoc before item => before.lexemes ++ item.lexemes

def Choice.lexemes : Choice → List (Lexeme Sign)
  | .one sequence => sequence.lexemes
  | .or before bar sequence => before.lexemes ++ bar.as .bar :: sequence.lexemes

end

def Declaration.lexemes (declaration : Declaration) : List (Lexeme Sign) :=
  (declaration.label?.map fun label => label.as (.label label.token)).toList ++
    declaration.name.as (.name declaration.name.token) ::
      declaration.define.as .define :: declaration.body.lexemes

/-! ### The bytes of a phrase -/

def Primary.span : Primary → Span
  | .reference name => name.span
  | .literal text => text.span
  | .pattern text => text.span
  | .label text => text.span
  | .group opening _ closing => opening.span.to closing.span

def Operand.span : Operand → Span
  | .plain primary => primary.span
  | .repeated primary operator => primary.span.to operator.span

def Item.span : Item → Span
  | .alone operand => operand.span
  | .difference left _ right => left.span.to right.span

def Sequence.start : Sequence → Nat
  | .one item => item.span.start
  | .snoc before _ => before.start

def Sequence.stop : Sequence → Nat
  | .one item => item.span.stop
  | .snoc _ item => item.span.stop

def Sequence.span (sequence : Sequence) : Span :=
  ⟨sequence.start, sequence.stop⟩

def Choice.start : Choice → Nat
  | .one sequence => sequence.start
  | .or before _ _ => before.start

def Choice.stop : Choice → Nat
  | .one sequence => sequence.stop
  | .or _ _ sequence => sequence.stop

def Choice.span (choice : Choice) : Span :=
  ⟨choice.start, choice.stop⟩

/-- Where a rule starts: at its label if it has one. -/
def Declaration.start (declaration : Declaration) : Nat :=
  (declaration.label?.getD declaration.name).span.start

/-! ### The draft of a phrase -/

mutual

def Primary.draft (owner : String) : Primary → Draft
  | .reference name => Draft.leaf .nonTerminal name.token name.span
  | .literal text => Draft.leaf .terminal text.token text.span
  | .pattern text => Draft.leaf .pattern text.token text.span
  | .label text => Draft.leaf .pattern text.token text.span
  | .group opening body closing =>
      Draft.composite .group owner (opening.span.to closing.span)
        [Draft.choice owner body.span (body.draftsOnto owner [])]

def Operand.draft (owner : String) : Operand → Draft
  | .plain primary => primary.draft owner
  | .repeated primary operator =>
      Draft.composite operator.token.kind owner (primary.span.to operator.span)
        [primary.draft owner]

def Item.draft (owner : String) : Item → Draft
  | .alone operand => operand.draft owner
  | .difference left _ right =>
      Draft.composite .exclusion owner (left.span.to right.span)
        [left.draft owner, right.draft owner]

/-- The drafts of the items, in front of others. -/
def Sequence.draftsOnto (owner : String) : Sequence → List Draft → List Draft
  | .one item, later => item.draft owner :: later
  | .snoc before item, later => before.draftsOnto owner (item.draft owner :: later)

/-- The drafts of the alternatives, in front of others. -/
def Choice.draftsOnto (owner : String) : Choice → List Draft → List Draft
  | .one sequence, later =>
      Draft.sequence owner sequence.span (sequence.draftsOnto owner []) :: later
  | .or before _ sequence, later =>
      before.draftsOnto owner
        (Draft.sequence owner sequence.span (sequence.draftsOnto owner []) :: later)

end

def Sequence.draft (owner : String) (sequence : Sequence) : Draft :=
  Draft.sequence owner sequence.span (sequence.draftsOnto owner [])

def Choice.draft (owner : String) (choice : Choice) : Draft :=
  Draft.choice owner choice.span (choice.draftsOnto owner [])

def Declaration.draft (declaration : Declaration) : Draft :=
  Draft.rule declaration.name.token ⟨declaration.start, declaration.body.stop⟩
    (declaration.body.draft declaration.name.token)

end GrammarTable.W3c
