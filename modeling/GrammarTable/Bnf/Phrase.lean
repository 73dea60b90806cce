import GrammarTable.Bnf.Lexicon
import GrammarTable.Rule.Composite

/-!
# Phrases of BNF

How the lexemes of a BNF grammar belong together:

* a declaration is a name, the sign of definition and a body;
* a body is one or more sequences with bars between them;
* a sequence is one or more items, and an item is a name or a literal.

Each phrase knows the lexemes that it is made of and the draft that it stands for.
-/

namespace GrammarTable.Bnf

open Rule Text Token

/-- A reference to a rule by its name, or a literal. -/
inductive Item where
  | reference (name : Lexeme String)
  | literal (text : Lexeme String)

inductive Sequence where
  | one (item : Item)
  | snoc (before : Sequence) (item : Item)

inductive Body where
  | one (sequence : Sequence)
  | or (before : Body) (bar : Lexeme Unit) (sequence : Sequence)

structure Declaration where
  name : Lexeme String
  define : Lexeme Unit
  body : Body

/-! ### The lexemes of a phrase -/

def Item.lexeme : Item → Lexeme Sign
  | .reference name => name.as (.name name.token)
  | .literal text => text.as (.literal text.token)

def Sequence.lexemes : Sequence → List (Lexeme Sign)
  | .one item => [item.lexeme]
  | .snoc before item => before.lexemes ++ [item.lexeme]

def Body.lexemes : Body → List (Lexeme Sign)
  | .one sequence => sequence.lexemes
  | .or before bar sequence => before.lexemes ++ bar.as .bar :: sequence.lexemes

def Declaration.lexemes (declaration : Declaration) : List (Lexeme Sign) :=
  declaration.name.as (.name declaration.name.token) ::
    declaration.define.as .define :: declaration.body.lexemes

/-! ### The draft of a phrase -/

def Item.span : Item → Span
  | .reference name => name.span
  | .literal text => text.span

def Item.draft : Item → Draft
  | .reference name => Draft.leaf .nonTerminal name.token name.span
  | .literal text => Draft.leaf .terminal text.token text.span

def Sequence.start : Sequence → Nat
  | .one item => item.span.start
  | .snoc before _ => before.start

def Sequence.stop : Sequence → Nat
  | .one item => item.span.stop
  | .snoc _ item => item.span.stop

def Sequence.span (sequence : Sequence) : Span :=
  ⟨sequence.start, sequence.stop⟩

/-- The drafts of the items, in front of others. -/
def Sequence.draftsOnto : Sequence → List Draft → List Draft
  | .one item, later => item.draft :: later
  | .snoc before item, later => before.draftsOnto (item.draft :: later)

def Sequence.draft (owner : String) (sequence : Sequence) : Draft :=
  Draft.sequence owner sequence.span (sequence.draftsOnto [])

def Body.start : Body → Nat
  | .one sequence => sequence.start
  | .or before _ _ => before.start

def Body.stop : Body → Nat
  | .one sequence => sequence.stop
  | .or _ _ sequence => sequence.stop

def Body.span (body : Body) : Span :=
  ⟨body.start, body.stop⟩

/-- The drafts of the alternatives, in front of others. -/
def Body.draftsOnto (owner : String) : Body → List Draft → List Draft
  | .one sequence, later => sequence.draft owner :: later
  | .or before _ sequence, later =>
      before.draftsOnto owner (sequence.draft owner :: later)

def Body.draft (owner : String) (body : Body) : Draft :=
  Draft.choice owner body.span (body.draftsOnto owner [])

def Declaration.draft (declaration : Declaration) : Draft :=
  Draft.rule declaration.name.token
    ⟨declaration.name.span.start, declaration.body.stop⟩
    (declaration.body.draft declaration.name.token)

end GrammarTable.Bnf
