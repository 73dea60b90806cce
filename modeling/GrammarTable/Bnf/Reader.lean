import GrammarTable.Bnf.Phrase
import GrammarTable.Token.Reader

/-!
# Reading BNF

A rule has no end sign: it ends in front of a name that the sign of definition follows,
or where nothing fits any more.
-/

namespace GrammarTable.Bnf

open Grammar Token

structure Head where
  name : Lexeme String
  define : Lexeme Unit

inductive Place where
  /-- Nothing: a rule may start. -/
  | between
  /-- A name: its definition has to follow. -/
  | named (name : Lexeme String)
  /-- The rule up to the start of a sequence, after a bar if alternatives stand before. -/
  | wanting (head : Head) (before : Option (Body × Lexeme Unit))
  /-- The rule up to an item of a sequence. -/
  | holding (head : Head) (before : Option (Body × Lexeme Unit)) (sequence : Sequence)

/-- The rules read so far (latest first) and the place in the rule at hand. -/
structure State where
  rules : List Declaration
  place : Place

/-- The body of a rule that ends with a sequence. -/
def closeBody : Option (Body × Lexeme Unit) → Sequence → Body
  | none, sequence => .one sequence
  | some (before, bar), sequence => .or before bar sequence

def takeBetween (rules : List Declaration) (lexeme : Lexeme Sign) : Except Cause State :=
  match lexeme.token with
  | .name name => .ok ⟨rules, .named (lexeme.as name)⟩
  | _ => .error (.unexpected .angledRuleName)

def take (state : State) (lexeme : Lexeme Sign) (ahead : List (Lexeme Sign)) :
    Except Cause State :=
  match state.place with
  | .between => takeBetween state.rules lexeme
  | .named name =>
      match lexeme.token with
      | .define => .ok ⟨state.rules, .wanting ⟨name, lexeme.as ()⟩ none⟩
      | _ => .error (.unexpected (.sign "::="))
  | .wanting head before =>
      match lexeme.token with
      | .name name =>
          if comesNext .define ahead then .error (.unexpected .angledItem)
          else .ok ⟨state.rules, .holding head before (.one (.reference (lexeme.as name)))⟩
      | .literal text =>
          .ok ⟨state.rules, .holding head before (.one (.literal (lexeme.as text)))⟩
      | _ => .error (.unexpected .angledItem)
  | .holding head before sequence =>
      let body := closeBody before sequence
      let rules := ⟨head.name, head.define, body⟩ :: state.rules
      match lexeme.token with
      | .name name =>
          if comesNext .define ahead then takeBetween rules lexeme
          else
            .ok ⟨state.rules,
              .holding head before (.snoc sequence (.reference (lexeme.as name)))⟩
      | .literal text =>
          .ok ⟨state.rules,
            .holding head before (.snoc sequence (.literal (lexeme.as text)))⟩
      | .bar => .ok ⟨state.rules, .wanting head (some (body, lexeme.as ()))⟩
      | .define => takeBetween rules lexeme

def finish (state : State) : Except Cause (List Declaration) :=
  match state.place with
  | .between => .ok state.rules.reverse
  | .named _ => .error (.unexpected (.sign "::="))
  | .wanting _ _ => .error (.unexpected .angledItem)
  | .holding head before sequence =>
      .ok (⟨head.name, head.define, closeBody before sequence⟩ :: state.rules).reverse

def reader : Reader Sign State (List Declaration) where
  start := ⟨[], .between⟩
  take := take
  finish := finish

end GrammarTable.Bnf
