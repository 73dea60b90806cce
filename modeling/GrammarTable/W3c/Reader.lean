import GrammarTable.Token.Reader
import GrammarTable.W3c.Phrase

/-!
# Reading W3C EBNF

A rule has no end sign. A name that the sign of definition follows, with a label before
it or not, starts the next rule wherever a further item of a sequence could stand; where
an item is needed, a label is an item.

The state keeps the parentheses that are open, innermost first. A bound on their number
is a parameter.
-/

namespace GrammarTable.W3c

open Grammar Token

structure Head where
  label? : Option (Lexeme String)
  name : Lexeme String
  define : Lexeme Unit

/-- What has been read of a choice in front of an operand. -/
structure Prior where
  /-- Whole alternatives, with the bar after them. -/
  alternatives? : Option (Choice × Lexeme Unit) := none
  /-- Whole items of the alternative at hand. -/
  items? : Option Sequence := none
  /-- A left operand, with the minus sign after it. -/
  left? : Option (Operand × Lexeme Unit) := none

def Prior.item (prior : Prior) (operand : Operand) : Item :=
  match prior.left? with
  | none => .alone operand
  | some (left, minus) => .difference left minus operand

def Prior.sequence (prior : Prior) (operand : Operand) : Sequence :=
  match prior.items? with
  | none => .one (prior.item operand)
  | some items => .snoc items (prior.item operand)

def Prior.choice (prior : Prior) (operand : Operand) : Choice :=
  match prior.alternatives? with
  | none => .one (prior.sequence operand)
  | some (alternatives, bar) => .or alternatives bar (prior.sequence operand)

/-- An open parenthesis, and what has been read in front of it. -/
structure Enclosure where
  prior : Prior
  opening : Lexeme Unit

inductive Place where
  /-- Nothing: a rule may start. -/
  | between
  /-- A label: a name has to follow. -/
  | labelled (label : Lexeme String)
  /-- A name: its definition has to follow. -/
  | named (label? : Option (Lexeme String)) (name : Lexeme String)
  /-- The rule up to the start of an operand. -/
  | wanting (head : Head) (around : List Enclosure) (prior : Prior)
  /-- The rule up to an operand, which an operator may still follow if it has none. -/
  | holding (head : Head) (around : List Enclosure) (prior : Prior) (operand : Operand)

/-- The rules read so far (latest first) and the place in the rule at hand. -/
structure State where
  rules : List Declaration
  place : Place

/-- Whether a rule starts here: a name, after a label or not, with the sign of definition
behind it. -/
def ruleStarts : List (Lexeme Sign) → Bool
  | first :: second :: rest =>
      match first.token, second.token with
      | .name _, .define => true
      | .label _, .name _ => comesNext .define rest
      | _, _ => false
  | _ => false

def takeBetween (rules : List Declaration) (lexeme : Lexeme Sign) : Except Cause State :=
  match lexeme.token with
  | .label text => .ok ⟨rules, .labelled (lexeme.as text)⟩
  | .name name => .ok ⟨rules, .named none (lexeme.as name)⟩
  | _ => .error (.unexpected .ruleName)

def takeOperand (limit? : Option Nat) (head : Head) (around : List Enclosure)
    (prior : Prior) (lexeme : Lexeme Sign) : Except Cause Place :=
  match lexeme.token with
  | .name name => .ok (.holding head around prior (.plain (.reference (lexeme.as name))))
  | .literal text => .ok (.holding head around prior (.plain (.literal (lexeme.as text))))
  | .pattern text => .ok (.holding head around prior (.plain (.pattern (lexeme.as text))))
  | .label text => .ok (.holding head around prior (.plain (.label (lexeme.as text))))
  | .opening =>
      if isFull limit? around.length then .error .tooDeep
      else .ok (.wanting head (⟨prior, lexeme.as ()⟩ :: around) {})
  | _ => .error (.unexpected .primary)

/-- Take a lexeme behind a choice that ends there. -/
def takeAfterChoice (rules : List Declaration) (head : Head) (around : List Enclosure)
    (body : Choice) (lexeme : Lexeme Sign) : Except Cause State :=
  match around with
  | [] => takeBetween (⟨head.label?, head.name, head.define, body⟩ :: rules) lexeme
  | enclosure :: around =>
      match lexeme.token with
      | .closing =>
          .ok ⟨rules, .holding head around enclosure.prior
            (.plain (.group enclosure.opening body (lexeme.as ())))⟩
      | _ => .error (.unexpected (.sign ")"))

/-- Take a lexeme behind an operand that no operator follows any more. -/
def takeAfterOperand (limit? : Option Nat) (rules : List Declaration) (head : Head)
    (around : List Enclosure) (prior : Prior) (operand : Operand) (lexeme : Lexeme Sign)
    (ahead : List (Lexeme Sign)) : Except Cause State :=
  match lexeme.token, prior.left? with
  | .minus, none =>
      .ok ⟨rules, .wanting head around { prior with left? := some (operand, lexeme.as ()) }⟩
  | .bar, _ =>
      .ok ⟨rules,
        .wanting head around { alternatives? := some (prior.choice operand, lexeme.as ()) }⟩
  | .define, _ => takeAfterChoice rules head around (prior.choice operand) lexeme
  | .minus, some _ => takeAfterChoice rules head around (prior.choice operand) lexeme
  | .operator _, _ => takeAfterChoice rules head around (prior.choice operand) lexeme
  | .closing, _ => takeAfterChoice rules head around (prior.choice operand) lexeme
  | _, _ =>
      if ruleStarts (lexeme :: ahead) then
        takeAfterChoice rules head around (prior.choice operand) lexeme
      else
        (takeOperand limit? head around
          { alternatives? := prior.alternatives?, items? := some (prior.sequence operand) }
          lexeme).map (State.mk rules)

def take (limit? : Option Nat) (state : State) (lexeme : Lexeme Sign)
    (ahead : List (Lexeme Sign)) : Except Cause State :=
  match state.place with
  | .between => takeBetween state.rules lexeme
  | .labelled label =>
      match lexeme.token with
      | .name name => .ok ⟨state.rules, .named (some label) (lexeme.as name)⟩
      | _ => .error (.unexpected .ruleName)
  | .named label? name =>
      match lexeme.token with
      | .define => .ok ⟨state.rules, .wanting ⟨label?, name, lexeme.as ()⟩ [] {}⟩
      | _ => .error (.unexpected (.sign "::="))
  | .wanting head around prior =>
      (takeOperand limit? head around prior lexeme).map (State.mk state.rules)
  | .holding head around prior operand =>
      match operand, lexeme.token with
      | .plain primary, .operator operator =>
          .ok ⟨state.rules,
            .holding head around prior (.repeated primary (lexeme.as operator))⟩
      | _, _ =>
          takeAfterOperand limit? state.rules head around prior operand lexeme ahead

def finish (state : State) : Except Cause (List Declaration) :=
  match state.place with
  | .between => .ok state.rules.reverse
  | .labelled _ => .error (.unexpected .ruleName)
  | .named _ _ => .error (.unexpected (.sign "::="))
  | .wanting _ _ _ => .error (.unexpected .primary)
  | .holding head [] prior operand =>
      .ok (⟨head.label?, head.name, head.define, prior.choice operand⟩ ::
        state.rules).reverse
  | .holding _ (_ :: _) _ _ => .error (.unexpected (.sign ")"))

/-- The reader of W3C EBNF, with a bound on the open parentheses or without. -/
def reader (limit? : Option Nat) : Reader Sign State (List Declaration) where
  start := ⟨[], .between⟩
  take := take limit?
  finish := finish

end GrammarTable.W3c
