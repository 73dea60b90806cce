import GrammarTable.Iso.Phrase
import GrammarTable.Token.Reader

/-!
# Reading ISO-style EBNF

A rule ends with a semicolon. A name that the sign of definition follows starts no
further factor of a term, so a missing semicolon is found in front of the next rule.

The state keeps the brackets that are open, innermost first. A bound on their number is a
parameter.
-/

namespace GrammarTable.Iso

open Grammar Token

structure Head where
  name : Lexeme String
  define : Lexeme Unit

/-- What has been read of an expression in front of a factor. -/
structure Prior where
  /-- Whole terms, with the bar after them. -/
  terms? : Option (Expression × Lexeme Unit) := none
  /-- Whole factors of the term at hand, with the comma after them if there is one. -/
  factors? : Option (Term × Option (Lexeme Unit)) := none

def Prior.term (prior : Prior) (factor : Factor) : Term :=
  match prior.factors? with
  | none => .one factor
  | some (factors, comma?) => .snoc factors comma? factor

def Prior.expression (prior : Prior) (factor : Factor) : Expression :=
  match prior.terms? with
  | none => .one (prior.term factor)
  | some (terms, bar) => .or terms bar (prior.term factor)

/-- An open bracket, and what has been read in front of it. -/
structure Enclosure where
  prior : Prior
  bracket : Bracket
  opening : Lexeme Unit

inductive Place where
  /-- Nothing: a rule may start. -/
  | between
  /-- A name: its definition has to follow. -/
  | named (name : Lexeme String)
  /-- The rule up to the start of a factor. -/
  | wanting (head : Head) (around : List Enclosure) (prior : Prior)
  /-- The rule up to a factor, which operators may still follow. -/
  | holding (head : Head) (around : List Enclosure) (prior : Prior) (factor : Factor)

/-- The rules read so far (latest first) and the place in the rule at hand. -/
structure State where
  rules : List Declaration
  place : Place

def Bracket.closer : Bracket → String
  | .round => ")"
  | .square => "]"
  | .curly => "\x7d"

/-- What has to close an expression: the innermost open bracket, or the rule. -/
def wantedCloser : List Enclosure → Wanted
  | [] => .sign ";"
  | enclosure :: _ => .sign enclosure.bracket.closer

def takeFactor (limit? : Option Nat) (head : Head) (around : List Enclosure)
    (prior : Prior) (lexeme : Lexeme Sign) : Except Cause Place :=
  match lexeme.token with
  | .name name => .ok (.holding head around prior (.reference (lexeme.as name)))
  | .literal text => .ok (.holding head around prior (.literal (lexeme.as text)))
  | .opening bracket =>
      if isFull limit? around.length then .error .tooDeep
      else .ok (.wanting head (⟨prior, bracket, lexeme.as ()⟩ :: around) {})
  | _ => .error (.unexpected .factor)

/-- Take a lexeme behind a factor that is no operator. -/
def takeAfterFactor (limit? : Option Nat) (rules : List Declaration) (head : Head)
    (around : List Enclosure) (prior : Prior) (factor : Factor) (lexeme : Lexeme Sign)
    (ahead : List (Lexeme Sign)) : Except Cause State :=
  let further :=
    (takeFactor limit? head around
      { terms? := prior.terms?, factors? := some (prior.term factor, none) } lexeme).map
      (State.mk rules)
  match lexeme.token with
  | .comma =>
      .ok ⟨rules, .wanting head around
        { terms? := prior.terms?, factors? := some (prior.term factor, some (lexeme.as ())) }⟩
  | .bar =>
      .ok ⟨rules,
        .wanting head around { terms? := some (prior.expression factor, lexeme.as ()) }⟩
  | .semicolon =>
      match around with
      | [] =>
          .ok ⟨⟨head.name, head.define, prior.expression factor, lexeme.as ()⟩ :: rules,
            .between⟩
      | _ :: _ => .error (.unexpected (wantedCloser around))
  | .closing bracket =>
      match around with
      | [] => .error (.unexpected (wantedCloser around))
      | enclosure :: outer =>
          if enclosure.bracket = bracket then
            .ok ⟨rules, .holding head outer enclosure.prior
              (.bracketed bracket enclosure.opening (prior.expression factor)
                (lexeme.as ()))⟩
          else .error (.unexpected (wantedCloser around))
  | .name _ =>
      if comesNext .define ahead then .error (.unexpected (wantedCloser around)) else further
  | .literal _ => further
  | .opening _ => further
  | _ => .error (.unexpected (wantedCloser around))

def take (limit? : Option Nat) (state : State) (lexeme : Lexeme Sign)
    (ahead : List (Lexeme Sign)) : Except Cause State :=
  match state.place with
  | .between =>
      match lexeme.token with
      | .name name => .ok ⟨state.rules, .named (lexeme.as name)⟩
      | _ => .error (.unexpected .ruleName)
  | .named name =>
      match lexeme.token with
      | .define => .ok ⟨state.rules, .wanting ⟨name, lexeme.as ()⟩ [] {}⟩
      | _ => .error (.unexpected .definitionSign)
  | .wanting head around prior =>
      (takeFactor limit? head around prior lexeme).map (State.mk state.rules)
  | .holding head around prior factor =>
      match lexeme.token with
      | .operator operator =>
          .ok ⟨state.rules,
            .holding head around prior (.repeated factor (lexeme.as operator))⟩
      | _ => takeAfterFactor limit? state.rules head around prior factor lexeme ahead

def finish (state : State) : Except Cause (List Declaration) :=
  match state.place with
  | .between => .ok state.rules.reverse
  | .named _ => .error (.unexpected .definitionSign)
  | .wanting _ _ _ => .error (.unexpected .factor)
  | .holding _ around _ _ => .error (.unexpected (wantedCloser around))

/-- The reader of ISO-style EBNF, with a bound on the open brackets or without. -/
def reader (limit? : Option Nat) : Reader Sign State (List Declaration) where
  start := ⟨[], .between⟩
  take := take limit?
  finish := finish

end GrammarTable.Iso
