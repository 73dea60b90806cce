import GrammarTable.Bnf.Reader
import GrammarTable.Proofs.Rule.Moved

/-!
# BNF at other places

Phrases, and the states of the reader, may be moved with their lexemes. Reading and drafting
go along.
-/

namespace GrammarTable.Bnf

open Grammar Rule Text Token

variable {g : Nat → Nat} {owner : String}

/-! ## Phrases -/

def Item.moved (g : Nat → Nat) : Item → Item
  | .reference name => .reference (name.moved g)
  | .literal text => .literal (text.moved g)

def Sequence.moved (g : Nat → Nat) : Sequence → Sequence
  | .one item => .one (item.moved g)
  | .snoc before item => .snoc (before.moved g) (item.moved g)

def Body.moved (g : Nat → Nat) : Body → Body
  | .one sequence => .one (sequence.moved g)
  | .or before bar sequence => .or (before.moved g) (bar.moved g) (sequence.moved g)

def Declaration.moved (g : Nat → Nat) (declaration : Declaration) : Declaration :=
  ⟨declaration.name.moved g, declaration.define.moved g, declaration.body.moved g⟩

theorem Item.span_moved (item : Item) : (item.moved g).span = item.span.moved g := by
  cases item <;> rfl

theorem Sequence.start_moved (sequence : Sequence) :
    (sequence.moved g).start = g sequence.start := by
  induction sequence with
  | one item => exact congrArg Span.start item.span_moved
  | snoc before item ih => exact ih

theorem Sequence.stop_moved (sequence : Sequence) :
    (sequence.moved g).stop = g sequence.stop := by
  cases sequence with
  | one item => exact congrArg Span.stop item.span_moved
  | snoc before item => exact congrArg Span.stop item.span_moved

theorem Sequence.span_moved (sequence : Sequence) :
    (sequence.moved g).span = sequence.span.moved g := by
  rw [Sequence.span, sequence.start_moved, sequence.stop_moved]
  rfl

theorem Body.start_moved (body : Body) : (body.moved g).start = g body.start := by
  induction body with
  | one sequence => exact sequence.start_moved
  | or before bar sequence ih => exact ih

theorem Body.stop_moved (body : Body) : (body.moved g).stop = g body.stop := by
  cases body with
  | one sequence => exact sequence.stop_moved
  | or before bar sequence => exact sequence.stop_moved

theorem Body.span_moved (body : Body) : (body.moved g).span = body.span.moved g := by
  rw [Body.span, body.start_moved, body.stop_moved]
  rfl

/-! ## Drafts -/

theorem Item.draft_moved (item : Item) : (item.moved g).draft = item.draft.moved g := by
  cases item with
  | reference name => exact (Draft.moved_leaf _ _ _).symm
  | literal text => exact (Draft.moved_leaf _ _ _).symm

theorem Sequence.draftsOnto_moved (sequence : Sequence) (later : List Draft) :
    (sequence.moved g).draftsOnto (later.map (Draft.moved g)) =
      (sequence.draftsOnto later).map (Draft.moved g) := by
  induction sequence generalizing later with
  | one item =>
      rw [Sequence.moved, Sequence.draftsOnto, Sequence.draftsOnto, item.draft_moved,
        List.map_cons]
  | snoc before item ih =>
      rw [Sequence.moved, Sequence.draftsOnto, Sequence.draftsOnto, item.draft_moved,
        ← List.map_cons, ih]

theorem Sequence.draft_moved (sequence : Sequence) :
    (sequence.moved g).draft owner = (sequence.draft owner).moved g := by
  have hdrafts : (sequence.moved g).draftsOnto [] =
      (sequence.draftsOnto []).map (Draft.moved g) := sequence.draftsOnto_moved []
  rw [Sequence.draft, Sequence.draft, hdrafts, sequence.span_moved, Draft.moved_sequence]

theorem Body.draftsOnto_moved (body : Body) (later : List Draft) :
    (body.moved g).draftsOnto owner (later.map (Draft.moved g)) =
      (body.draftsOnto owner later).map (Draft.moved g) := by
  induction body generalizing later with
  | one sequence =>
      rw [Body.moved, Body.draftsOnto, Body.draftsOnto, sequence.draft_moved, List.map_cons]
  | or before bar sequence ih =>
      rw [Body.moved, Body.draftsOnto, Body.draftsOnto, sequence.draft_moved,
        ← List.map_cons, ih]

theorem Body.draft_moved (body : Body) :
    (body.moved g).draft owner = (body.draft owner).moved g := by
  have hdrafts : (body.moved g).draftsOnto owner [] =
      (body.draftsOnto owner []).map (Draft.moved g) := body.draftsOnto_moved []
  rw [Body.draft, Body.draft, hdrafts, body.span_moved, Draft.moved_choice]

theorem Declaration.draft_moved (declaration : Declaration) :
    (declaration.moved g).draft = declaration.draft.moved g := by
  have hbody : (declaration.body.moved g).draft declaration.name.token =
      (declaration.body.draft declaration.name.token).moved g := declaration.body.draft_moved
  have hstop := declaration.body.stop_moved (g := g)
  rw [Declaration.draft, Declaration.draft, Draft.moved_rule, ← hbody]
  simp only [Declaration.moved, Lexeme.token_moved, hstop]
  rfl

/-! ## Reading -/

def Head.moved (g : Nat → Nat) (head : Head) : Head :=
  ⟨head.name.moved g, head.define.moved g⟩

def movedBefore (g : Nat → Nat) (before : Option (Body × Lexeme Unit)) :
    Option (Body × Lexeme Unit) :=
  before.map fun (body, bar) => (body.moved g, bar.moved g)

def Place.moved (g : Nat → Nat) : Place → Place
  | .between => .between
  | .named name => .named (name.moved g)
  | .wanting head before => .wanting (head.moved g) (movedBefore g before)
  | .holding head before sequence =>
      .holding (head.moved g) (movedBefore g before) (sequence.moved g)

def State.moved (g : Nat → Nat) (state : State) : State :=
  ⟨state.rules.map (Declaration.moved g), state.place.moved g⟩

theorem closeBody_moved (before : Option (Body × Lexeme Unit)) (sequence : Sequence) :
    closeBody (movedBefore g before) (sequence.moved g) =
      (closeBody before sequence).moved g := by
  cases before <;> rfl

theorem takeBetween_moved (rules : List Declaration) (lexeme : Lexeme Sign) :
    takeBetween (rules.map (Declaration.moved g)) (lexeme.moved g) =
      (takeBetween rules lexeme).map (State.moved g) := by
  cases htoken : lexeme.token <;> simp only [takeBetween, Lexeme.token_moved, htoken] <;> rfl

theorem take_moved (state : State) (lexeme : Lexeme Sign) (ahead : List (Lexeme Sign)) :
    take (state.moved g) (lexeme.moved g) (ahead.map (Lexeme.moved g)) =
      (take state lexeme ahead).map (State.moved g) := by
  obtain ⟨rules, place⟩ := state
  cases place with
  | between => exact takeBetween_moved rules lexeme
  | named name =>
      cases htoken : lexeme.token <;>
        simp only [take, State.moved, Place.moved, Lexeme.token_moved, htoken] <;> rfl
  | wanting head before =>
      cases htoken : lexeme.token <;>
        simp only [take, State.moved, Place.moved, Lexeme.token_moved, htoken,
          comesNext_moved]
      case name name => cases comesNext .define ahead <;> rfl
      all_goals rfl
  | holding head before sequence =>
      have hbetween : takeBetween (⟨head.name.moved g, head.define.moved g,
          (closeBody before sequence).moved g⟩ :: rules.map (Declaration.moved g))
            (lexeme.moved g) =
          (takeBetween (⟨head.name, head.define, closeBody before sequence⟩ :: rules)
            lexeme).map (State.moved g) :=
        takeBetween_moved (⟨head.name, head.define, closeBody before sequence⟩ :: rules) lexeme
      cases htoken : lexeme.token <;>
        simp only [take, State.moved, Place.moved, Head.moved, Lexeme.token_moved, htoken,
          comesNext_moved, hbetween, closeBody_moved]
      case name name => cases comesNext .define ahead <;> rfl
      all_goals rfl

theorem finish_moved (state : State) :
    finish (state.moved g) = (finish state).map (List.map (Declaration.moved g)) := by
  obtain ⟨rules, place⟩ := state
  cases place with
  | between => simp [finish, State.moved, Place.moved, Except.map]
  | named name => rfl
  | wanting head before => rfl
  | holding head before sequence =>
      simp [finish, State.moved, Place.moved, Head.moved, closeBody_moved, Declaration.moved,
        Except.map]

theorem moves : reader.Moves g (State.moved g) (List.map (Declaration.moved g)) where
  start_eq := rfl
  take_eq := take_moved
  finish_eq := finish_moved

end GrammarTable.Bnf
