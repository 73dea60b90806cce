import GrammarTable.Proofs.Rule.Moved
import GrammarTable.W3c.Reader

/-!
# W3C EBNF at other places

Phrases, and the states of the reader, may be moved with their lexemes. Reading and drafting
go along.
-/

namespace GrammarTable.W3c

open Grammar Rule Text Token

variable {g : Nat → Nat} {owner : String} {limit? : Option Nat}

/-! ## Phrases -/

mutual

def Primary.moved (g : Nat → Nat) : Primary → Primary
  | .reference name => .reference (name.moved g)
  | .literal text => .literal (text.moved g)
  | .pattern text => .pattern (text.moved g)
  | .label text => .label (text.moved g)
  | .group opening body closing => .group (opening.moved g) (body.moved g) (closing.moved g)

def Operand.moved (g : Nat → Nat) : Operand → Operand
  | .plain primary => .plain (primary.moved g)
  | .repeated primary operator => .repeated (primary.moved g) (operator.moved g)

def Item.moved (g : Nat → Nat) : Item → Item
  | .alone operand => .alone (operand.moved g)
  | .difference left minus right =>
      .difference (left.moved g) (minus.moved g) (right.moved g)

def Sequence.moved (g : Nat → Nat) : Sequence → Sequence
  | .one item => .one (item.moved g)
  | .snoc before item => .snoc (before.moved g) (item.moved g)

def Choice.moved (g : Nat → Nat) : Choice → Choice
  | .one sequence => .one (sequence.moved g)
  | .or before bar sequence => .or (before.moved g) (bar.moved g) (sequence.moved g)

end

def Declaration.moved (g : Nat → Nat) (declaration : Declaration) : Declaration :=
  ⟨declaration.label?.map (Lexeme.moved g), declaration.name.moved g,
    declaration.define.moved g, declaration.body.moved g⟩

theorem Primary.span_moved (primary : Primary) :
    (primary.moved g).span = primary.span.moved g := by
  cases primary <;> rfl

theorem Operand.span_moved (operand : Operand) :
    (operand.moved g).span = operand.span.moved g := by
  cases operand with
  | plain primary => exact primary.span_moved
  | repeated primary operator =>
      rw [Operand.moved, Operand.span, primary.span_moved]
      rfl

theorem Item.span_moved (item : Item) : (item.moved g).span = item.span.moved g := by
  cases item with
  | alone operand => exact operand.span_moved
  | difference left minus right =>
      rw [Item.moved, Item.span, left.span_moved, right.span_moved]
      rfl

theorem Sequence.start_moved (sequence : Sequence) :
    (sequence.moved g).start = g sequence.start := by
  cases sequence with
  | one item => exact congrArg Span.start item.span_moved
  | snoc before item => exact before.start_moved

theorem Sequence.stop_moved (sequence : Sequence) :
    (sequence.moved g).stop = g sequence.stop := by
  cases sequence with
  | one item => exact congrArg Span.stop item.span_moved
  | snoc before item => exact congrArg Span.stop item.span_moved

theorem Sequence.span_moved (sequence : Sequence) :
    (sequence.moved g).span = sequence.span.moved g := by
  rw [Sequence.span, sequence.start_moved, sequence.stop_moved]
  rfl

theorem Choice.start_moved (choice : Choice) : (choice.moved g).start = g choice.start := by
  cases choice with
  | one sequence => exact sequence.start_moved
  | or before bar sequence => exact before.start_moved

theorem Choice.stop_moved (choice : Choice) : (choice.moved g).stop = g choice.stop := by
  cases choice with
  | one sequence => exact sequence.stop_moved
  | or before bar sequence => exact sequence.stop_moved

theorem Choice.span_moved (choice : Choice) : (choice.moved g).span = choice.span.moved g := by
  rw [Choice.span, choice.start_moved, choice.stop_moved]
  rfl

theorem Declaration.start_moved (declaration : Declaration) :
    (declaration.moved g).start = g declaration.start := by
  obtain ⟨label?, name, define, body⟩ := declaration
  cases label? <;> rfl

/-! ## Drafts -/

mutual

theorem Primary.draft_moved (primary : Primary) :
    (primary.moved g).draft owner = (primary.draft owner).moved g := by
  cases primary with
  | reference name => exact (Draft.moved_leaf _ _ _).symm
  | literal text => exact (Draft.moved_leaf _ _ _).symm
  | pattern text => exact (Draft.moved_leaf _ _ _).symm
  | label text => exact (Draft.moved_leaf _ _ _).symm
  | group opening body closing =>
      have hbody := body.draftsOnto_moved []
      rw [List.map_nil] at hbody
      rw [Primary.moved, Primary.draft, Primary.draft, Draft.moved_composite, List.map_cons,
        Draft.moved_choice, hbody, body.span_moved]
      rfl

theorem Operand.draft_moved (operand : Operand) :
    (operand.moved g).draft owner = (operand.draft owner).moved g := by
  cases operand with
  | plain primary => exact primary.draft_moved
  | repeated primary operator =>
      rw [Operand.moved, Operand.draft, Operand.draft, Draft.moved_composite, List.map_cons,
        primary.draft_moved, primary.span_moved]
      rfl

theorem Item.draft_moved (item : Item) :
    (item.moved g).draft owner = (item.draft owner).moved g := by
  cases item with
  | alone operand => exact operand.draft_moved
  | difference left minus right =>
      rw [Item.moved, Item.draft, Item.draft, Draft.moved_composite, List.map_cons,
        List.map_cons, left.draft_moved, right.draft_moved, left.span_moved, right.span_moved]
      rfl

theorem Sequence.draftsOnto_moved (sequence : Sequence) (later : List Draft) :
    (sequence.moved g).draftsOnto owner (later.map (Draft.moved g)) =
      (sequence.draftsOnto owner later).map (Draft.moved g) := by
  cases sequence with
  | one item =>
      rw [Sequence.moved, Sequence.draftsOnto, Sequence.draftsOnto, item.draft_moved,
        List.map_cons]
  | snoc before item =>
      rw [Sequence.moved, Sequence.draftsOnto, Sequence.draftsOnto, item.draft_moved,
        ← List.map_cons, before.draftsOnto_moved]

theorem Choice.draftsOnto_moved (choice : Choice) (later : List Draft) :
    (choice.moved g).draftsOnto owner (later.map (Draft.moved g)) =
      (choice.draftsOnto owner later).map (Draft.moved g) := by
  cases choice with
  | one sequence =>
      have hsequence := sequence.draftsOnto_moved []
      rw [List.map_nil] at hsequence
      rw [Choice.moved, Choice.draftsOnto, Choice.draftsOnto, hsequence, sequence.span_moved,
        List.map_cons, Draft.moved_sequence]
  | or before bar sequence =>
      have hsequence := sequence.draftsOnto_moved []
      rw [List.map_nil] at hsequence
      rw [Choice.moved, Choice.draftsOnto, Choice.draftsOnto, hsequence, sequence.span_moved,
        ← before.draftsOnto_moved, List.map_cons, Draft.moved_sequence]

end

theorem Choice.draft_moved (choice : Choice) :
    (choice.moved g).draft owner = (choice.draft owner).moved g := by
  have hdrafts : (choice.moved g).draftsOnto owner [] =
      (choice.draftsOnto owner []).map (Draft.moved g) := choice.draftsOnto_moved []
  rw [Choice.draft, Choice.draft, hdrafts, choice.span_moved, Draft.moved_choice]

theorem Declaration.draft_moved (declaration : Declaration) :
    (declaration.moved g).draft = declaration.draft.moved g := by
  have hbody : (declaration.body.moved g).draft declaration.name.token =
      (declaration.body.draft declaration.name.token).moved g := declaration.body.draft_moved
  have hstop := declaration.body.stop_moved (g := g)
  rw [Declaration.draft, Declaration.draft, Draft.moved_rule, ← hbody,
    declaration.start_moved]
  simp only [Declaration.moved, Lexeme.token_moved, hstop]
  rfl

/-! ## Reading -/

def Head.moved (g : Nat → Nat) (head : Head) : Head :=
  ⟨head.label?.map (Lexeme.moved g), head.name.moved g, head.define.moved g⟩

def Prior.moved (g : Nat → Nat) (prior : Prior) : Prior where
  alternatives? :=
    prior.alternatives?.map fun (alternatives, bar) => (alternatives.moved g, bar.moved g)
  items? := prior.items?.map (Sequence.moved g)
  left? := prior.left?.map fun (left, minus) => (left.moved g, minus.moved g)

def Enclosure.moved (g : Nat → Nat) (enclosure : Enclosure) : Enclosure :=
  ⟨enclosure.prior.moved g, enclosure.opening.moved g⟩

def Place.moved (g : Nat → Nat) : Place → Place
  | .between => .between
  | .labelled label => .labelled (label.moved g)
  | .named label? name => .named (label?.map (Lexeme.moved g)) (name.moved g)
  | .wanting head around prior =>
      .wanting (head.moved g) (around.map (Enclosure.moved g)) (prior.moved g)
  | .holding head around prior operand =>
      .holding (head.moved g) (around.map (Enclosure.moved g)) (prior.moved g)
        (operand.moved g)

def State.moved (g : Nat → Nat) (state : State) : State :=
  ⟨state.rules.map (Declaration.moved g), state.place.moved g⟩

section Reading

variable {rules : List Declaration} {head : Head} {around : List Enclosure} {prior : Prior}
  {operand : Operand} {body : Choice} {lexeme : Lexeme Sign} {ahead : List (Lexeme Sign)}

theorem Prior.item_moved (prior : Prior) (operand : Operand) :
    (prior.moved g).item (operand.moved g) = (prior.item operand).moved g := by
  obtain ⟨alternatives?, items?, left?⟩ := prior
  cases left? with
  | none => simp [Prior.item, Prior.moved, Item.moved]
  | some left => simp [Prior.item, Prior.moved, Item.moved]

theorem Prior.sequence_moved (prior : Prior) (operand : Operand) :
    (prior.moved g).sequence (operand.moved g) = (prior.sequence operand).moved g := by
  have hitem := prior.item_moved (g := g) operand
  obtain ⟨alternatives?, items?, left?⟩ := prior
  cases items? with
  | none =>
      rw [Prior.sequence, Prior.sequence, hitem]
      simp [Prior.moved, Sequence.moved]
  | some items =>
      rw [Prior.sequence, Prior.sequence, hitem]
      simp [Prior.moved, Sequence.moved]

theorem Prior.choice_moved (prior : Prior) (operand : Operand) :
    (prior.moved g).choice (operand.moved g) = (prior.choice operand).moved g := by
  have hsequence := prior.sequence_moved (g := g) operand
  obtain ⟨alternatives?, items?, left?⟩ := prior
  cases alternatives? with
  | none =>
      rw [Prior.choice, Prior.choice, hsequence]
      simp [Prior.moved, Choice.moved]
  | some alternatives =>
      rw [Prior.choice, Prior.choice, hsequence]
      simp [Prior.moved, Choice.moved]

theorem ruleStarts_moved (lexemes : List (Lexeme Sign)) :
    ruleStarts (lexemes.map (Lexeme.moved g)) = ruleStarts lexemes := by
  match lexemes with
  | [] => rfl
  | [first] => rfl
  | first :: second :: rest =>
      simp only [List.map_cons, ruleStarts, Lexeme.token_moved, comesNext_moved]

theorem takeBetween_moved (rules : List Declaration) :
    takeBetween (rules.map (Declaration.moved g)) (lexeme.moved g) =
      (takeBetween rules lexeme).map (State.moved g) := by
  cases htoken : lexeme.token <;> simp only [takeBetween, Lexeme.token_moved, htoken] <;> rfl

theorem takeOperand_moved (prior : Prior) :
    takeOperand limit? (head.moved g) (around.map (Enclosure.moved g)) (prior.moved g)
        (lexeme.moved g) =
      (takeOperand limit? head around prior lexeme).map (Place.moved g) := by
  cases htoken : lexeme.token <;>
    simp only [takeOperand, Lexeme.token_moved, htoken, List.length_map]
  case opening => cases isFull limit? around.length <;> rfl
  all_goals rfl

theorem takeAfterChoice_moved :
    takeAfterChoice (rules.map (Declaration.moved g)) (head.moved g)
        (around.map (Enclosure.moved g)) (body.moved g) (lexeme.moved g) =
      (takeAfterChoice rules head around body lexeme).map (State.moved g) := by
  cases around with
  | nil =>
      exact takeBetween_moved (⟨head.label?, head.name, head.define, body⟩ :: rules)
  | cons enclosure outer =>
      cases htoken : lexeme.token <;>
        simp only [takeAfterChoice, List.map_cons, Lexeme.token_moved, htoken] <;> rfl

theorem takeAfterOperand_moved :
    takeAfterOperand limit? (rules.map (Declaration.moved g)) (head.moved g)
        (around.map (Enclosure.moved g)) (prior.moved g) (operand.moved g) (lexeme.moved g)
        (ahead.map (Lexeme.moved g)) =
      (takeAfterOperand limit? rules head around prior operand lexeme ahead).map
        (State.moved g) := by
  have hoperand : (takeOperand limit? (head.moved g) (around.map (Enclosure.moved g))
      { alternatives? := (prior.moved g).alternatives?,
        items? := some ((prior.sequence operand).moved g) } (lexeme.moved g)).map
          (State.mk (rules.map (Declaration.moved g))) =
        ((takeOperand limit? head around
          { alternatives? := prior.alternatives?, items? := some (prior.sequence operand) }
          lexeme).map (State.mk rules)).map (State.moved g) := by
    refine (congrArg (Except.map (State.mk (rules.map (Declaration.moved g))))
      (takeOperand_moved
        { alternatives? := prior.alternatives?,
          items? := some (prior.sequence operand) })).trans ?_
    cases takeOperand limit? head around
      { alternatives? := prior.alternatives?, items? := some (prior.sequence operand) }
      lexeme <;> rfl
  have hstarts := ruleStarts_moved (g := g) (lexeme :: ahead)
  rw [List.map_cons] at hstarts
  cases htoken : lexeme.token <;>
    simp only [takeAfterOperand, Lexeme.token_moved, htoken, Prior.choice_moved,
      Prior.sequence_moved, takeAfterChoice_moved, hstarts, hoperand]
  case minus =>
    have hleft : (prior.moved g).left? =
      prior.left?.map fun (left, minus) => (left.moved g, minus.moved g) := rfl
    rw [hleft]
    cases prior.left? <;> rfl
  case bar => rfl
  all_goals cases ruleStarts (lexeme :: ahead) <;> rfl

theorem take_moved (state : State) (lexeme : Lexeme Sign) (ahead : List (Lexeme Sign)) :
    take limit? (state.moved g) (lexeme.moved g) (ahead.map (Lexeme.moved g)) =
      (take limit? state lexeme ahead).map (State.moved g) := by
  obtain ⟨rules, place⟩ := state
  cases place with
  | between => exact takeBetween_moved rules
  | labelled label =>
      cases htoken : lexeme.token <;>
        simp only [take, State.moved, Place.moved, Lexeme.token_moved, htoken] <;> rfl
  | named label? name =>
      cases htoken : lexeme.token <;>
        simp only [take, State.moved, Place.moved, Lexeme.token_moved, htoken] <;> rfl
  | wanting head around prior =>
      simp only [take, State.moved, Place.moved, takeOperand_moved]
      cases takeOperand limit? head around prior lexeme <;> rfl
  | holding head around prior operand =>
      have hbehind : takeAfterOperand limit? (rules.map (Declaration.moved g)) (head.moved g)
          (around.map (Enclosure.moved g)) (prior.moved g) (operand.moved g) (lexeme.moved g)
          (ahead.map (Lexeme.moved g)) =
        (takeAfterOperand limit? rules head around prior operand lexeme ahead).map
          (State.moved g) := takeAfterOperand_moved
      cases operand <;> cases htoken : lexeme.token <;>
        simp only [take, State.moved, Place.moved, Operand.moved, Lexeme.token_moved, htoken]
      case plain.operator primary operator => rfl
      all_goals exact hbehind

theorem finish_moved (state : State) :
    finish (state.moved g) = (finish state).map (List.map (Declaration.moved g)) := by
  obtain ⟨rules, place⟩ := state
  cases place with
  | between => simp [finish, State.moved, Place.moved, Except.map]
  | labelled label => rfl
  | named label? name => rfl
  | wanting head around prior => rfl
  | holding head around prior operand =>
      cases around with
      | nil =>
          simp [finish, State.moved, Place.moved, Head.moved, Prior.choice_moved,
            Declaration.moved, Except.map]
      | cons enclosure outer => rfl

end Reading

theorem moves : (reader limit?).Moves g (State.moved g) (List.map (Declaration.moved g)) where
  start_eq := rfl
  take_eq := take_moved
  finish_eq := finish_moved

end GrammarTable.W3c
