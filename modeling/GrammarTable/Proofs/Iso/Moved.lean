import GrammarTable.Iso.Reader
import GrammarTable.Proofs.Rule.Moved

/-!
# ISO-style EBNF at other places

Phrases, and the states of the reader, may be moved with their lexemes. Reading and drafting
go along.
-/

namespace GrammarTable.Iso

open Grammar Rule Text Token

variable {g : Nat → Nat} {owner : String} {limit? : Option Nat}

/-! ## Phrases -/

mutual

def Factor.moved (g : Nat → Nat) : Factor → Factor
  | .reference name => .reference (name.moved g)
  | .literal text => .literal (text.moved g)
  | .bracketed bracket opening body closing =>
      .bracketed bracket (opening.moved g) (body.moved g) (closing.moved g)
  | .repeated factor operator => .repeated (factor.moved g) (operator.moved g)

def Term.moved (g : Nat → Nat) : Term → Term
  | .one factor => .one (factor.moved g)
  | .snoc before comma? factor =>
      .snoc (before.moved g) (comma?.map (Lexeme.moved g)) (factor.moved g)

def Expression.moved (g : Nat → Nat) : Expression → Expression
  | .one term => .one (term.moved g)
  | .or before bar term => .or (before.moved g) (bar.moved g) (term.moved g)

end

def Declaration.moved (g : Nat → Nat) (declaration : Declaration) : Declaration :=
  ⟨declaration.name.moved g, declaration.define.moved g, declaration.body.moved g,
    declaration.semicolon.moved g⟩

theorem Factor.start_moved (factor : Factor) : (factor.moved g).start = g factor.start := by
  cases factor with
  | reference name => rfl
  | literal text => rfl
  | bracketed bracket opening body closing => rfl
  | repeated factor operator => exact factor.start_moved

theorem Factor.stop_moved (factor : Factor) : (factor.moved g).stop = g factor.stop := by
  cases factor <;> rfl

theorem Term.start_moved (term : Term) : (term.moved g).start = g term.start := by
  cases term with
  | one factor => exact factor.start_moved
  | snoc before comma? factor => exact before.start_moved

theorem Term.stop_moved (term : Term) : (term.moved g).stop = g term.stop := by
  cases term with
  | one factor => exact factor.stop_moved
  | snoc before comma? factor => exact factor.stop_moved

theorem Term.span_moved (term : Term) : (term.moved g).span = term.span.moved g := by
  rw [Term.span, term.start_moved, term.stop_moved]
  rfl

theorem Expression.start_moved (expression : Expression) :
    (expression.moved g).start = g expression.start := by
  cases expression with
  | one term => exact term.start_moved
  | or before bar term => exact before.start_moved

theorem Expression.stop_moved (expression : Expression) :
    (expression.moved g).stop = g expression.stop := by
  cases expression with
  | one term => exact term.stop_moved
  | or before bar term => exact term.stop_moved

theorem Expression.span_moved (expression : Expression) :
    (expression.moved g).span = expression.span.moved g := by
  rw [Expression.span, expression.start_moved, expression.stop_moved]
  rfl

/-! ## Drafts -/

theorem repeatDraft_moved (start : Nat) (operators : List (Lexeme Operator)) (draft : Draft) :
    repeatDraft owner (g start) (operators.map (Lexeme.moved g)) (draft.moved g) =
      (repeatDraft owner start operators draft).moved g := by
  induction operators generalizing draft with
  | nil => rfl
  | cons operator rest ih =>
      have hinner := ih
        (.composite operator.token.kind owner ⟨start, operator.span.stop⟩ [draft])
      rw [Draft.moved_composite] at hinner
      exact hinner

mutual

theorem Factor.draftUnder_moved (factor : Factor) (operators : List (Lexeme Operator)) :
    (factor.moved g).draftUnder owner (operators.map (Lexeme.moved g)) =
      (factor.draftUnder owner operators).moved g := by
  cases factor with
  | reference name =>
      rw [Factor.moved, Factor.draftUnder, Factor.draftUnder, ← repeatDraft_moved,
        Draft.moved_leaf]
      rfl
  | literal text =>
      rw [Factor.moved, Factor.draftUnder, Factor.draftUnder, ← repeatDraft_moved,
        Draft.moved_leaf]
      rfl
  | bracketed bracket opening body closing =>
      have hbody := body.draftsOnto_moved []
      rw [List.map_nil] at hbody
      rw [Factor.moved, Factor.draftUnder, Factor.draftUnder, ← repeatDraft_moved,
        Draft.moved_composite, List.map_cons, Draft.moved_choice, hbody, body.span_moved]
      rfl
  | repeated factor operator =>
      rw [Factor.moved, Factor.draftUnder, Factor.draftUnder, ← List.map_cons,
        factor.draftUnder_moved]

theorem Term.draftsOnto_moved (term : Term) (later : List Draft) :
    (term.moved g).draftsOnto owner (later.map (Draft.moved g)) =
      (term.draftsOnto owner later).map (Draft.moved g) := by
  cases term with
  | one factor =>
      have hfactor := factor.draftUnder_moved []
      rw [List.map_nil] at hfactor
      rw [Term.moved, Term.draftsOnto, Term.draftsOnto, hfactor, List.map_cons]
  | snoc before comma? factor =>
      have hfactor := factor.draftUnder_moved []
      rw [List.map_nil] at hfactor
      rw [Term.moved, Term.draftsOnto, Term.draftsOnto, hfactor, ← List.map_cons,
        before.draftsOnto_moved]

theorem Expression.draftsOnto_moved (expression : Expression) (later : List Draft) :
    (expression.moved g).draftsOnto owner (later.map (Draft.moved g)) =
      (expression.draftsOnto owner later).map (Draft.moved g) := by
  cases expression with
  | one term =>
      have hterm := term.draftsOnto_moved []
      rw [List.map_nil] at hterm
      rw [Expression.moved, Expression.draftsOnto, Expression.draftsOnto, hterm,
        term.span_moved, List.map_cons, Draft.moved_sequence]
  | or before bar term =>
      have hterm := term.draftsOnto_moved []
      rw [List.map_nil] at hterm
      rw [Expression.moved, Expression.draftsOnto, Expression.draftsOnto, hterm,
        term.span_moved, ← before.draftsOnto_moved, List.map_cons, Draft.moved_sequence]

end

theorem Expression.draft_moved (expression : Expression) :
    (expression.moved g).draft owner = (expression.draft owner).moved g := by
  have hdrafts : (expression.moved g).draftsOnto owner [] =
      (expression.draftsOnto owner []).map (Draft.moved g) := expression.draftsOnto_moved []
  rw [Expression.draft, Expression.draft, hdrafts, expression.span_moved, Draft.moved_choice]

theorem Declaration.draft_moved (declaration : Declaration) :
    (declaration.moved g).draft = declaration.draft.moved g := by
  have hbody : (declaration.body.moved g).draft declaration.name.token =
      (declaration.body.draft declaration.name.token).moved g := declaration.body.draft_moved
  rw [Declaration.draft, Declaration.draft, Draft.moved_rule, ← hbody]
  rfl

/-! ## Reading -/

def Head.moved (g : Nat → Nat) (head : Head) : Head :=
  ⟨head.name.moved g, head.define.moved g⟩

def Prior.moved (g : Nat → Nat) (prior : Prior) : Prior where
  terms? := prior.terms?.map fun (terms, bar) => (terms.moved g, bar.moved g)
  factors? :=
    prior.factors?.map fun (factors, comma?) => (factors.moved g, comma?.map (Lexeme.moved g))

def Enclosure.moved (g : Nat → Nat) (enclosure : Enclosure) : Enclosure :=
  ⟨enclosure.prior.moved g, enclosure.bracket, enclosure.opening.moved g⟩

def Place.moved (g : Nat → Nat) : Place → Place
  | .between => .between
  | .named name => .named (name.moved g)
  | .wanting head around prior =>
      .wanting (head.moved g) (around.map (Enclosure.moved g)) (prior.moved g)
  | .holding head around prior factor =>
      .holding (head.moved g) (around.map (Enclosure.moved g)) (prior.moved g)
        (factor.moved g)

def State.moved (g : Nat → Nat) (state : State) : State :=
  ⟨state.rules.map (Declaration.moved g), state.place.moved g⟩

section Reading

variable {rules : List Declaration} {head : Head} {around : List Enclosure} {prior : Prior}
  {factor : Factor} {lexeme : Lexeme Sign} {ahead : List (Lexeme Sign)}

theorem Prior.term_moved (prior : Prior) (factor : Factor) :
    (prior.moved g).term (factor.moved g) = (prior.term factor).moved g := by
  obtain ⟨terms?, factors?⟩ := prior
  cases factors? with
  | none => simp [Prior.term, Prior.moved, Term.moved]
  | some before => simp [Prior.term, Prior.moved, Term.moved]

theorem Prior.expression_moved (prior : Prior) (factor : Factor) :
    (prior.moved g).expression (factor.moved g) = (prior.expression factor).moved g := by
  have hterm := prior.term_moved (g := g) factor
  obtain ⟨terms?, factors?⟩ := prior
  cases terms? with
  | none =>
      rw [Prior.expression, Prior.expression, hterm]
      simp [Prior.moved, Expression.moved]
  | some before =>
      rw [Prior.expression, Prior.expression, hterm]
      simp [Prior.moved, Expression.moved]

theorem wantedCloser_moved (around : List Enclosure) :
    wantedCloser (around.map (Enclosure.moved g)) = wantedCloser around := by
  cases around <;> rfl

theorem takeFactor_moved (prior : Prior) :
    takeFactor limit? (head.moved g) (around.map (Enclosure.moved g)) (prior.moved g)
        (lexeme.moved g) =
      (takeFactor limit? head around prior lexeme).map (Place.moved g) := by
  cases htoken : lexeme.token <;>
    simp only [takeFactor, Lexeme.token_moved, htoken, List.length_map]
  case opening bracket => cases isFull limit? around.length <;> rfl
  all_goals rfl

theorem takeAfterFactor_moved :
    takeAfterFactor limit? (rules.map (Declaration.moved g)) (head.moved g)
        (around.map (Enclosure.moved g)) (prior.moved g) (factor.moved g) (lexeme.moved g)
        (ahead.map (Lexeme.moved g)) =
      (takeAfterFactor limit? rules head around prior factor lexeme ahead).map
        (State.moved g) := by
  have hfurther : (takeFactor limit? (head.moved g) (around.map (Enclosure.moved g))
      { terms? := (prior.moved g).terms?, factors? := some ((prior.term factor).moved g, none) }
      (lexeme.moved g)).map (State.mk (rules.map (Declaration.moved g))) =
        ((takeFactor limit? head around
          { terms? := prior.terms?, factors? := some (prior.term factor, none) } lexeme).map
          (State.mk rules)).map (State.moved g) := by
    refine (congrArg (Except.map (State.mk (rules.map (Declaration.moved g))))
      (takeFactor_moved
        { terms? := prior.terms?, factors? := some (prior.term factor, none) })).trans ?_
    cases takeFactor limit? head around
      { terms? := prior.terms?, factors? := some (prior.term factor, none) } lexeme <;> rfl
  cases htoken : lexeme.token <;>
    simp only [takeAfterFactor, Lexeme.token_moved, htoken, comesNext_moved,
      wantedCloser_moved, Prior.term_moved, Prior.expression_moved, hfurther]
  case name name => cases comesNext .define ahead <;> rfl
  case semicolon => cases around <;> rfl
  case closing bracket =>
    cases around with
    | nil => rfl
    | cons enclosure outer =>
        by_cases hmatches : enclosure.bracket = bracket <;>
          simp only [List.map_cons, Enclosure.moved, hmatches, if_true, if_false] <;> rfl
  all_goals rfl

theorem take_moved (state : State) (lexeme : Lexeme Sign) (ahead : List (Lexeme Sign)) :
    take limit? (state.moved g) (lexeme.moved g) (ahead.map (Lexeme.moved g)) =
      (take limit? state lexeme ahead).map (State.moved g) := by
  obtain ⟨rules, place⟩ := state
  cases place with
  | between =>
      cases htoken : lexeme.token <;>
        simp only [take, State.moved, Place.moved, Lexeme.token_moved, htoken] <;> rfl
  | named name =>
      cases htoken : lexeme.token <;>
        simp only [take, State.moved, Place.moved, Lexeme.token_moved, htoken] <;> rfl
  | wanting head around prior =>
      simp only [take, State.moved, Place.moved, takeFactor_moved]
      cases takeFactor limit? head around prior lexeme <;> rfl
  | holding head around prior factor =>
      cases htoken : lexeme.token <;>
        simp only [take, State.moved, Place.moved, Lexeme.token_moved, htoken,
          takeAfterFactor_moved]
      case operator operator => rfl

theorem finish_moved (state : State) :
    finish (state.moved g) = (finish state).map (List.map (Declaration.moved g)) := by
  obtain ⟨rules, place⟩ := state
  cases place with
  | between => simp [finish, State.moved, Place.moved, Except.map]
  | named name => rfl
  | wanting head around prior => rfl
  | holding head around prior factor =>
      simp only [finish, State.moved, Place.moved, wantedCloser_moved]
      rfl

end Reading

theorem moves : (reader limit?).Moves g (State.moved g) (List.map (Declaration.moved g)) where
  start_eq := rfl
  take_eq := take_moved
  finish_eq := finish_moved

end GrammarTable.Iso
