import GrammarTable.Proofs.Token.Foresight
import GrammarTable.Proofs.W3c.Derivation
import GrammarTable.Proofs.W3c.Limit

/-!
# Where the reader of W3C EBNF stops

The reader looks two lexemes ahead, since a label and a name in front of the sign of
definition start a rule. In every state the rule at hand can be completed: an operand if one
is wanted, and then the closers of all open parentheses.
-/

namespace GrammarTable.W3c

open Grammar Token

variable {limit : Nat} {limit? : Option Nat} {lexeme : Lexeme Sign}
  {ahead other more : List (Lexeme Sign)}

/-! ## How far the reader looks -/

theorem take_congr (state : State)
    (h : ruleStarts (lexeme :: ahead) = ruleStarts (lexeme :: other)) :
    take limit? state lexeme ahead = take limit? state lexeme other := by
  obtain ⟨rules, place⟩ := state
  cases place <;> simp only [take, takeAfterOperand, h]

theorem ruleStarts_take (lexeme : Lexeme Sign) (ahead : List (Lexeme Sign)) :
    ruleStarts (lexeme :: ahead.take 2) = ruleStarts (lexeme :: ahead) := by
  match ahead with
  | [] => rfl
  | [_] => rfl
  | _ :: _ :: _ => rfl

def Sign.mayStart : Sign → Bool
  | .name _ => true
  | .label _ => true
  | _ => false

/-- Whether a rule starts shows in the lexemes that are there, unless they could be the front
of its head. -/
theorem ruleStarts_append (lexeme : Lexeme Sign) (ahead more : List (Lexeme Sign)) :
    ruleStarts (lexeme :: ahead) = ruleStarts (lexeme :: (ahead ++ more)) ∨
      lexeme.token.mayStart = true ∧ ruleStarts (lexeme :: ahead) = false ∧
        (ahead = [] ∨ ∃ text second name, lexeme.token = .label text ∧
          second.token = .name name ∧ ahead = [second]) := by
  match ahead with
  | first :: second :: rest => exact .inl rfl
  | [] =>
      cases hstarts : lexeme.token.mayStart with
      | true => exact .inr ⟨rfl, rfl, .inl rfl⟩
      | false =>
          refine .inl ?_
          cases more with
          | nil => rfl
          | cons first rest =>
              cases htoken : lexeme.token <;> simp_all [ruleStarts, Sign.mayStart]
  | [second] =>
      cases htoken : lexeme.token with
      | label text =>
          cases hsecond : second.token with
          | name name =>
              refine .inr ⟨rfl, ?_, .inr ⟨text, second, name, rfl, hsecond, rfl⟩⟩
              simp [ruleStarts, htoken, hsecond, comesNext]
          | _ => exact .inl (by simp [ruleStarts, htoken, hsecond])
      | _ => exact .inl (by cases hsecond : second.token <;> simp [ruleStarts, htoken, hsecond])

/-- Behind an operand a name or a label is an item, unless a rule starts. -/
theorem exists_take_holding (rules : List Declaration) (head : Head) (around : List Enclosure)
    (prior : Prior) (operand : Operand) (hlexeme : lexeme.token.mayStart = true)
    (hstarts : ruleStarts (lexeme :: ahead) = false) :
    ∃ further item, take limit? ⟨rules, .holding head around prior operand⟩ lexeme ahead =
      .ok ⟨rules, .holding head around further item⟩ := by
  have hoperator : lexeme.token.isOperator = false := by
    cases htoken : lexeme.token <;> simp_all [Sign.mayStart, Sign.isOperator]
  rw [take_holding hoperator]
  cases htoken : lexeme.token <;> simp [htoken, Sign.mayStart] at hlexeme
  case name name =>
    simp only [takeAfterOperand, htoken, hstarts, takeOperand]
    exact ⟨_, _, rfl⟩
  case label text =>
    simp only [takeAfterOperand, htoken, hstarts, takeOperand]
    exact ⟨_, _, rfl⟩

/-- What is refused where no more lexemes follow is refused where some do. -/
theorem take_refuses {state : State} {wanted : Wanted}
    (h : take limit? state lexeme ahead = .error (.unexpected wanted)) :
    take limit? state lexeme (ahead ++ more) = .error (.unexpected wanted) := by
  rcases ruleStarts_append lexeme ahead more with hsame | ⟨hlexeme, hstarts, -⟩
  · rwa [← take_congr state hsame]
  · obtain ⟨rules, place⟩ := state
    cases place with
    | between => exact h
    | labelled label => exact h
    | named label? name => exact h
    | wanting head around prior => exact h
    | holding head around prior operand =>
        obtain ⟨further, item, htake⟩ :=
          exists_take_holding rules head around prior operand hlexeme hstarts
        exact nomatch htake.symm.trans h

/-- A name is taken in front of an operand, behind one, and behind a label. -/
theorem exists_take_name {state : State} {second : Lexeme Sign} {text name : String} {next : State}
    (hlabel : lexeme.token = .label text) (hname : second.token = .name name)
    (h : take limit? state lexeme [second] = .ok next) :
    ∃ last, take limit? next second [] = .ok last := by
  have hheld : ∀ rules head around prior operand, ∃ last,
      take limit? ⟨rules, .holding head around prior operand⟩ second [] = .ok last := by
    intro rules head around prior operand
    have hsecond : second.token.mayStart = true := by
      rw [hname]
      rfl
    have hlast : ruleStarts [second] = false := rfl
    obtain ⟨further, item, htake⟩ :=
      exists_take_holding rules head around prior operand hsecond hlast
    exact ⟨_, htake⟩
  obtain ⟨rules, place⟩ := state
  cases place with
  | between =>
      simp only [take, takeBetween, hlabel] at h
      obtain rfl := Except.ok.inj h
      simp only [take, hname]
      exact ⟨_, rfl⟩
  | labelled label => simp [take, hlabel] at h
  | named label? name => simp [take, hlabel] at h
  | wanting head around prior =>
      simp only [take, takeOperand, hlabel] at h
      obtain rfl := Except.ok.inj h
      exact hheld _ _ _ _ _
  | holding head around prior operand =>
      have hstarts : ruleStarts (lexeme :: [second]) = false := by
        simp [ruleStarts, hlabel, hname, comesNext]
      have hfirst : lexeme.token.mayStart = true := by
        rw [hlabel]
        rfl
      obtain ⟨further, item, htake⟩ :=
        exists_take_holding rules head around prior operand hfirst hstarts
      obtain rfl := Except.ok.inj (htake.symm.trans h)
      exact hheld _ _ _ _ _

theorem foresees : (reader limit?).Foresees 2 where
  take_eq state lexeme ahead := take_congr state (ruleStarts_take lexeme ahead)
  refuses _ _ _ _ _ := take_refuses
  takes state lexeme ahead more next h := by
    rcases ruleStarts_append lexeme ahead more with
      hsame | ⟨-, -, rfl | ⟨text, second, name, hlabel, hname, rfl⟩⟩
    · exact .inl ((take_congr state hsame).symm.trans h)
    · exact .inr ⟨next, rfl⟩
    · obtain ⟨last, hlast⟩ := exists_take_name hlabel hname h
      refine .inr ⟨last, ?_⟩
      have hstep : (reader limit?).take next second [] = .ok last := hlast
      rw [Reader.advance, hstep]
      rfl

/-! ## Completing the rule at hand -/

def anyClosing : Lexeme Unit :=
  ⟨(), ")", ⟨0, 0⟩⟩

def closers (around : List Enclosure) : List (Lexeme Sign) :=
  around.map fun _ => anyClosing.as .closing

/-- The choice at hand with everything around it. -/
def enclose : List Enclosure → Choice → Choice
  | [], body => body
  | ⟨prior, opening⟩ :: outer, body =>
      enclose outer (prior.choice (.plain (.group opening body anyClosing)))

theorem lexemes_enclose (around : List Enclosure) (body : Choice) :
    (enclose around body).lexemes = enclosed around ++ (body.lexemes ++ closers around) := by
  induction around generalizing body with
  | nil => simp [enclose, enclosed, closers]
  | cons enclosure outer ih =>
      obtain ⟨prior, opening⟩ := enclosure
      rw [enclose, ih, Prior.lexemes_choice]
      simp [Operand.lexemes, Primary.lexemes, enclosed, closers]

def anyName : Lexeme String :=
  ⟨"x", "x", ⟨0, 0⟩⟩

def anyOperand : Operand :=
  .plain (.reference anyName)

def anyDefine : Lexeme Unit :=
  ⟨(), "::=", ⟨0, 0⟩⟩

theorem lexemes_anyChoice :
    (Choice.one (.one (.alone anyOperand))).lexemes = anyOperand.lexemes := rfl

/-- The lexemes taken are the start of some that have a derivation, and nothing opens behind
them. -/
theorem State.exists_yield (state : State) :
    ∃ more declarations, yield declarations = state.lexemes ++ more ∧
      ∀ lexeme ∈ more, lexeme.token.nesting ≤ 0 := by
  obtain ⟨rules, place⟩ := state
  cases place with
  | between => exact ⟨[], rules.reverse, by simp [State.lexemes, Place.lexemes], nofun⟩
  | labelled label =>
      refine ⟨anyName.as (.name anyName.token) :: anyDefine.as .define :: anyOperand.lexemes,
        rules.reverse ++ [⟨some label, anyName, anyDefine, .one (.one (.alone anyOperand))⟩],
        ?_, ?_⟩
      · simp [State.lexemes, Place.lexemes, yield, Declaration.lexemes, lexemes_anyChoice]
      · simp [anyOperand, Operand.lexemes, Primary.lexemes, Sign.nesting]
  | named label? name =>
      refine ⟨anyDefine.as .define :: anyOperand.lexemes,
        rules.reverse ++ [⟨label?, name, anyDefine, .one (.one (.alone anyOperand))⟩], ?_, ?_⟩
      · simp [State.lexemes, Place.lexemes, yield, Declaration.lexemes, lexemes_anyChoice,
          labelLexemes]
      · simp [anyOperand, Operand.lexemes, Primary.lexemes, Sign.nesting]
  | wanting head around prior =>
      refine ⟨anyOperand.lexemes ++ closers around,
        rules.reverse ++ [⟨head.label?, head.name, head.define,
          enclose around (prior.choice anyOperand)⟩], ?_, ?_⟩
      · simp [State.lexemes, Place.lexemes, yield, Declaration.lexemes, Head.lexemes,
          lexemes_enclose, Prior.lexemes_choice, labelLexemes]
      · simp [anyOperand, Operand.lexemes, Primary.lexemes, closers, Sign.nesting, or_imp,
          forall_and]
  | holding head around prior operand =>
      refine ⟨closers around,
        rules.reverse ++ [⟨head.label?, head.name, head.define,
          enclose around (prior.choice operand)⟩], ?_, ?_⟩
      · simp [State.lexemes, Place.lexemes, yield, Declaration.lexemes, Head.lexemes,
          lexemes_enclose, Prior.lexemes_choice, labelLexemes]
      · simp [closers, Sign.nesting]

theorem pinpoints {lexemes : List (Lexeme Sign)} {failure : Failure Sign} {wanted : Wanted}
    (h : (reader (some limit)).read lexemes = .error failure)
    (hcause : failure.cause = .unexpected wanted) :
    (reader (some limit)).Pinpoints 2 lexemes failure := by
  refine foresees.pinpoints h hcause ?_
  intro index last hreaches
  have hview : last.lexemes = lexemes.take index :=
    hreaches.view_eq rfl fun _ _ _ _ => lexemes_take
  obtain ⟨more, declarations, hyield, hfalls⟩ := last.exists_yield
  rw [hview] at hyield
  have hwithin := nests.nestsWithin_completed hreaches hfalls
  exact ⟨more, settle declarations, read_eq_ok_settle hwithin hyield⟩

end GrammarTable.W3c
