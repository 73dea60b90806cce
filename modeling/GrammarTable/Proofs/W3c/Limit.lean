import GrammarTable.Proofs.Token.Limit
import GrammarTable.Proofs.W3c.Completeness

/-!
# The depth of the reader of W3C EBNF

The depth of a state is the number of parentheses that it keeps. A rule ends where the next
one starts, and it does so outside all parentheses.
-/

namespace GrammarTable.W3c

open Grammar Token

variable {limit : Nat} {rules : List Declaration} {head : Head} {around : List Enclosure}
  {prior : Prior} {operand : Operand} {body : Choice} {lexeme : Lexeme Sign}
  {ahead : List (Lexeme Sign)}

/-- The number of open parentheses. -/
def Place.depth : Place → Nat
  | .between => 0
  | .labelled _ => 0
  | .named _ _ => 0
  | .wanting _ around _ => around.length
  | .holding _ around _ _ => around.length

def State.depth (state : State) : Nat :=
  state.place.depth

theorem Sign.nesting_cases (sign : Sign) :
    sign.nesting = 1 ∨ sign.nesting = 0 ∨ sign.nesting = -1 := by
  cases sign <;> simp [Sign.nesting]

theorem Sign.nesting_eq_one_iff {sign : Sign} : sign.nesting = 1 ↔ sign = .opening := by
  cases sign <;> simp [Sign.nesting]

theorem Sign.nesting_of_isOperator {sign : Sign} (h : sign.isOperator = true) :
    sign.nesting = 0 := by
  cases sign <;> simp [isOperator, nesting] at h ⊢

/-! ## With a limit and without -/

theorem takeOperand_limited :
    takeOperand (some limit) head around prior lexeme =
      capped (lexeme.token.nesting = 1 ∧ limit ≤ around.length)
        (takeOperand none head around prior lexeme) := by
  unfold takeOperand
  cases lexeme.token <;> simp [Sign.nesting, isFull, capped]

theorem ruleStarts_opening (h : lexeme.token = .opening) :
    ruleStarts (lexeme :: ahead) = false := by
  cases ahead with
  | nil => rfl
  | cons next rest => simp [ruleStarts, h]

theorem takeAfterOperand_limited :
    takeAfterOperand (some limit) rules head around prior operand lexeme ahead =
      capped (lexeme.token.nesting = 1 ∧ limit ≤ around.length)
        (takeAfterOperand none rules head around prior operand lexeme ahead) := by
  simp only [takeAfterOperand, takeOperand_limited, map_capped]
  by_cases hopening : lexeme.token.nesting = 1
  · have htoken := Sign.nesting_eq_one_iff.mp hopening
    simp [htoken, ruleStarts_opening htoken]
  · have hroom : ¬ (lexeme.token.nesting = 1 ∧ limit ≤ around.length) :=
      fun h => hopening h.1
    simp only [capped_of_not hroom]

theorem take_limited (state : State) :
    take (some limit) state lexeme ahead =
      capped (lexeme.token.nesting = 1 ∧ limit ≤ state.depth)
        (take none state lexeme ahead) := by
  obtain ⟨rules, place⟩ := state
  cases place with
  | between =>
      cases htoken : lexeme.token <;> simp [take, takeBetween, htoken, Sign.nesting, capped]
  | labelled label =>
      cases htoken : lexeme.token <;> simp [take, htoken, Sign.nesting, capped]
  | named label? name =>
      cases htoken : lexeme.token <;> simp [take, htoken, Sign.nesting, capped]
  | wanting head around prior =>
      simp only [take, takeOperand_limited, map_capped]
      rfl
  | holding head around prior operand =>
      cases hoperator : lexeme.token.isOperator with
      | false =>
          rw [take_holding hoperator, take_holding hoperator, takeAfterOperand_limited]
          rfl
      | true =>
          have hroom : ¬ (lexeme.token.nesting = 1 ∧ limit ≤ around.length) := by
            simp [Sign.nesting_of_isOperator hoperator]
          simp only [take, takeAfterOperand_limited, capped_of_not hroom]
          exact (capped_of_not hroom).symm

/-! ## What a step adds -/

theorem depth_takeOperand {next : Place}
    (h : takeOperand none head around prior lexeme = .ok next) :
    (next.depth : Int) = around.length + lexeme.token.nesting := by
  unfold takeOperand at h
  cases htoken : lexeme.token <;> simp [htoken, isFull] at h
  all_goals
    obtain rfl := h
    simp [Place.depth, Sign.nesting]

/-- The first lexeme of an operand adds no rule. -/
theorem depth_map_takeOperand {next : State}
    (h : (takeOperand none head around prior lexeme).map (State.mk rules) = .ok next) :
    (next.depth : Int) = around.length + lexeme.token.nesting ∧
      (next.rules ≠ rules → around.length = 0 ∧ next.depth = 0) := by
  obtain ⟨place, hplace, rfl⟩ := map_eq_ok_iff.mp h
  exact ⟨depth_takeOperand hplace, fun hrules => absurd rfl hrules⟩

theorem depth_takeBetween {next : State} (h : takeBetween rules lexeme = .ok next) :
    (next.depth : Int) = lexeme.token.nesting ∧ next.rules = rules ∧ next.depth = 0 := by
  unfold takeBetween at h
  cases htoken : lexeme.token <;> simp [htoken] at h
  all_goals
    obtain rfl := h
    exact ⟨rfl, rfl, rfl⟩

/-- Where a choice ends, either a parenthesis is closed or a rule added, as a further one
starts. -/
theorem depth_takeAfterChoice {next : State}
    (h : takeAfterChoice rules head around body lexeme = .ok next) :
    (next.depth : Int) = around.length + lexeme.token.nesting ∧
      (next.rules ≠ rules → around.length = 0 ∧ next.depth = 0) := by
  cases around with
  | nil =>
      obtain ⟨hdepth, -, hzero⟩ := depth_takeBetween h
      exact ⟨hdepth.trans (Int.zero_add _).symm, fun _ => ⟨rfl, hzero⟩⟩
  | cons enclosure outer =>
      cases htoken : lexeme.token <;>
        simp only [takeAfterChoice, htoken, reduceCtorEq] at h
      obtain rfl := Except.ok.inj h
      refine ⟨?_, fun hrules => absurd rfl hrules⟩
      simp only [State.depth, Place.depth, Sign.nesting, List.length_cons]
      omega

theorem depth_takeAfterOperand {next : State}
    (h : takeAfterOperand none rules head around prior operand lexeme ahead = .ok next) :
    (next.depth : Int) = around.length + lexeme.token.nesting ∧
      (next.rules ≠ rules → around.length = 0 ∧ next.depth = 0) := by
  unfold takeAfterOperand at h
  split at h
  case h_1 htoken _ =>
    obtain rfl := Except.ok.inj h
    rw [htoken]
    exact ⟨(Int.add_zero _).symm, fun hrules => absurd rfl hrules⟩
  case h_2 htoken =>
    obtain rfl := Except.ok.inj h
    rw [htoken]
    exact ⟨(Int.add_zero _).symm, fun hrules => absurd rfl hrules⟩
  case h_7 =>
    by_cases hstarts : ruleStarts (lexeme :: ahead)
    · rw [if_pos hstarts] at h
      exact depth_takeAfterChoice h
    · rw [if_neg hstarts] at h
      exact depth_map_takeOperand h
  all_goals exact depth_takeAfterChoice h

theorem depth_take {state next : State} (h : take none state lexeme ahead = .ok next) :
    (next.depth : Int) = state.depth + lexeme.token.nesting ∧
      (next.rules ≠ state.rules → state.depth = 0 ∧ next.depth = 0) := by
  obtain ⟨rules, place⟩ := state
  cases place with
  | between =>
      obtain ⟨hdepth, hrules, -⟩ := depth_takeBetween h
      exact ⟨hdepth.trans (Int.zero_add _).symm, fun hnew => absurd hrules hnew⟩
  | labelled label =>
      cases htoken : lexeme.token <;> simp [take, htoken] at h
      obtain rfl := h
      exact ⟨rfl, fun hrules => absurd rfl hrules⟩
  | named label? name =>
      cases htoken : lexeme.token <;> simp [take, htoken] at h
      obtain rfl := h
      exact ⟨rfl, fun hrules => absurd rfl hrules⟩
  | wanting head around prior => exact depth_map_takeOperand h
  | holding head around prior operand =>
      simp only [take] at h
      split at h
      · rename_i primary operator htoken
        obtain rfl := Except.ok.inj h
        rw [htoken]
        exact ⟨(Int.add_zero _).symm, fun hrules => absurd rfl hrules⟩
      · exact depth_takeAfterOperand h

/-- Within parentheses a further one can be opened, in front of an operand or behind one. -/
theorem take_opening {state : State} (hopening : lexeme.token.nesting = 1)
    (hdepth : 0 < state.depth) : ∃ next, take none state lexeme ahead = .ok next := by
  have htoken := Sign.nesting_eq_one_iff.mp hopening
  obtain ⟨rules, place⟩ := state
  cases place with
  | between => exact absurd hdepth (Nat.lt_irrefl 0)
  | labelled label => exact absurd hdepth (Nat.lt_irrefl 0)
  | named label? name => exact absurd hdepth (Nat.lt_irrefl 0)
  | wanting head around prior =>
      exact ⟨_, by simp only [take, takeOperand, htoken, isFull]; rfl⟩
  | holding head around prior operand =>
      have hoperator : lexeme.token.isOperator = false := by simp [htoken, Sign.isOperator]
      rw [take_holding hoperator]
      simp only [takeAfterOperand, takeOperand, htoken, isFull, ruleStarts_opening htoken]
      exact ⟨_, rfl⟩

theorem depth_finish {state : State} {result : List Declaration}
    (h : finish state = .ok result) : state.depth = 0 := by
  obtain ⟨rules, place⟩ := state
  cases place with
  | between => rfl
  | labelled label => rfl
  | named label? name => rfl
  | wanting head around prior => exact nomatch h
  | holding head around prior operand =>
      cases around with
      | nil => rfl
      | cons enclosure outer => exact nomatch h

theorem nests : Reader.Nests reader Sign.nesting State.depth State.rules where
  start_eq _ := rfl
  finish_eq _ := rfl
  take_eq _ state _ _ := take_limited state
  opens _ _ _ := take_opening
  depth_start := rfl
  depth_take _ _ _ _ h := (depth_take h).1
  depth_finish _ _ := depth_finish
  depth_rule _ _ _ _ h := (depth_take h).2
  nesting_cases := Sign.nesting_cases

end GrammarTable.W3c
