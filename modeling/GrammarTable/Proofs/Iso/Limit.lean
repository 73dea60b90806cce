import GrammarTable.Proofs.Iso.Completeness
import GrammarTable.Proofs.Token.Limit

/-!
# The depth of the reader of ISO-style EBNF

The depth of a state is the number of brackets that it keeps. Each opening bracket adds one
and each closing bracket takes off the one that it matches.
-/

namespace GrammarTable.Iso

open Grammar Token

variable {limit : Nat} {rules : List Declaration} {head : Head} {around : List Enclosure}
  {prior : Prior} {factor : Factor} {lexeme : Lexeme Sign} {ahead : List (Lexeme Sign)}

/-- The number of open brackets. -/
def Place.depth : Place → Nat
  | .between => 0
  | .named _ => 0
  | .wanting _ around _ => around.length
  | .holding _ around _ _ => around.length

def State.depth (state : State) : Nat :=
  state.place.depth

theorem Sign.nesting_cases (sign : Sign) :
    sign.nesting = 1 ∨ sign.nesting = 0 ∨ sign.nesting = -1 := by
  cases sign <;> simp [Sign.nesting]

theorem Sign.eq_opening_of_nesting {sign : Sign} (h : sign.nesting = 1) :
    ∃ bracket, sign = .opening bracket := by
  cases sign <;> simp [Sign.nesting] at h ⊢

/-! ## With a limit and without -/

theorem takeFactor_limited :
    takeFactor (some limit) head around prior lexeme =
      capped (lexeme.token.nesting = 1 ∧ limit ≤ around.length)
        (takeFactor none head around prior lexeme) := by
  unfold takeFactor
  cases lexeme.token <;> simp [Sign.nesting, isFull, capped]

theorem takeAfterFactor_limited :
    takeAfterFactor (some limit) rules head around prior factor lexeme ahead =
      capped (lexeme.token.nesting = 1 ∧ limit ≤ around.length)
        (takeAfterFactor none rules head around prior factor lexeme ahead) := by
  simp only [takeAfterFactor, takeFactor_limited, map_capped]
  by_cases hopening : lexeme.token.nesting = 1
  · obtain ⟨bracket, hbracket⟩ := Sign.eq_opening_of_nesting hopening
    simp only [hbracket]
  · have hroom : ¬ (lexeme.token.nesting = 1 ∧ limit ≤ around.length) :=
      fun h => hopening h.1
    simp only [capped_of_not hroom]

theorem take_limited (state : State) :
    take (some limit) state lexeme ahead =
      capped (lexeme.token.nesting = 1 ∧ limit ≤ state.depth)
        (take none state lexeme ahead) := by
  obtain ⟨rules, place⟩ := state
  cases place with
  | between => cases htoken : lexeme.token <;> simp [take, htoken, Sign.nesting, capped]
  | named name => cases htoken : lexeme.token <;> simp [take, htoken, Sign.nesting, capped]
  | wanting head around prior =>
      simp only [take, takeFactor_limited, map_capped]
      rfl
  | holding head around prior factor =>
      simp only [take, takeAfterFactor_limited]
      cases htoken : lexeme.token with
      | operator operator => exact (capped_of_not (by simp [Sign.nesting])).symm
      | _ => rfl

/-! ## What a step adds -/

theorem depth_takeFactor {next : Place}
    (h : takeFactor none head around prior lexeme = .ok next) :
    (next.depth : Int) = around.length + lexeme.token.nesting := by
  unfold takeFactor at h
  cases htoken : lexeme.token <;> simp [htoken, isFull] at h
  all_goals
    obtain rfl := h
    simp [Place.depth, Sign.nesting]

/-- The first lexeme of a factor adds no rule. -/
theorem depth_map_takeFactor {next : State}
    (h : (takeFactor none head around prior lexeme).map (State.mk rules) = .ok next) :
    (next.depth : Int) = around.length + lexeme.token.nesting ∧
      (next.rules ≠ rules → around.length = 0 ∧ next.depth = 0) := by
  obtain ⟨place, hplace, rfl⟩ := map_eq_ok_iff.mp h
  exact ⟨depth_takeFactor hplace, fun hrules => absurd rfl hrules⟩

/-- Behind a factor only the end of a rule adds a rule, and it closes no bracket. -/
theorem depth_takeAfterFactor {next : State}
    (h : takeAfterFactor none rules head around prior factor lexeme ahead = .ok next) :
    (next.depth : Int) = around.length + lexeme.token.nesting ∧
      (next.rules ≠ rules → around.length = 0 ∧ next.depth = 0) := by
  unfold takeAfterFactor at h
  cases htoken : lexeme.token <;> simp only [htoken, reduceCtorEq] at h
  case name name =>
    cases hstarts : comesNext .define ahead
    · rw [hstarts] at h
      rw [← htoken]
      exact depth_map_takeFactor h
    · simp [hstarts] at h
  case literal text =>
    rw [← htoken]
    exact depth_map_takeFactor h
  case opening bracket =>
    rw [← htoken]
    exact depth_map_takeFactor h
  case comma =>
    obtain rfl := Except.ok.inj h
    exact ⟨(Int.add_zero _).symm, fun hrules => absurd rfl hrules⟩
  case bar =>
    obtain rfl := Except.ok.inj h
    exact ⟨(Int.add_zero _).symm, fun hrules => absurd rfl hrules⟩
  case semicolon =>
    cases around with
    | nil =>
        obtain rfl := Except.ok.inj h
        exact ⟨rfl, fun _ => ⟨rfl, rfl⟩⟩
    | cons enclosure outer => cases h
  case closing bracket =>
    cases around with
    | nil => cases h
    | cons enclosure outer =>
        by_cases hmatches : enclosure.bracket = bracket
        · simp only [if_pos hmatches] at h
          obtain rfl := Except.ok.inj h
          refine ⟨?_, fun hrules => absurd rfl hrules⟩
          simp only [State.depth, Place.depth, Sign.nesting, List.length_cons]
          omega
        · simp only [if_neg hmatches, reduceCtorEq] at h

theorem depth_take {state next : State} (h : take none state lexeme ahead = .ok next) :
    (next.depth : Int) = state.depth + lexeme.token.nesting ∧
      (next.rules ≠ state.rules → state.depth = 0 ∧ next.depth = 0) := by
  obtain ⟨rules, place⟩ := state
  cases place with
  | between =>
      cases htoken : lexeme.token <;> simp [take, htoken] at h
      obtain rfl := h
      exact ⟨rfl, fun hrules => absurd rfl hrules⟩
  | named name =>
      cases htoken : lexeme.token <;> simp [take, htoken] at h
      obtain rfl := h
      exact ⟨rfl, fun hrules => absurd rfl hrules⟩
  | wanting head around prior => exact depth_map_takeFactor h
  | holding head around prior factor =>
      cases htoken : lexeme.token
      case operator operator =>
        simp only [take, htoken] at h
        obtain rfl := Except.ok.inj h
        exact ⟨(Int.add_zero _).symm, fun hrules => absurd rfl hrules⟩
      all_goals
        simp only [take, htoken] at h
        rw [← htoken]
        exact depth_takeAfterFactor h

/-- Within brackets a further one can be opened, in front of a factor or behind one. -/
theorem take_opening {state : State} (hopening : lexeme.token.nesting = 1)
    (hdepth : 0 < state.depth) : ∃ next, take none state lexeme ahead = .ok next := by
  obtain ⟨bracket, hbracket⟩ := Sign.eq_opening_of_nesting hopening
  obtain ⟨rules, place⟩ := state
  cases place with
  | between => exact absurd hdepth (Nat.lt_irrefl 0)
  | named name => exact absurd hdepth (Nat.lt_irrefl 0)
  | wanting head around prior =>
      exact ⟨_, by simp only [take, takeFactor, hbracket, isFull]; rfl⟩
  | holding head around prior factor =>
      exact ⟨_, by simp only [take, takeAfterFactor, takeFactor, hbracket, isFull]; rfl⟩

theorem depth_finish {state : State} {result : List Declaration}
    (h : finish state = .ok result) : state.depth = 0 := by
  obtain ⟨rules, place⟩ := state
  cases place with
  | between => rfl
  | named name => rfl
  | wanting head around prior => exact nomatch h
  | holding head around prior factor => exact nomatch h

theorem nests : Reader.Nests reader Sign.nesting State.depth State.rules where
  start_eq _ := rfl
  finish_eq _ := rfl
  take_eq _ state _ _ := take_limited state
  opens _ _ _ := take_opening
  depth_start := rfl
  depth_take _ _ _ _ h := (depth_take h).1
  depth_finish _ _ := depth_finish
  depth_rule _ _ _ _ h := (depth_take h).2
  nesting_cases := Sign.nesting_cases

end GrammarTable.Iso
