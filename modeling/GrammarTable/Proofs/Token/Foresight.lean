import GrammarTable.Proofs.Token.Limit

/-!
# Where readers stop

A reader that looks only so many lexemes ahead stops in time: what it has taken can still
be completed, and what it stops at, with the lexemes that it has looked at, cannot. The
first is shown state by state. For the second, what it says of a lexeme has to stand when
more lexemes follow.
-/

namespace GrammarTable.Token

open Grammar

variable {τ σ ρ : Type}

/-- What is wrong is where the reader stops: the lexemes in front of it are the start of
some that are read, and they no longer are with what stands there and so many lexemes
behind it. -/
structure Reader.Pinpoints (reader : Reader τ σ ρ) (reach : Nat) (lexemes : List (Lexeme τ))
    (failure : Failure τ) : Prop where
  rest_eq : failure.rest = lexemes.drop (failure.index lexemes)
  completed : ∃ more result,
    reader.read (lexemes.take (failure.index lexemes) ++ more) = .ok result
  refused : failure.index lexemes < lexemes.length → ∀ more result,
    reader.read (lexemes.take (failure.index lexemes + 1 + reach) ++ more) ≠ .ok result

/-- A reader looks so many lexemes ahead. What it refuses at the end of some lexemes it
refuses with more behind them; what it takes there it takes as well, unless it would take
all of them. -/
structure Reader.Foresees (reader : Reader τ σ ρ) (reach : Nat) : Prop where
  take_eq : ∀ state lexeme ahead,
    reader.take state lexeme (ahead.take reach) = reader.take state lexeme ahead
  refuses : ∀ state lexeme ahead more wanted,
    reader.take state lexeme ahead = .error (.unexpected wanted) →
      reader.take state lexeme (ahead ++ more) = .error (.unexpected wanted)
  takes : ∀ state lexeme ahead more next, reader.take state lexeme ahead = .ok next →
    reader.take state lexeme (ahead ++ more) = .ok next ∨
      ∃ last, reader.advance next ahead = .ok last

/-- Where nothing opens, no depth is exceeded. -/
theorem nestsWithin_of_falling {nesting : τ → Int} {limit? : Option Nat} {depth : Int}
    {lexemes : List (Lexeme τ)} (h : ∀ lexeme ∈ lexemes, nesting lexeme.token ≤ 0)
    (hdepth : ∀ limit ∈ limit?, depth ≤ (limit : Nat)) :
    NestsWithin nesting limit? depth lexemes := by
  induction lexemes generalizing depth with
  | nil => exact hdepth
  | cons lexeme rest ih =>
      have hfirst := h lexeme List.mem_cons_self
      refine ⟨hdepth, ih (fun other hother => h other (List.mem_cons_of_mem lexeme hother)) ?_⟩
      intro limit hlimit
      have := hdepth limit hlimit
      omega

namespace Reader

variable {reader : Reader τ σ ρ} {state : σ} {lexemes front behind more : List (Lexeme τ)}
  {lexeme : Lexeme τ} {failure : Failure τ} {reach index : Nat} {wanted : Wanted}

/-! ## What is refused -/

theorem take_append_take {α : Type} (front back : List α) (n : Nat) :
    (front ++ back.take n).take n = (front ++ back).take n := by
  rw [List.take_append, List.take_append, List.take_take, Nat.min_eq_left (Nat.sub_le _ _)]

theorem Foresees.advance_append (foresees : reader.Foresees reach)
    (h : reader.advance state lexemes = .error failure)
    (hcause : failure.cause = .unexpected wanted) (more : List (Lexeme τ)) :
    ∃ other, reader.advance state (lexemes ++ more) = .error other := by
  induction lexemes generalizing state with
  | nil => cases h
  | cons lexeme rest ih =>
      rw [advance] at h
      rw [List.cons_append, advance]
      cases htake : reader.take state lexeme rest with
      | error cause =>
          rw [htake] at h
          obtain rfl := Except.error.inj h
          obtain rfl : cause = .unexpected wanted := hcause
          rw [foresees.refuses _ _ _ more _ htake]
          exact ⟨_, rfl⟩
      | ok next =>
          rw [htake] at h
          rcases foresees.takes _ _ _ more _ htake with hsame | ⟨last, hlast⟩
          · rw [hsame]
            exact ih h
          · -- All lexemes would be taken.
            cases hlast.symm.trans h

/-- Where a reader stops it still stops when only the lexemes remain that it looks at. -/
theorem Foresees.advance_truncated (foresees : reader.Foresees reach)
    (h : reader.advance state (front ++ lexeme :: behind) = .error failure)
    (hrest : failure.rest = lexeme :: behind) :
    reader.advance state (front ++ lexeme :: behind.take reach) =
      .error ⟨failure.cause, lexeme :: behind.take reach⟩ := by
  induction front generalizing state with
  | nil =>
      rw [List.nil_append, advance] at h ⊢
      rw [foresees.take_eq]
      cases htake : reader.take state lexeme behind with
      | error cause =>
          rw [htake] at h
          obtain rfl := Except.error.inj h
          rfl
      | ok next =>
          rw [htake] at h
          have hlength := length_rest_le h
          rw [hrest, List.length_cons] at hlength
          omega
  | cons first front ih =>
      rw [List.cons_append, advance] at h ⊢
      have hahead : (front ++ lexeme :: behind.take reach).take reach =
          (front ++ lexeme :: behind).take reach := by
        rw [List.append_cons, take_append_take, ← List.append_cons]
      rw [← foresees.take_eq, hahead, foresees.take_eq]
      cases htake : reader.take state first (front ++ lexeme :: behind) with
      | error cause =>
          rw [htake] at h
          obtain rfl := Except.error.inj h
          have hlength := congrArg List.length hrest
          simp only [List.length_cons, List.length_append] at hlength
          omega
      | ok next =>
          rw [htake] at h
          exact ih h

/-- A reader that looks whether one sign follows looks one lexeme ahead. -/
theorem foresees_one [BEq τ] (sign : τ)
    (hlooks : ∀ state lexeme ahead other, comesNext sign ahead = comesNext sign other →
      reader.take state lexeme ahead = reader.take state lexeme other)
    (hrefuses : ∀ state lexeme ahead wanted,
      reader.take state lexeme [] = .error (.unexpected wanted) →
        reader.take state lexeme ahead = .error (.unexpected wanted)) :
    reader.Foresees 1 where
  take_eq state lexeme ahead := hlooks state lexeme _ _ (by cases ahead <;> rfl)
  refuses state lexeme ahead more wanted h := by
    cases ahead with
    | nil => exact hrefuses state lexeme more wanted h
    | cons next later =>
        have hsame := hlooks state lexeme (next :: later ++ more) (next :: later) rfl
        exact hsame.trans h
  takes state lexeme ahead more next h := by
    cases ahead with
    | nil => exact .inr ⟨next, rfl⟩
    | cons other later =>
        have hsame := hlooks state lexeme (other :: later ++ more) (other :: later) rfl
        exact .inl (hsame.trans h)

/-! ## What has been taken -/

theorem Reaches.next (h : Reaches reader (front ++ lexeme :: behind) front.length state) {next : σ}
    (hnext : reader.take state lexeme behind = .ok next) :
    Reaches reader (front ++ [lexeme] ++ behind) (front ++ [lexeme]).length next := by
  have hlexeme : (front ++ lexeme :: behind)[front.length]? = some lexeme := by simp
  rw [← List.append_cons, List.length_append, List.length_singleton]
  refine .take h hlexeme ?_
  rwa [List.append_cons, List.drop_left' (by simp)]

/-- In front of the place where a reader stops, every lexeme has been taken. -/
theorem exists_reaches_of_error
    (hreaches : Reaches reader (front ++ behind) front.length state)
    (h : reader.advance state behind = .error failure) :
    ∃ taken last, front ++ behind = taken ++ failure.rest ∧
      Reaches reader (front ++ behind) taken.length last := by
  induction behind generalizing front state with
  | nil => cases h
  | cons lexeme rest ih =>
      rw [advance] at h
      cases htake : reader.take state lexeme rest with
      | error cause =>
          rw [htake] at h
          obtain rfl := Except.error.inj h
          exact ⟨front, state, rfl, hreaches⟩
      | ok next =>
          rw [htake] at h
          rw [List.append_cons]
          exact ih (hreaches.next htake) h

theorem Reaches.of_advance {last : σ}
    (hreaches : Reaches reader (front ++ behind) front.length state)
    (h : reader.advance state behind = .ok last) :
    Reaches reader (front ++ behind) (front ++ behind).length last := by
  induction behind generalizing front state with
  | nil =>
      obtain rfl := Except.ok.inj h
      rwa [List.append_nil] at hreaches ⊢
  | cons lexeme rest ih =>
      rw [advance] at h
      cases htake : reader.take state lexeme rest with
      | error cause =>
          rw [htake] at h
          cases h
      | ok next =>
          rw [htake] at h
          rw [List.append_cons]
          exact ih (hreaches.next htake) h

theorem exists_reaches_of_read (h : reader.read lexemes = .error failure) :
    ∃ taken last, lexemes = taken ++ failure.rest ∧ Reaches reader lexemes taken.length last := by
  have hstart : Reaches reader ([] ++ lexemes) ([] : List (Lexeme τ)).length reader.start :=
    .start
  rcases read_eq_error_iff.mp h with hstops | ⟨last, cause, hadvance, -, rfl⟩
  · exact exists_reaches_of_error hstart hstops
  · exact ⟨lexemes, last, (List.append_nil _).symm, hstart.of_advance hadvance⟩

/-- What each step adds to a view of the state, the lexemes taken have added. -/
theorem Reaches.view_eq {view : σ → List (Lexeme τ)} (hstart : view reader.start = [])
    (step : ∀ state lexeme ahead next, reader.take state lexeme ahead = .ok next →
      view next = view state ++ [lexeme])
    (h : Reaches reader lexemes index state) : view state = lexemes.take index := by
  induction h with
  | start => exact hstart
  | take h hlexeme hnext ih =>
      rw [step _ _ _ _ hnext, ih, List.take_add_one, hlexeme]
      rfl

section Nesting

variable {δ : Type} {reader : Option Nat → Reader τ σ ρ} {nesting : τ → Int} {depth : σ → Nat}
  {rules : σ → List δ} {limit : Nat}

/-- The lexemes that a limited reader has taken nest within its limit. -/
theorem Nests.nestsWithin_of_reaches (nests : Nests reader nesting depth rules)
    (h : Reaches (reader (some limit)) lexemes index state) :
    depth state ≤ limit ∧ (depth state : Int) = depthBehind nesting 0 (lexemes.take index) ∧
      NestsWithin nesting (some limit) 0 (lexemes.take index) := by
  induction h with
  | start =>
      have hstart : depth (reader (some limit)).start = 0 := by
        rw [nests.start_eq, nests.depth_start]
      refine ⟨by omega, by rw [hstart]; rfl, ?_⟩
      exact fun bound _ => Int.natCast_nonneg bound
  | @take index state next lexeme h hlexeme hnext ih =>
      obtain ⟨hdepth, hbehind, hwithin⟩ := ih
      have hfree := (nests.take_of_take_limited hnext).1
      have hlater := nests.depth_le_of_take_limited hdepth hnext
      have hadds := nests.depth_take _ _ _ _ hfree
      have htaken : lexemes.take (index + 1) = lexemes.take index ++ [lexeme] := by
        rw [List.take_add_one, hlexeme]
        rfl
      rw [htaken, depthBehind_append, nestsWithin_append, ← hbehind]
      refine ⟨hlater, hadds, hwithin, ?_, ?_⟩
      · rintro bound hbound
        obtain rfl := Option.some.inj hbound
        exact Int.ofNat_le.mpr hdepth
      · rintro bound hbound
        obtain rfl := Option.some.inj hbound
        rw [← hadds]
        exact Int.ofNat_le.mpr hlater

/-- Nor do they nest deeper with lexemes behind them that open nothing. -/
theorem Nests.nestsWithin_completed (nests : Nests reader nesting depth rules)
    (h : Reaches (reader (some limit)) lexemes index state)
    (hfalls : ∀ lexeme ∈ more, nesting lexeme.token ≤ 0) :
    NestsWithin nesting (some limit) 0 (lexemes.take index ++ more) := by
  obtain ⟨hdepth, hbehind, hwithin⟩ := nests.nestsWithin_of_reaches h
  refine nestsWithin_append.mpr ⟨hwithin, nestsWithin_of_falling hfalls ?_⟩
  rintro bound hbound
  obtain rfl := Option.some.inj hbound
  rw [← hbehind]
  exact Int.ofNat_le.mpr hdepth

end Nesting

/-! ## Both together -/

/-- What a reader stops at, with the lexemes that it has looked at, cannot be completed. -/
theorem Foresees.read_ne_ok (foresees : reader.Foresees reach)
    (h : reader.read (front ++ lexeme :: behind) = .error failure)
    (hcause : failure.cause = .unexpected wanted) (hrest : failure.rest = lexeme :: behind)
    (more : List (Lexeme τ)) (result : ρ) :
    reader.read (front ++ lexeme :: behind.take reach ++ more) ≠ .ok result := by
  intro hread
  obtain ⟨last, hadvance, -⟩ := read_eq_ok_iff.mp hread
  rcases read_eq_error_iff.mp h with hstops | ⟨_, _, -, -, rfl⟩
  · have htruncated := foresees.advance_truncated hstops hrest
    obtain ⟨other, hother⟩ := foresees.advance_append htruncated hcause more
    exact nomatch hadvance.symm.trans hother
  · exact nomatch hrest

theorem Foresees.pinpoints (foresees : reader.Foresees reach)
    (h : reader.read lexemes = .error failure) (hcause : failure.cause = .unexpected wanted)
    (hcompleted : ∀ index last, Reaches reader lexemes index last →
      ∃ more result, reader.read (lexemes.take index ++ more) = .ok result) :
    reader.Pinpoints reach lexemes failure := by
  obtain ⟨taken, last, hsplit, hreaches⟩ := exists_reaches_of_read h
  have hindex : failure.index lexemes = taken.length := by
    simp [Failure.index, hsplit]
  refine ⟨?_, ?_, ?_⟩
  · rw [hindex, hsplit, List.drop_left]
  · rw [hindex]
    exact hcompleted _ _ hreaches
  · intro hlt more result
    cases hrest : failure.rest with
    | nil =>
        rw [hindex, hsplit, hrest, List.append_nil] at hlt
        exact absurd hlt (Nat.lt_irrefl _)
    | cons lexeme behind =>
        rw [hrest] at hsplit
        subst hsplit
        have htaken : (taken ++ lexeme :: behind).take (taken.length + 1 + reach) =
            taken ++ lexeme :: behind.take reach := by
          rw [Nat.add_assoc, List.take_length_add_append, Nat.add_comm, List.take_succ_cons]
        rw [hindex, htaken]
        exact foresees.read_ne_ok h hcause hrest more result

end Reader

end GrammarTable.Token
