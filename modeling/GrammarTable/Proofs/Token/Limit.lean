import GrammarTable.Proofs.Token.Run

/-!
# Limits on nesting

A reader with a limit differs from the same reader without one only where a bracket opens
behind so many open ones: it stops there, unless the other has stopped before. The open
brackets can as well be counted by a number beside the state, since every step that takes a
closing bracket finds one open.
-/

namespace GrammarTable.Token

variable {τ σ ρ δ : Type}

/-! ## Full places -/

/-- A bracket opens behind so many lexemes, where the depth has reached the limit. -/
def FullAt (nesting : τ → Int) (limit : Nat) (depth : Int) (lexemes : List (Lexeme τ))
    (index : Nat) : Prop :=
  ∃ lexeme, lexemes[index]? = some lexeme ∧ nesting lexeme.token = 1 ∧
    depthBehind nesting depth (lexemes.take index) = limit

def FirstFullAt (nesting : τ → Int) (limit : Nat) (depth : Int) (lexemes : List (Lexeme τ))
    (index : Nat) : Prop :=
  FullAt nesting limit depth lexemes index ∧
    ∀ earlier < index, ¬ FullAt nesting limit depth lexemes earlier

/-- The number of lexemes in front of the place of a failure. -/
def Failure.index (failure : Failure τ) (lexemes : List (Lexeme τ)) : Nat :=
  lexemes.length - failure.rest.length

section Places

variable {nesting : τ → Int} {limit index : Nat} {depth : Int} {lexeme : Lexeme τ}
  {rest : List (Lexeme τ)}

theorem fullAt_zero_iff :
    FullAt nesting limit depth (lexeme :: rest) 0 ↔
      nesting lexeme.token = 1 ∧ depth = limit := by
  simp [FullAt, depthBehind]

theorem fullAt_succ_iff :
    FullAt nesting limit depth (lexeme :: rest) (index + 1) ↔
      FullAt nesting limit (depth + nesting lexeme.token) rest index := by
  simp [FullAt, depthBehind]

theorem not_fullAt_nil : ¬ FullAt nesting limit depth [] index := by
  simp [FullAt]

/-- Each lexeme opens one bracket at most. -/
theorem depthBehind_le {lexemes : List (Lexeme τ)}
    (h : ∀ token, nesting token = 1 ∨ nesting token = 0 ∨ nesting token = -1) :
    depthBehind nesting depth lexemes ≤ depth + lexemes.length := by
  induction lexemes generalizing depth with
  | nil => simp [depthBehind]
  | cons lexeme rest ih =>
      have hrest : depthBehind nesting (depth + nesting lexeme.token) rest ≤
          depth + nesting lexeme.token + rest.length := ih
      have hcases := h lexeme.token
      rw [depthBehind, List.length_cons]
      omega

theorem FirstFullAt.tail
    (h : FirstFullAt nesting limit depth (lexeme :: rest) (index + 1)) :
    ¬ FullAt nesting limit depth (lexeme :: rest) 0 ∧
      FirstFullAt nesting limit (depth + nesting lexeme.token) rest index := by
  refine ⟨h.2 0 (Nat.succ_pos index), fullAt_succ_iff.mp h.1, ?_⟩
  intro earlier hearlier hfull
  exact h.2 (earlier + 1) (by omega) (fullAt_succ_iff.mpr hfull)

theorem FirstFullAt.index_lt (h : FirstFullAt nesting limit depth lexemes index) :
    index < lexemes.length := by
  obtain ⟨⟨lexeme, hlexeme, -⟩, -⟩ := h
  exact (List.getElem?_eq_some_iff.mp hlexeme).1

/-- If a place is full, there is a first one. -/
theorem exists_firstFullAt (h : FullAt nesting limit depth lexemes index) :
    ∃ first, FirstFullAt nesting limit depth lexemes first := by
  induction index using Nat.strongRecOn with
  | _ index ih =>
      by_cases hearlier : ∃ earlier < index, FullAt nesting limit depth lexemes earlier
      · obtain ⟨earlier, hlt, hfull⟩ := hearlier
        exact ih earlier hlt hfull
      · exact ⟨index, h, fun earlier hlt hfull => hearlier ⟨earlier, hlt, hfull⟩⟩

end Places

/-! ## Readers that nest -/

def capped (full : Prop) [Decidable full] : Except Cause σ → Except Cause σ
  | .error cause => .error cause
  | .ok next => if full then .error .tooDeep else .ok next

section Capped

variable {full : Prop} [Decidable full] {found : Except Cause σ} {next : σ}

@[simp] theorem capped_error (cause : Cause) :
    capped full (.error cause : Except Cause σ) = .error cause := rfl

theorem capped_of_not (h : ¬ full) : capped full found = found := by
  cases found with
  | error cause => rfl
  | ok next => exact if_neg h

@[simp] theorem map_capped (f : σ → ρ) :
    (capped full found).map f = capped full (found.map f) := by
  cases found with
  | error cause => rfl
  | ok next => by_cases h : full <;> simp [capped, h, Except.map]

theorem capped_eq_ok_iff : capped full found = .ok next ↔ found = .ok next ∧ ¬ full := by
  cases found with
  | error cause => simp
  | ok value => by_cases h : full <;> simp [capped, h]

end Capped

/-- A family of readers, one for each limit, whose states have a depth and hold the rules
that are finished. With a limit a step is the step without, unless it opens a bracket at the
limit. -/
structure Reader.Nests (reader : Option Nat → Reader τ σ ρ) (nesting : τ → Int)
    (depth : σ → Nat) (rules : σ → List δ) : Prop where
  start_eq : ∀ limit?, (reader limit?).start = (reader none).start
  finish_eq : ∀ limit?, (reader limit?).finish = (reader none).finish
  take_eq : ∀ limit state lexeme ahead,
    (reader (some limit)).take state lexeme ahead =
      capped (nesting lexeme.token = 1 ∧ limit ≤ depth state)
        ((reader none).take state lexeme ahead)
  /-- Within brackets a further one can always be opened. -/
  opens : ∀ state lexeme ahead, nesting lexeme.token = 1 → 0 < depth state →
    ∃ next, (reader none).take state lexeme ahead = .ok next
  depth_start : depth (reader none).start = 0
  depth_take : ∀ state lexeme ahead next, (reader none).take state lexeme ahead = .ok next →
    (depth next : Int) = depth state + nesting lexeme.token
  depth_finish : ∀ state result, (reader none).finish state = .ok result → depth state = 0
  /-- A rule is finished outside all brackets. -/
  depth_rule : ∀ state lexeme ahead next, (reader none).take state lexeme ahead = .ok next →
    rules next ≠ rules state → depth state = 0 ∧ depth next = 0
  nesting_cases : ∀ token, nesting token = 1 ∨ nesting token = 0 ∨ nesting token = -1

namespace Reader

/-- What is not taken when a reader stops stands at the end of the lexemes. -/
theorem length_rest_le {reader : Reader τ σ ρ} {state : σ} {lexemes : List (Lexeme τ)}
    {failure : Failure τ} (h : reader.advance state lexemes = .error failure) :
    failure.rest.length ≤ lexemes.length := by
  induction lexemes generalizing state with
  | nil => exact nomatch h
  | cons lexeme rest ih =>
      rw [advance] at h
      cases htake : reader.take state lexeme rest with
      | error cause =>
          rw [htake] at h
          obtain rfl := Except.error.inj h
          exact Nat.le_refl _
      | ok next =>
          rw [htake] at h
          exact Nat.le_succ_of_le (ih h)

section Limited

variable {reader : Option Nat → Reader τ σ ρ} {nesting : τ → Int} {depth : σ → Nat}
  {rules : σ → List δ} {limit : Nat} {state next : σ} {lexeme : Lexeme τ}
  {lexemes ahead : List (Lexeme τ)}

/-- Away from the limit a step is the same with it and without. -/
theorem Nests.take_eq_of_not_full (nests : Nests reader nesting depth rules)
    (hdepth : depth state ≤ limit)
    (h : ¬ (nesting lexeme.token = 1 ∧ (depth state : Int) = limit)) :
    (reader (some limit)).take state lexeme ahead =
      (reader none).take state lexeme ahead := by
  rw [nests.take_eq, capped_of_not]
  omega

theorem Nests.depth_next_le (nests : Nests reader nesting depth rules)
    (hdepth : depth state ≤ limit)
    (hfull : ¬ (nesting lexeme.token = 1 ∧ (depth state : Int) = limit))
    (htake : (reader none).take state lexeme ahead = .ok next) : depth next ≤ limit := by
  have hnext := nests.depth_take _ _ _ _ htake
  have hcases := nests.nesting_cases lexeme.token
  omega

theorem Nests.advance_of_shallow (nests : Nests reader nesting depth rules)
    (hdepth : depth state ≤ limit)
    (h : ∀ index, ¬ FullAt nesting limit (depth state) lexemes index) :
    (reader (some limit)).advance state lexemes = (reader none).advance state lexemes := by
  induction lexemes generalizing state with
  | nil => rfl
  | cons lexeme rest ih =>
      have hfull := mt fullAt_zero_iff.mpr (h 0)
      rw [advance, advance, nests.take_eq_of_not_full hdepth hfull]
      cases htake : (reader none).take state lexeme rest with
      | error cause => rfl
      | ok next =>
          refine ih (nests.depth_next_le hdepth hfull htake) ?_
          intro index hindex
          rw [nests.depth_take _ _ _ _ htake] at hindex
          exact h (index + 1) (fullAt_succ_iff.mpr hindex)

theorem Nests.advance_of_earlier (nests : Nests reader nesting depth rules) {index : Nat}
    {failure : Failure τ} (hdepth : depth state ≤ limit)
    (h : FirstFullAt nesting limit (depth state) lexemes index)
    (hfails : (reader none).advance state lexemes = .error failure)
    (hearlier : failure.index lexemes < index) :
    (reader (some limit)).advance state lexemes = .error failure := by
  induction lexemes generalizing state index with
  | nil => exact absurd h.1 not_fullAt_nil
  | cons lexeme rest ih =>
      cases index with
      | zero => exact absurd hearlier (Nat.not_lt_zero _)
      | succ index =>
          obtain ⟨hzero, htail⟩ := h.tail
          have hfull := mt fullAt_zero_iff.mpr hzero
          rw [advance] at hfails ⊢
          rw [nests.take_eq_of_not_full hdepth hfull]
          cases htake : (reader none).take state lexeme rest with
          | error cause =>
              rw [htake] at hfails
              exact hfails
          | ok next =>
              rw [htake] at hfails
              rw [← nests.depth_take _ _ _ _ htake] at htail
              refine ih (nests.depth_next_le hdepth hfull htake) htail hfails ?_
              have hrest := length_rest_le hfails
              simp only [Failure.index, List.length_cons] at hearlier ⊢
              omega

theorem Nests.advance_of_deep (nests : Nests reader nesting depth rules) {index : Nat}
    (hlimit : 0 < limit) (hdepth : depth state ≤ limit)
    (h : FirstFullAt nesting limit (depth state) lexemes index)
    (hlater : ∀ failure, (reader none).advance state lexemes = .error failure →
      index ≤ failure.index lexemes) :
    (reader (some limit)).advance state lexemes = .error ⟨.tooDeep, lexemes.drop index⟩ := by
  induction lexemes generalizing state index with
  | nil => exact absurd h.1 not_fullAt_nil
  | cons lexeme rest ih =>
      rw [advance]
      cases index with
      | zero =>
          obtain ⟨hopening, hfull⟩ := fullAt_zero_iff.mp h.1
          obtain ⟨next, hnext⟩ := nests.opens state lexeme rest hopening (by omega)
          have hrefused : nesting lexeme.token = 1 ∧ limit ≤ depth state :=
            ⟨hopening, by omega⟩
          rw [nests.take_eq, hnext, capped, if_pos hrefused, List.drop_zero]
      | succ index =>
          obtain ⟨hzero, htail⟩ := h.tail
          have hfull := mt fullAt_zero_iff.mpr hzero
          rw [nests.take_eq_of_not_full hdepth hfull]
          cases htake : (reader none).take state lexeme rest with
          | error cause =>
              have hfirst := hlater ⟨cause, lexeme :: rest⟩ (by rw [advance, htake])
              simp [Failure.index] at hfirst
          | ok next =>
              rw [← nests.depth_take _ _ _ _ htake] at htail
              refine ih (nests.depth_next_le hdepth hfull htake) htail ?_
              intro failure hfails
              have hrest := length_rest_le hfails
              have hindex := hlater failure (by rw [advance, htake]; exact hfails)
              simp only [Failure.index, List.length_cons] at hindex ⊢
              omega

end Limited

/-! ## Counting open brackets -/

/-- The reader with a number beside its state. An opening bracket is refused when the number
is the limit and otherwise adds one; a closing bracket takes one off, but none from zero. -/
def counting (reader : Reader τ σ ρ) (nesting : τ → Int) (limit : Nat) :
    Reader τ (σ × Nat) ρ where
  start := (reader.start, 0)
  take := fun (state, count) lexeme ahead =>
    match reader.take state lexeme ahead with
    | .error cause => .error cause
    | .ok next =>
        if nesting lexeme.token = 1 then
          if count = limit then .error .tooDeep else .ok (next, count + 1)
        else if nesting lexeme.token = -1 then .ok (next, count - 1)
        else .ok (next, count)
  finish := fun (state, _) => reader.finish state

inductive Reaches (reader : Reader τ σ ρ) (lexemes : List (Lexeme τ)) : Nat → σ → Prop where
  | start : Reaches reader lexemes 0 reader.start
  | take {index : Nat} {state next : σ} {lexeme : Lexeme τ} (h : Reaches reader lexemes index state)
      (hlexeme : lexemes[index]? = some lexeme)
      (hnext : reader.take state lexeme (lexemes.drop (index + 1)) = .ok next) :
      Reaches reader lexemes (index + 1) next

section Counting

variable {reader : Option Nat → Reader τ σ ρ} {nesting : τ → Int} {depth : σ → Nat}
  {rules : σ → List δ} {limit : Nat} {state next : σ} {lexeme : Lexeme τ}
  {lexemes ahead : List (Lexeme τ)}

theorem Nests.take_counting (nests : Nests reader nesting depth rules)
    (hdepth : depth state ≤ limit) :
    ((reader none).counting nesting limit).take (state, depth state) lexeme ahead =
      ((reader (some limit)).take state lexeme ahead).map fun next => (next, depth next) := by
  rw [nests.take_eq, counting]
  cases htake : (reader none).take state lexeme ahead with
  | error cause => simp [htake, Except.map]
  | ok next =>
      have hnext := nests.depth_take _ _ _ _ htake
      rcases nests.nesting_cases lexeme.token with hone | hzero | hminus
      · by_cases hfull : depth state = limit
        · simp [htake, hone, hfull, capped, Except.map]
        · have hroom : ¬ limit ≤ depth state := by omega
          have hcount : depth state + 1 = depth next := by omega
          simp [htake, hone, hfull, hroom, hcount, capped, Except.map]
      · have hcount : depth state = depth next := by omega
        simp [htake, hzero, ← hcount, capped, Except.map]
      · have hcount : depth state - 1 = depth next := by omega
        simp [htake, hminus, hcount, capped, Except.map]

theorem Nests.take_of_take_limited (nests : Nests reader nesting depth rules)
    (h : (reader (some limit)).take state lexeme ahead = .ok next) :
    (reader none).take state lexeme ahead = .ok next ∧
      ¬ (nesting lexeme.token = 1 ∧ limit ≤ depth state) := by
  rw [nests.take_eq] at h
  exact capped_eq_ok_iff.mp h

theorem Nests.depth_le_of_take_limited (nests : Nests reader nesting depth rules)
    (hdepth : depth state ≤ limit)
    (h : (reader (some limit)).take state lexeme ahead = .ok next) : depth next ≤ limit := by
  obtain ⟨htake, hroom⟩ := nests.take_of_take_limited h
  refine nests.depth_next_le hdepth ?_ htake
  rintro ⟨hopening, hfull⟩
  exact hroom ⟨hopening, by omega⟩

/-- What a limited reader takes nests within its limit. -/
theorem Nests.nestsWithin_of_advance (nests : Nests reader nesting depth rules)
    (hdepth : depth state ≤ limit)
    (h : (reader (some limit)).advance state lexemes = .ok next) :
    NestsWithin nesting (some limit) (depth state) lexemes := by
  have hlimit : ∀ bound ∈ some limit, (depth state : Int) ≤ (bound : Nat) := by
    intro bound hbound
    obtain rfl := Option.some.inj hbound
    exact Int.ofNat_le.mpr hdepth
  induction lexemes generalizing state with
  | nil => exact hlimit
  | cons lexeme rest ih =>
      rw [advance] at h
      cases htake : (reader (some limit)).take state lexeme rest with
      | error cause =>
          rw [htake] at h
          contradiction
      | ok middle =>
          rw [htake] at h
          have hmiddle := nests.depth_le_of_take_limited hdepth htake
          have hfree := (nests.take_of_take_limited htake).1
          have hrest := ih hmiddle h (by simpa using hmiddle)
          rw [nests.depth_take _ _ _ _ hfree] at hrest
          exact ⟨hlimit, hrest⟩

theorem Nests.nestsWithin_of_read (nests : Nests reader nesting depth rules) {result : ρ}
    (h : (reader (some limit)).read lexemes = .ok result) :
    NestsWithin nesting (some limit) 0 lexemes := by
  obtain ⟨last, hadvance, -⟩ := read_eq_ok_iff.mp h
  have hdepth : depth (reader none).start ≤ limit := by simp [nests.depth_start]
  rw [nests.start_eq] at hadvance
  have hwithin := nests.nestsWithin_of_advance hdepth hadvance
  rwa [nests.depth_start] at hwithin

theorem Nests.advance_counting (nests : Nests reader nesting depth rules)
    (hdepth : depth state ≤ limit) :
    ((reader none).counting nesting limit).advance (state, depth state) lexemes =
      ((reader (some limit)).advance state lexemes).map fun next => (next, depth next) := by
  induction lexemes generalizing state with
  | nil => rfl
  | cons lexeme rest ih =>
      rw [advance, advance, nests.take_counting hdepth]
      cases htake : (reader (some limit)).take state lexeme rest with
      | error cause => rfl
      | ok next => exact ih (nests.depth_le_of_take_limited hdepth htake)

/-- The reader that counts reads what the limited one does. -/
theorem Nests.read_counting (nests : Nests reader nesting depth rules) :
    ((reader none).counting nesting limit).read lexemes =
      (reader (some limit)).read lexemes := by
  have hstart : ((reader none).counting nesting limit).start =
      ((reader none).start, depth (reader none).start) := by
    rw [nests.depth_start]
    rfl
  have hdepth : depth (reader none).start ≤ limit := by simp [nests.depth_start]
  rw [read, read, hstart, nests.advance_counting hdepth, nests.start_eq (some limit),
    nests.finish_eq (some limit)]
  cases (reader (some limit)).advance (reader none).start lexemes <;> rfl

/-- The number is the depth of the state, and the number of brackets that the lexemes taken
have opened and not closed. -/
theorem Nests.count_of_reaches (nests : Nests reader nesting depth rules) {index : Nat}
    {counted : σ × Nat}
    (h : Reaches ((reader none).counting nesting limit) lexemes index counted) :
    counted.2 = depth counted.1 ∧ depth counted.1 ≤ limit ∧
      (depth counted.1 : Int) = depthBehind nesting 0 (lexemes.take index) := by
  induction h with
  | start =>
      have hstart : depth ((reader none).counting nesting limit).start.1 = 0 :=
        nests.depth_start
      exact ⟨hstart.symm, by omega, by rw [hstart]; rfl⟩
  | @take index counted next lexeme h hlexeme hnext ih =>
      obtain ⟨state, count⟩ := counted
      obtain ⟨hcount, hdepth, hbehind⟩ := ih
      obtain rfl : count = depth state := hcount
      simp only at hdepth hbehind
      rw [nests.take_counting hdepth] at hnext
      obtain ⟨found, hfound, rfl⟩ := map_eq_ok_iff.mp hnext
      have hfree := (nests.take_of_take_limited hfound).1
      refine ⟨rfl, nests.depth_le_of_take_limited hdepth hfound, ?_⟩
      rw [nests.depth_take _ _ _ _ hfree, List.take_add_one, hlexeme, depthBehind_append,
        ← hbehind]
      rfl

/-- A step of the reader that counts is one of the reader without a limit. -/
theorem Nests.take_of_reaches (nests : Nests reader nesting depth rules) {index : Nat}
    {counted found : σ × Nat}
    (h : Reaches ((reader none).counting nesting limit) lexemes index counted)
    (htake : ((reader none).counting nesting limit).take counted lexeme ahead = .ok found) :
    (reader none).take counted.1 lexeme ahead = .ok found.1 ∧ found.2 = depth found.1 := by
  obtain ⟨state, count⟩ := counted
  obtain ⟨hcount, hdepth, -⟩ := nests.count_of_reaches h
  obtain rfl : count = depth state := hcount
  rw [nests.take_counting hdepth] at htake
  obtain ⟨next, hnext, rfl⟩ := map_eq_ok_iff.mp htake
  exact ⟨(nests.take_of_take_limited hnext).1, rfl⟩

end Counting

/-! ## What a limit does -/

/-- What a limit on nesting does to the reading of some lexemes: nothing, unless a bracket
opens too deep and reading has not stopped before. Moreover the limit may be enforced by a
count, which is the depth of every state and the number of brackets open there, zero from rule
to rule, and not zero where a closing bracket is taken. -/
structure LimitEffect (reader : Option Nat → Reader τ σ ρ) (nesting : τ → Int)
    (depth : σ → Nat) (rules : σ → List δ) (limit : Nat) (lexemes : List (Lexeme τ)) :
    Prop where
  shallow : (∀ index, ¬ FirstFullAt nesting limit 0 lexemes index) →
    (reader (some limit)).read lexemes = (reader none).read lexemes
  earlier : ∀ index failure, FirstFullAt nesting limit 0 lexemes index →
    (reader none).read lexemes = .error failure → failure.index lexemes < index →
    (reader (some limit)).read lexemes = .error failure
  deep : ∀ index, FirstFullAt nesting limit 0 lexemes index →
    (∀ failure, (reader none).read lexemes = .error failure →
      index ≤ failure.index lexemes) →
    (reader (some limit)).read lexemes = .error ⟨.tooDeep, lexemes.drop index⟩
  counting : ((reader none).counting nesting limit).read lexemes =
    (reader (some limit)).read lexemes
  count : ∀ index state count,
    Reaches ((reader none).counting nesting limit) lexemes index (state, count) →
    (count : Int) = depthBehind nesting 0 (lexemes.take index)
  enclosures : ∀ index state count,
    Reaches ((reader none).counting nesting limit) lexemes index (state, count) →
    count = depth state
  between : ∀ index state count lexeme next nextCount,
    Reaches ((reader none).counting nesting limit) lexemes index (state, count) →
    lexemes[index]? = some lexeme →
    ((reader none).counting nesting limit).take (state, count) lexeme
      (lexemes.drop (index + 1)) = .ok (next, nextCount) →
    rules next ≠ rules state → count = 0 ∧ nextCount = 0
  ending : ∀ state count result,
    Reaches ((reader none).counting nesting limit) lexemes lexemes.length (state, count) →
    ((reader none).counting nesting limit).finish (state, count) = .ok result → count = 0
  closing : ∀ index state count lexeme next,
    Reaches ((reader none).counting nesting limit) lexemes index (state, count) →
    lexemes[index]? = some lexeme → nesting lexeme.token = -1 →
    ((reader none).counting nesting limit).take (state, count) lexeme
      (lexemes.drop (index + 1)) = .ok next → 0 < count

section Effect

variable {reader : Option Nat → Reader τ σ ρ} {nesting : τ → Int} {depth : σ → Nat}
  {rules : σ → List δ} {limit : Nat} {lexemes : List (Lexeme τ)} {failure : Failure τ}

/-- Reading stops at the end of the lexemes or on the way. -/
theorem read_eq_error_iff {reader : Reader τ σ ρ} :
    reader.read lexemes = .error failure ↔
      reader.advance reader.start lexemes = .error failure ∨
        ∃ state cause, reader.advance reader.start lexemes = .ok state ∧
          reader.finish state = .error cause ∧ failure = ⟨cause, []⟩ := by
  rw [read]
  cases hadvance : reader.advance reader.start lexemes with
  | error found => simp
  | ok state =>
      cases hfinish : reader.finish state with
      | error cause => simp [hfinish, eq_comm]
      | ok result => simp [hfinish]

theorem Nests.limitEffect (nests : Nests reader nesting depth rules) (hlimit : 0 < limit)
    (lexemes : List (Lexeme τ)) : LimitEffect reader nesting depth rules limit lexemes where
  shallow := by
    intro h
    have hdepth : depth (reader none).start ≤ limit := by simp [nests.depth_start]
    have hshallow : ∀ index,
        ¬ FullAt nesting limit (depth (reader none).start) lexemes index := by
      rw [nests.depth_start]
      intro index hfull
      obtain ⟨first, hfirst⟩ := exists_firstFullAt hfull
      exact h first hfirst
    rw [read, read, nests.start_eq (some limit), nests.finish_eq (some limit),
      nests.advance_of_shallow hdepth hshallow]
  earlier := by
    intro index failure hfirst hfails hearlier
    have hdepth : depth (reader none).start ≤ limit := by simp [nests.depth_start]
    have hstart : FirstFullAt nesting limit (depth (reader none).start) lexemes index := by
      rw [nests.depth_start]
      exact hfirst
    rcases read_eq_error_iff.mp hfails with hstops | ⟨state, cause, -, -, rfl⟩
    · refine read_eq_error_iff.mpr (.inl ?_)
      rw [nests.start_eq]
      exact nests.advance_of_earlier hdepth hstart hstops hearlier
    · have hlt := hfirst.index_lt
      simp only [Failure.index, List.length_nil] at hearlier
      omega
  deep := by
    intro index hfirst hlater
    have hdepth : depth (reader none).start ≤ limit := by simp [nests.depth_start]
    have hstart : FirstFullAt nesting limit (depth (reader none).start) lexemes index := by
      rw [nests.depth_start]
      exact hfirst
    refine read_eq_error_iff.mpr (.inl ?_)
    rw [nests.start_eq]
    refine nests.advance_of_deep hlimit hdepth hstart ?_
    intro failure hstops
    exact hlater failure (read_eq_error_iff.mpr (.inl hstops))
  counting := nests.read_counting
  count := by
    intro index state count hreaches
    obtain ⟨hcount, -, hbehind⟩ := nests.count_of_reaches hreaches
    rw [← hbehind]
    exact congrArg Nat.cast hcount
  enclosures := by
    intro index state count hreaches
    exact (nests.count_of_reaches hreaches).1
  between := by
    intro index state count lexeme next nextCount hreaches _ htake hrule
    obtain ⟨hnext, hcount⟩ := nests.take_of_reaches hreaches htake
    have hdepths := nests.depth_rule _ _ _ _ hnext hrule
    exact ⟨(nests.count_of_reaches hreaches).1.trans hdepths.1, hcount.trans hdepths.2⟩
  ending := by
    intro state count result hreaches hfinish
    exact (nests.count_of_reaches hreaches).1.trans (nests.depth_finish state result hfinish)
  closing := by
    intro index state count lexeme next hreaches _ hclosing htake
    have hcount := (nests.count_of_reaches hreaches).1
    have hnext := nests.depth_take _ _ _ _ (nests.take_of_reaches hreaches htake).1
    simp only at hcount hnext
    omega

end Effect

end Reader

end GrammarTable.Token
