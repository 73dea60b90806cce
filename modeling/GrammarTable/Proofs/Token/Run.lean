import GrammarTable.Token.Reader

/-!
# Runs of a reader

A run takes some lexemes in front of others, since a step may look ahead. Runs compose, and
what each step adds to a view of the state, a run adds lexeme by lexeme. Open brackets are
counted along the way.
-/

namespace GrammarTable.Token

variable {τ σ ρ : Type}

/-! ## Runs -/

def Reader.Takes (reader : Reader τ σ ρ) (state : σ) (lexemes rest : List (Lexeme τ))
    (next : σ) : Prop :=
  reader.advance state (lexemes ++ rest) = reader.advance next rest

namespace Reader

variable {reader : Reader τ σ ρ} {state middle next : σ} {lexeme : Lexeme τ}
  {lexemes front back rest : List (Lexeme τ)}

theorem Takes.nil (state : σ) : reader.Takes state [] rest state := rfl

theorem Takes.trans (first : reader.Takes state front (back ++ rest) middle)
    (second : reader.Takes middle back rest next) :
    reader.Takes state (front ++ back) rest next := by
  unfold Takes at first second ⊢
  rw [List.append_assoc, first, second]

theorem Takes.of_take (h : reader.take state lexeme rest = .ok next) :
    reader.Takes state [lexeme] rest next := by
  unfold Takes
  rw [List.singleton_append, advance, h]

theorem Takes.cons (h : reader.take state lexeme (back ++ rest) = .ok middle)
    (later : reader.Takes middle back rest next) :
    reader.Takes state (lexeme :: back) rest next :=
  Takes.trans (.of_take h) later

/-- Two states that take a lexeme alike take everything that starts with it alike. -/
theorem Takes.of_take_eq
    (h : reader.take state lexeme (back ++ rest) = reader.take middle lexeme (back ++ rest))
    (later : reader.Takes middle (lexeme :: back) rest next) :
    reader.Takes state (lexeme :: back) rest next := by
  unfold Takes at later ⊢
  rw [← later, List.cons_append, advance, advance, h]

/-- The lexemes seen in the state are those taken, when each step adds its own. -/
theorem view_of_advance {view : σ → List (Lexeme τ)}
    (step : ∀ state lexeme ahead next, reader.take state lexeme ahead = .ok next →
      view next = view state ++ [lexeme])
    (h : reader.advance state lexemes = .ok next) : view next = view state ++ lexemes := by
  induction lexemes generalizing state with
  | nil =>
      obtain rfl : state = next := Except.ok.inj h
      rw [List.append_nil]
  | cons lexeme rest ih =>
      rw [advance] at h
      split at h
      · exact nomatch h
      · rename_i middle hmiddle
        rw [ih h, step _ _ _ _ hmiddle, List.append_assoc, List.singleton_append]

theorem read_eq_ok_iff {result : ρ} :
    reader.read lexemes = .ok result ↔
      ∃ state, reader.advance reader.start lexemes = .ok state ∧
        reader.finish state = .ok result := by
  unfold read
  constructor
  · intro h
    split at h
    · exact nomatch h
    · rename_i state hstate
      split at h
      · exact nomatch h
      · rename_i found hfound
        obtain rfl := Except.ok.inj h
        exact ⟨state, hstate, hfound⟩
  · rintro ⟨state, hstate, hfinish⟩
    simp only [hstate, hfinish]

theorem read_of_takes {result : ρ} (h : reader.Takes reader.start lexemes [] next)
    (hfinish : reader.finish next = .ok result) : reader.read lexemes = .ok result := by
  refine read_eq_ok_iff.mpr ⟨next, ?_, hfinish⟩
  unfold Takes at h
  rwa [List.append_nil] at h

end Reader

theorem map_eq_ok_iff {ε α β : Type} {f : α → β} {found : Except ε α} {result : β} :
    found.map f = .ok result ↔ ∃ value, found = .ok value ∧ f value = result := by
  cases found <;> simp [Except.map]

/-! ## Nesting -/

section Nesting

variable {nesting : τ → Int} {limit? : Option Nat} {depth : Int} {lexeme : Lexeme τ}
  {lexemes front back : List (Lexeme τ)}

/-- The depth behind some lexemes, when each token adds its nesting to the depth. -/
def depthBehind (nesting : τ → Int) (depth : Int) : List (Lexeme τ) → Int
  | [] => depth
  | lexeme :: rest => depthBehind nesting (depth + nesting lexeme.token) rest

/-- The depth never exceeds a limit, from some depth on. -/
def NestsWithin (nesting : τ → Int) (limit? : Option Nat) (depth : Int) :
    List (Lexeme τ) → Prop
  | [] => ∀ limit ∈ limit?, depth ≤ (limit : Nat)
  | lexeme :: rest =>
      (∀ limit ∈ limit?, depth ≤ (limit : Nat)) ∧
        NestsWithin nesting limit? (depth + nesting lexeme.token) rest

instance decidableNestsWithin (nesting : τ → Int) (limit? : Option Nat) (depth : Int) :
    (lexemes : List (Lexeme τ)) → Decidable (NestsWithin nesting limit? depth lexemes)
  | [] => inferInstanceAs (Decidable (∀ limit ∈ limit?, depth ≤ (limit : Nat)))
  | lexeme :: rest =>
      have := decidableNestsWithin nesting limit? (depth + nesting lexeme.token) rest
      inferInstanceAs (Decidable (_ ∧ _))

@[simp] theorem depthBehind_append :
    depthBehind nesting depth (front ++ back) =
      depthBehind nesting (depthBehind nesting depth front) back := by
  induction front generalizing depth with
  | nil => rfl
  | cons lexeme rest ih => exact ih

theorem NestsWithin.depth_le (h : NestsWithin nesting limit? depth lexemes) :
    ∀ limit ∈ limit?, depth ≤ (limit : Nat) := by
  cases lexemes with
  | nil => exact h
  | cons lexeme rest => exact h.1

@[simp] theorem nestsWithin_append :
    NestsWithin nesting limit? depth (front ++ back) ↔
      NestsWithin nesting limit? depth front ∧
        NestsWithin nesting limit? (depthBehind nesting depth front) back := by
  induction front generalizing depth with
  | nil => exact ⟨fun h => ⟨h.depth_le, h⟩, fun h => h.2⟩
  | cons lexeme rest ih =>
      rw [List.cons_append, NestsWithin, NestsWithin, ih, depthBehind, and_assoc]

theorem nestsWithin_none (depth : Int) (lexemes : List (Lexeme τ)) :
    NestsWithin nesting none depth lexemes := by
  induction lexemes generalizing depth with
  | nil => exact nofun
  | cons lexeme rest ih => exact ⟨nofun, ih _⟩

theorem isFull_eq_false {opened : Nat}
    (h : ∀ limit ∈ limit?, (opened : Int) + 1 ≤ (limit : Nat)) :
    isFull limit? opened = false := by
  cases limit? with
  | none => rfl
  | some limit =>
      have := h limit rfl
      simp only [isFull, decide_eq_false_iff_not]
      omega

end Nesting

end GrammarTable.Token
