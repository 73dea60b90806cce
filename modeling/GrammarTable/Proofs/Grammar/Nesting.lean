import GrammarTable.Grammar.Read
import GrammarTable.Proofs.Iso.Limit
import GrammarTable.Proofs.W3c.Limit

/-!
# The limit on nesting

Grammars may nest as deep as the limit in both notations that have brackets. Where one
nests deeper, reading stops at the first bracket that does, unless something else is wrong
before it.
-/

namespace GrammarTable.Grammar

open Token

theorem ofFailure_tooDeep {τ : Type} {lexemes : List (Lexeme τ)} {index : Nat}
    {lexeme : Lexeme τ} (stop : Nat) (h : lexemes[index]? = some lexeme) :
    Finding.ofFailure stop ⟨.tooDeep, lexemes.drop index⟩ = ⟨lexeme.span.start, .tooDeep⟩ := by
  obtain ⟨hlt, rfl⟩ := List.getElem?_eq_some_iff.mp h
  rw [List.drop_eq_getElem_cons hlt]
  rfl

/-- The limit changes nothing but what is found in grammars that nest too deep. -/
theorem nestingLimit_effect :
    (∀ lexemes : List (Lexeme Iso.Sign),
      Reader.LimitEffect Iso.reader Iso.Sign.nesting Iso.State.depth Iso.State.rules nestingLimit
        lexemes) ∧
    (∀ lexemes : List (Lexeme W3c.Sign),
      Reader.LimitEffect W3c.reader W3c.Sign.nesting W3c.State.depth W3c.State.rules nestingLimit
        lexemes) ∧
    (∀ (τ : Type) (lexemes : List (Lexeme τ)) (index stop : Nat) (lexeme : Lexeme τ),
      lexemes[index]? = some lexeme →
      Finding.ofFailure stop ⟨.tooDeep, lexemes.drop index⟩ =
        ⟨lexeme.span.start, .tooDeep⟩) ∧
    Complaint.words .tooDeep = "nesting exceeds 256 levels" := by
  have hlimit : 0 < nestingLimit := by decide
  exact ⟨Iso.nests.limitEffect hlimit, W3c.nests.limitEffect hlimit,
    fun _ _ _ stop _ h => ofFailure_tooDeep stop h, by decide⟩

/-- The start of a rule and so many opening parentheses. -/
def tower (height : Nat) : List (Lexeme Iso.Sign) :=
  [⟨.name "a", "a", ⟨0, 1⟩⟩, ⟨.define, "=", ⟨2, 3⟩⟩] ++
    (List.range height).map fun floor => ⟨.opening .round, "(", ⟨4 + floor, 5 + floor⟩⟩

theorem firstFullAt_tower :
    FirstFullAt Iso.Sign.nesting nestingLimit 0 (tower 257) 258 := by
  refine ⟨⟨_, rfl, rfl, by decide +kernel⟩, ?_⟩
  intro earlier hlt hfull
  match earlier with
  | 0 => exact absurd (fullAt_zero_iff.mp hfull).1 (by decide)
  | 1 => exact absurd (fullAt_zero_iff.mp (fullAt_succ_iff.mp hfull)).1 (by decide)
  | earlier + 2 =>
      -- Too few parentheses stand in front.
      obtain ⟨_, -, -, hdepth⟩ := fullAt_succ_iff.mp (fullAt_succ_iff.mp hfull)
      have hle := Int.le_trans (Int.le_of_eq hdepth.symm)
        (depthBehind_le Iso.Sign.nesting_cases)
      simp only [List.length_take, nestingLimit, Iso.Sign.nesting] at hle
      omega

/-- Without a limit the end of the text is what is wrong, with it the last parenthesis. -/
theorem read_tower :
    (Iso.reader none).read (tower 257) = .error ⟨.unexpected .factor, []⟩ ∧
      (Iso.reader (some nestingLimit)).read (tower 257) =
        .error ⟨.tooDeep, (tower 257).drop 258⟩ := by
  have hfree : (Iso.reader none).read (tower 257) = .error ⟨.unexpected .factor, []⟩ := rfl
  refine ⟨hfree, (nestingLimit_effect.1 (tower 257)).deep 258 firstFullAt_tower ?_⟩
  intro failure hfails
  obtain rfl := Except.error.inj (hfree.symm.trans hfails)
  simp [Failure.index, tower]

end GrammarTable.Grammar
