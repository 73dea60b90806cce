import GrammarTable.Proofs.Grammar.Scheme
import GrammarTable.Proofs.Grammar.Script
import GrammarTable.Proofs.W3c.Derivation
import GrammarTable.Proofs.W3c.Limit
import GrammarTable.Proofs.W3c.Moved

/-!
# The script of W3C EBNF

A text needs a settled derivation whose parentheses nest within the limit. A rule ends with
its last item, and a text that ends in a label would hand it over to a rule without one.
-/

namespace GrammarTable.W3c

open Grammar Rule Text Token

/-! ## Where a phrase ends -/

theorem Primary.endsAt (primary : Primary) : EndsAt primary.lexemes primary.span.stop := by
  cases primary with
  | reference name => exact ⟨_, rfl, rfl⟩
  | literal text => exact ⟨_, rfl, rfl⟩
  | pattern text => exact ⟨_, rfl, rfl⟩
  | label text => exact ⟨_, rfl, rfl⟩
  | group opening body closing =>
      exact endsAt_append_singleton (opening.as .opening :: body.lexemes) (closing.as .closing)

theorem Operand.endsAt (operand : Operand) : EndsAt operand.lexemes operand.span.stop := by
  cases operand with
  | plain primary => exact primary.endsAt
  | repeated primary operator => exact endsAt_append_singleton primary.lexemes _

theorem Item.endsAt (item : Item) : EndsAt item.lexemes item.span.stop := by
  cases item with
  | alone operand => exact operand.endsAt
  | difference left minus right =>
      exact (right.endsAt.append [minus.as .minus]).append left.lexemes

theorem Sequence.endsAt (sequence : Sequence) : EndsAt sequence.lexemes sequence.stop := by
  cases sequence with
  | one item => exact item.endsAt
  | snoc before item => exact item.endsAt.append before.lexemes

theorem Choice.endsAt (choice : Choice) : EndsAt choice.lexemes choice.stop := by
  cases choice with
  | one sequence => exact sequence.endsAt
  | or before bar sequence => exact (sequence.endsAt.append [bar.as .bar]).append before.lexemes

theorem Declaration.span_draft (declaration : Declaration) :
    ∃ first ∈ declaration.lexemes.head?, ∃ last ∈ declaration.lexemes.getLast?,
      declaration.draft.label.span = some ⟨first.span.start, last.span.stop⟩ := by
  obtain ⟨label?, name, define, body⟩ := declaration
  obtain ⟨last, hlast, hstop⟩ :=
    (body.endsAt.append [name.as (.name name.token), define.as .define]).append
      (labelLexemes label?)
  cases label? with
  | none => exact ⟨_, rfl, last, hlast, by rw [hstop]; rfl⟩
  | some label => exact ⟨_, rfl, last, hlast, by rw [hstop]; rfl⟩

/-! ## The script -/

theorem settled_iff_isChain (declarations : List Declaration) :
    Settled declarations ↔ declarations.IsChain OwnsLabel := by
  induction declarations with
  | nil => simp [Settled]
  | cons declaration later ih =>
      cases later with
      | nil => simp [Settled]
      | cons after later => rw [Settled, ih, List.isChain_cons_cons]

theorem settled_of_read {limit : Nat} {lexemes : List (Lexeme Sign)}
    {declarations : List Declaration}
    (h : (reader (some limit)).read lexemes = .ok declarations) : Settled declarations := by
  have hsettle := read_eq_ok_settle (nests.nestsWithin_of_read h) (yield_of_read h)
  rw [← Except.ok.inj (hsettle.symm.trans h)]
  exact settled_settle declarations

theorem derives (limit : Nat) :
    (reader (some limit)).Derives Declaration.lexemes OwnsLabel Sign.nesting (some limit) where
  read_eq_ok_iff {lexemes declarations} := by
    rw [← settled_iff_isChain]
    constructor
    · intro h
      exact ⟨yield_of_read h, settled_of_read h, nests.nestsWithin_of_read h⟩
    · rintro ⟨rfl, hsettled, fits⟩
      exact read_yield hsettled fits
  depthBehind_eq := Declaration.depthBehind_lexemes

/-- A label at the end of a text is a further item or the number of the next rule, so the next
rule should have a number of its own. -/
def joins (last first : Sign) : Prop :=
  last.isLabel = false ∨ first.isLabel = true

theorem ownsLabel_of_joins {g : Nat → Nat} {before after : Declaration}
    (h : ∀ last ∈ before.lexemes.getLast?, ∀ first ∈ after.lexemes.head?,
      joins last.token first.token) : OwnsLabel before (after.moved g) := by
  refine ownsLabel_iff.mpr fun hlabel => before.fixed_iff.mp ?_
  obtain ⟨front, last, hlexemes, -⟩ := before.closed
  rw [hlexemes] at h ⊢
  have hafter : after.label? = none := Option.map_eq_none_iff.mp hlabel
  have hhead : after.name.as (.name after.name.token) ∈ after.lexemes.head? := by
    rw [Declaration.lexemes, hafter]
    rfl
  rcases h last List.getLast?_concat _ hhead with hlast | hfirst
  · exact fixed_of_isLabel front hlast
  · exact absurd hfirst Bool.false_ne_true

def script : Script Sign State Declaration where
  scheme := scheme
  reader := reader (some nestingLimit)
  draft := Declaration.draft
  lexemesOf := Declaration.lexemes
  meets := OwnsLabel
  nesting := Sign.nesting
  limit? := some nestingLimit
  state := State.moved
  moved := Declaration.moved
  joins := joins
  tidy := tidy
  derives := derives nestingLimit
  moves _ := moves
  draft_moved _ declaration := declaration.draft_moved
  span_draft := Declaration.span_draft
  meets_moved _ _ _ := ownsLabel_of_joins

end GrammarTable.W3c
