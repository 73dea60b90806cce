import GrammarTable.Proofs.Bnf.Derivation
import GrammarTable.Proofs.Bnf.Moved
import GrammarTable.Proofs.Grammar.Scheme
import GrammarTable.Proofs.Grammar.Script

/-!
# The script of BNF

Brackets do not nest in BNF and no lexeme has two readings, so all that a text needs is a
derivation. A rule ends with its last item.
-/

namespace GrammarTable.Bnf

open Grammar Rule Text Token

/-! ## Where a phrase ends -/

theorem Item.endsAt (item : Item) : EndsAt [item.lexeme] item.span.stop := by
  cases item <;> exact ⟨_, rfl, rfl⟩

theorem Sequence.endsAt (sequence : Sequence) : EndsAt sequence.lexemes sequence.stop := by
  cases sequence with
  | one item => exact item.endsAt
  | snoc before item => exact item.endsAt.append before.lexemes

theorem Body.endsAt (body : Body) : EndsAt body.lexemes body.stop := by
  cases body with
  | one sequence => exact sequence.endsAt
  | or before bar sequence => exact (sequence.endsAt.append [bar.as .bar]).append before.lexemes

theorem Declaration.span_draft (declaration : Declaration) :
    ∃ first ∈ declaration.lexemes.head?, ∃ last ∈ declaration.lexemes.getLast?,
      declaration.draft.label.span = some ⟨first.span.start, last.span.stop⟩ := by
  obtain ⟨name, define, body⟩ := declaration
  obtain ⟨last, hlast, hstop⟩ :=
    body.endsAt.append [name.as (.name name.token), define.as .define]
  exact ⟨_, rfl, last, hlast, by rw [hstop]; rfl⟩

/-! ## The script -/

theorem derives : reader.Derives Declaration.lexemes (fun _ _ => True) (fun _ => 0) none where
  read_eq_ok_iff {lexemes declarations} := by
    have hchain : declarations.IsChain fun _ _ => True :=
      List.isChain_iff_getElem.mpr fun _ _ => trivial
    simp only [hchain, nestsWithin_none, and_true]
    exact read_eq_ok_iff
  depthBehind_eq _ _ := depthBehind_of_level fun _ _ => rfl

def script : Script Sign State Declaration where
  scheme := scheme
  reader := reader
  draft := Declaration.draft
  lexemesOf := Declaration.lexemes
  meets _ _ := True
  nesting _ := 0
  limit? := none
  state := State.moved
  moved := Declaration.moved
  joins _ _ := True
  tidy := tidy
  derives := derives
  moves _ := moves
  draft_moved _ declaration := declaration.draft_moved
  span_draft := Declaration.span_draft
  meets_moved _ _ _ _ := trivial

end GrammarTable.Bnf
