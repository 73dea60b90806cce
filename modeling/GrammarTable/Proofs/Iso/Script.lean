import GrammarTable.Proofs.Grammar.Scheme
import GrammarTable.Proofs.Grammar.Script
import GrammarTable.Proofs.Iso.Derivation
import GrammarTable.Proofs.Iso.Limit
import GrammarTable.Proofs.Iso.Moved

/-!
# The script of the ISO style

A text needs a derivation whose brackets nest within the limit. A rule ends with its
semicolon.
-/

namespace GrammarTable.Iso

open Grammar Rule Text Token

theorem Declaration.span_draft (declaration : Declaration) :
    ∃ first ∈ declaration.lexemes.head?, ∃ last ∈ declaration.lexemes.getLast?,
      declaration.draft.label.span = some ⟨first.span.start, last.span.stop⟩ := by
  obtain ⟨name, define, body, semicolon⟩ := declaration
  obtain ⟨last, hlast, hstop⟩ := endsAt_append_singleton
    (name.as (.name name.token) :: define.as .define :: body.lexemes) (semicolon.as .semicolon)
  exact ⟨_, rfl, last, hlast, by rw [hstop]; rfl⟩

theorem derives (limit : Nat) :
    (reader (some limit)).Derives Declaration.lexemes (fun _ _ => True) Sign.nesting
      (some limit) where
  read_eq_ok_iff {lexemes declarations} := by
    have hchain : declarations.IsChain fun _ _ => True :=
      List.isChain_iff_getElem.mpr fun _ _ => trivial
    constructor
    · intro h
      exact ⟨yield_of_read h, hchain, nests.nestsWithin_of_read h⟩
    · rintro ⟨hyield, -, fits⟩
      exact (read_eq_ok_iff fits).mpr hyield
  depthBehind_eq := Declaration.depthBehind_lexemes

def script : Script Sign State Declaration where
  scheme := scheme
  reader := reader (some nestingLimit)
  draft := Declaration.draft
  lexemesOf := Declaration.lexemes
  meets _ _ := True
  nesting := Sign.nesting
  limit? := some nestingLimit
  state := State.moved
  moved := Declaration.moved
  joins _ _ := True
  tidy := tidy
  derives := derives nestingLimit
  moves _ := moves
  draft_moved _ declaration := declaration.draft_moved
  span_draft := Declaration.span_draft
  meets_moved _ _ _ _ := trivial

end GrammarTable.Iso
