import GrammarTable.Proofs.Iso.Script
import GrammarTable.Proofs.Plain.Phrasing

/-!
# Productions in the ISO style

Names stand as they are, items may have a comma between them, and a rule ends with a
semicolon.
-/

namespace GrammarTable.Iso

open Plain Rule Text Token

/-! ## The words -/

def manner : Manner Sign where
  name := .bare .name
  literal quote := .enclosed quote quote .literal
  define := ⟨.define, [':', ':', '=']⟩
  bar := ⟨.bar, ['|']⟩
  joints := [[], [⟨.comma, [',']⟩]]
  ending := [⟨.semicolon, [';']⟩]

theorem name_mem_entries :
    (.carrying (.word isWordStart isNamePart) .name : Entry Sign) ∈ scheme.lexicon.entries := by
  simp [Scheme.lexicon, scheme, lexicon]

theorem fits_manner : manner.All (Fits script) where
  name name := ⟨name.whole tidy name_mem_entries (fun _ h => h) (by decide), rfl⟩
  literal quoted _ hquote hfree :=
    ⟨quoted.whole (.of_filter rfl (by decide)) (.of_filter rfl (by decide)) (fun _ h => h) hquote
      hfree, rfl⟩
  sign := by
    have hdefine : Fits script manner.define := ⟨Lexicon.whole_of_cut rfl, rfl⟩
    have hbar : Fits script manner.bar := ⟨Lexicon.whole_of_cut rfl, rfl⟩
    have hcomma : Fits script ⟨.comma, [',']⟩ := ⟨Lexicon.whole_of_cut rfl, rfl⟩
    have hsemicolon : Fits script ⟨.semicolon, [';']⟩ := ⟨Lexicon.whole_of_cut rfl, rfl⟩
    refine List.forall_mem_cons.mpr ⟨hdefine, List.forall_mem_cons.mpr ⟨hbar, ?_⟩⟩
    exact List.forall_mem_cons.mpr ⟨hcomma, List.forall_mem_singleton.mpr hsemicolon⟩

/-! ## The rules -/

def factors (owner : String) : Phrasing Sign Factor where
  lexemes := Factor.lexemes
  draftsOnto factor later := factor.draft owner :: later
  start := Factor.start
  stop := Factor.stop

def terms (owner : String) : Phrasing Sign Term where
  lexemes := Term.lexemes
  draftsOnto := Term.draftsOnto owner
  start := Term.start
  stop := Term.stop

def expressions (owner : String) : Phrasing Sign Expression where
  lexemes := Expression.lexemes
  draftsOnto := Expression.draftsOnto owner
  start := Expression.start
  stop := Expression.stop

theorem covers (owner : String) :
    Phrasing.Covers manner owner (factors owner) (terms owner) (expressions owner) where
  exists_item item words h := by
    cases h with
    | reference name =>
        exact ⟨.reference ((manner.name name.text).lexeme.as name.text), rfl, fun _ => rfl, rfl,
          rfl⟩
    | literal quoted hquote hfree =>
        exact ⟨.literal ((manner.literal _ quoted.text).lexeme.as quoted.text), rfl, fun _ => rfl,
          rfl, rfl⟩
  terms_of_items.exists_one factor := ⟨.one factor, rfl, fun _ => rfl, rfl, rfl⟩
  terms_of_items.exists_snoc before joint hjoint factor := by
    rcases List.mem_pair.mp hjoint with rfl | rfl
    · exact ⟨.snoc before none factor, rfl, fun _ => rfl, rfl, rfl⟩
    · let comma : Word Sign := ⟨.comma, [',']⟩
      exact ⟨.snoc before (some (comma.lexeme.as ())) factor, rfl, fun _ => rfl, rfl, rfl⟩
  bodies_of_terms.exists_one term := ⟨.one term, rfl, fun _ => rfl, rfl, rfl⟩
  bodies_of_terms.exists_snoc before joint hjoint term := by
    obtain rfl := List.mem_singleton.mp hjoint
    exact ⟨.or before (manner.bar.lexeme.as ()) term, rfl, fun _ => rfl, rfl, rfl⟩

theorem suits : manner.Suits script where
  fits := fits_manner
  exists_rule {production words} h := by
    obtain ⟨written, hwritten, rfl⟩ := h
    obtain ⟨body, hbody⟩ := (covers production.name.text).exists_body hwritten
    let semicolon : Word Sign := ⟨.semicolon, [';']⟩
    refine ⟨⟨(manner.name production.name.text).lexeme.as production.name.text,
      manner.define.lexeme.as (), body, semicolon.lexeme.as ()⟩, ?_, hbody.rule_eq rfl,
      fun _ => trivial⟩
    rw [List.map_cons, List.map_cons, List.map_append, ← hbody.lexemes]
    rfl

end GrammarTable.Iso
