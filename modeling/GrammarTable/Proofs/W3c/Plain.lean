import GrammarTable.Proofs.Plain.Phrasing
import GrammarTable.Proofs.W3c.Script

/-!
# Productions in W3C EBNF

Names stand as they are, and a rule ends where the next one starts. Productions have no
labels, so no rule hands one over.
-/

namespace GrammarTable.W3c

open Plain Rule Text Token

/-! ## The words -/

def manner : Manner Sign where
  name := .bare .name
  literal quote := .enclosed quote quote .literal
  define := ⟨.define, [':', ':', '=']⟩
  bar := ⟨.bar, ['|']⟩
  joints := [[]]
  ending := []

theorem name_mem_entries :
    (.carrying (.word isWordStart isNamePart) .name : Entry Sign) ∈ scheme.lexicon.entries := by
  simp [Scheme.lexicon, scheme, lexicon]

theorem isNamePart_of_part {c : Char} (h : (isWordPart c || c == '-') = true) :
    isNamePart c = true := by
  simp only [isNamePart, Bool.or_eq_true] at h ⊢
  exact h.imp_left .inl

theorem fits_manner : manner.All (Fits script) where
  name name := ⟨name.whole tidy name_mem_entries (fun _ => isNamePart_of_part) (by decide), rfl⟩
  literal quoted _ hquote hfree :=
    ⟨quoted.whole (.of_filter rfl (by decide)) (.of_filter rfl (by decide)) (fun _ _ => rfl) hquote
      hfree, rfl⟩
  sign := by
    have hdefine : Fits script manner.define := ⟨Lexicon.whole_of_cut rfl, rfl⟩
    have hbar : Fits script manner.bar := ⟨Lexicon.whole_of_cut rfl, rfl⟩
    exact List.forall_mem_cons.mpr ⟨hdefine, List.forall_mem_singleton.mpr hbar⟩

/-! ## The rules -/

def items (owner : String) : Phrasing Sign Item where
  lexemes := Item.lexemes
  draftsOnto item later := item.draft owner :: later
  start item := item.span.start
  stop item := item.span.stop

def sequences (owner : String) : Phrasing Sign Sequence where
  lexemes := Sequence.lexemes
  draftsOnto := Sequence.draftsOnto owner
  start := Sequence.start
  stop := Sequence.stop

def choices (owner : String) : Phrasing Sign Choice where
  lexemes := Choice.lexemes
  draftsOnto := Choice.draftsOnto owner
  start := Choice.start
  stop := Choice.stop

theorem covers (owner : String) :
    Phrasing.Covers manner owner (items owner) (sequences owner) (choices owner) where
  exists_item item words h := by
    cases h with
    | reference name =>
        exact ⟨.alone (.plain (.reference ((manner.name name.text).lexeme.as name.text))), rfl,
          fun _ => rfl, rfl, rfl⟩
    | literal quoted hquote hfree =>
        exact ⟨.alone (.plain (.literal ((manner.literal _ quoted.text).lexeme.as quoted.text))),
          rfl, fun _ => rfl, rfl, rfl⟩
  terms_of_items.exists_one item := ⟨.one item, rfl, fun _ => rfl, rfl, rfl⟩
  terms_of_items.exists_snoc before joint hjoint item := by
    obtain rfl := List.mem_singleton.mp hjoint
    exact ⟨.snoc before item, rfl, fun _ => rfl, rfl, rfl⟩
  bodies_of_terms.exists_one sequence := ⟨.one sequence, rfl, fun _ => rfl, rfl, rfl⟩
  bodies_of_terms.exists_snoc before joint hjoint sequence := by
    obtain rfl := List.mem_singleton.mp hjoint
    exact ⟨.or before (manner.bar.lexeme.as ()) sequence, rfl, fun _ => rfl, rfl, rfl⟩

theorem unlabelled_manner : manner.All fun word => word.token.isLabel = false where
  name _ := rfl
  literal _ _ _ _ := rfl
  sign := by decide

/-- A rule that ends in no label leaves the next one its own. -/
theorem ownsLabel_of_unlabelled {declaration : Declaration}
    (h : ∀ lexeme ∈ declaration.lexemes, lexeme.token.isLabel = false) (other : Declaration) :
    OwnsLabel declaration other := by
  refine ownsLabel_iff.mpr fun _ => declaration.fixed_iff.mp ?_
  obtain ⟨front, last, hlexemes, -⟩ := declaration.closed
  rw [hlexemes] at h ⊢
  exact fixed_of_isLabel front (h last List.mem_concat_self)

theorem suits : manner.Suits script where
  fits := fits_manner
  exists_rule {production words} h := by
    have hunlabelled := h.forall_mem unlabelled_manner
    obtain ⟨written, hwritten, rfl⟩ := h
    obtain ⟨body, hbody⟩ := (covers production.name.text).exists_body hwritten
    let declaration : Declaration :=
      ⟨none, (manner.name production.name.text).lexeme.as production.name.text,
        manner.define.lexeme.as (), body⟩
    have hlexemes : declaration.lexemes = (manner.name production.name.text :: manner.define ::
        (written ++ manner.ending)).map Word.lexeme := by
      have hending : written ++ manner.ending = written := List.append_nil _
      rw [hending, List.map_cons, List.map_cons, ← hbody.lexemes]
      rfl
    refine ⟨declaration, hlexemes, hbody.rule_eq hbody.stop, ownsLabel_of_unlabelled ?_⟩
    rw [hlexemes]
    exact List.forall_mem_map.mpr hunlabelled

end GrammarTable.W3c
