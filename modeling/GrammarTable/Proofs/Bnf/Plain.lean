import GrammarTable.Proofs.Bnf.Script
import GrammarTable.Proofs.Plain.Phrasing
import GrammarTable.Proofs.Text.Trimmed

/-!
# Productions in BNF

A name stands in angle brackets, and a rule ends where the next one starts.
-/

namespace GrammarTable

/-! ## Names without blanks -/

namespace Text

theorem isBlank_of_isWordPart {c : Char} (h : isWordPart c = true) : isBlank c = false := by
  obtain ⟨hlow, hhigh⟩ := toNat_of_isWordPart h
  simp only [isBlank, Bool.or_eq_false_iff, Bool.and_eq_false_iff, decide_eq_false_iff_not,
    beq_eq_false_iff_ne]
  omega

end Text

namespace Bnf

open Plain Rule Text Token

/-! ## The words -/

def manner : Manner Sign where
  name := .enclosed '<' '>' .name
  literal quote := .enclosed quote quote .literal
  define := ⟨.define, [':', ':', '=']⟩
  bar := ⟨.bar, ['|']⟩
  joints := [[]]
  ending := []

theorem isNameChar_of_mem {name : Name} {c : Char} (h : c ∈ name.text.toList) :
    isNameChar c = true ∧ isBlank c = false := by
  have hpart := name.forall_mem c h
  rw [Bool.or_eq_true, beq_iff_eq] at hpart
  rcases hpart with hword | rfl
  · have hother : ∀ d, isWordPart d = false → c ≠ d := by
      rintro d hd rfl
      exact absurd (hword.symm.trans hd) (by decide)
    refine ⟨?_, isBlank_of_isWordPart hword⟩
    simp [isNameChar, isInline, hother '<' (by decide), hother '>' (by decide),
      hother '\r' (by decide), hother '\n' (by decide)]
  · decide

theorem whole_name (name : Name) : scheme.lexicon.Whole (manner.name name.text) := by
  have owns : scheme.Owns (.enclosing (.enclosed '<' isNameChar '>' 1) fun text =>
      .name (Text.trim text)) '<' := .of_filter rfl nofun
  obtain ⟨c, rest, htext, -⟩ := name.exists_eq_cons
  refine owns.whole_enclosed (fun d hd => (isNameChar_of_mem hd).1) ?_ rfl ?_
  · rw [htext, List.length_cons]
    exact Nat.le_add_left 1 _
  · rw [trim, trimChars_eq_self fun d hd => (isNameChar_of_mem hd).2, String.ofList_toList]

theorem fits_manner : manner.All (Fits script) where
  name name := ⟨whole_name name, rfl⟩
  literal quoted _ hquote hfree :=
    ⟨quoted.whole (.of_filter rfl (by decide)) (.of_filter rfl (by decide)) (fun _ h => h) hquote
      hfree, rfl⟩
  sign := by
    have hdefine : Fits script manner.define := ⟨Lexicon.whole_of_cut rfl, rfl⟩
    have hbar : Fits script manner.bar := ⟨Lexicon.whole_of_cut rfl, rfl⟩
    exact List.forall_mem_cons.mpr ⟨hdefine, List.forall_mem_singleton.mpr hbar⟩

/-! ## The rules -/

def items : Phrasing Sign Item where
  lexemes item := [item.lexeme]
  draftsOnto item later := item.draft :: later
  start item := item.span.start
  stop item := item.span.stop

def sequences : Phrasing Sign Sequence where
  lexemes := Sequence.lexemes
  draftsOnto := Sequence.draftsOnto
  start := Sequence.start
  stop := Sequence.stop

def bodies (owner : String) : Phrasing Sign Body where
  lexemes := Body.lexemes
  draftsOnto := Body.draftsOnto owner
  start := Body.start
  stop := Body.stop

theorem covers (owner : String) :
    Phrasing.Covers manner owner items sequences (bodies owner) where
  exists_item item words h := by
    cases h with
    | reference name =>
        exact ⟨.reference ((manner.name name.text).lexeme.as name.text), rfl, fun _ => rfl, rfl,
          rfl⟩
    | literal quoted hquote hfree =>
        exact ⟨.literal ((manner.literal _ quoted.text).lexeme.as quoted.text), rfl, fun _ => rfl,
          rfl, rfl⟩
  terms_of_items.exists_one item := ⟨.one item, rfl, fun _ => rfl, rfl, rfl⟩
  terms_of_items.exists_snoc before joint hjoint item := by
    obtain rfl := List.mem_singleton.mp hjoint
    exact ⟨.snoc before item, rfl, fun _ => rfl, rfl, rfl⟩
  bodies_of_terms.exists_one sequence := ⟨.one sequence, rfl, fun _ => rfl, rfl, rfl⟩
  bodies_of_terms.exists_snoc before joint hjoint sequence := by
    obtain rfl := List.mem_singleton.mp hjoint
    exact ⟨.or before (manner.bar.lexeme.as ()) sequence, rfl, fun _ => rfl, rfl, rfl⟩

theorem suits : manner.Suits script where
  fits := fits_manner
  exists_rule {production words} h := by
    obtain ⟨written, hwritten, rfl⟩ := h
    obtain ⟨body, hbody⟩ := (covers production.name.text).exists_body hwritten
    refine ⟨⟨(manner.name production.name.text).lexeme.as production.name.text,
      manner.define.lexeme.as (), body⟩, ?_, hbody.rule_eq hbody.stop, fun _ => trivial⟩
    have hending : written ++ manner.ending = written := List.append_nil _
    rw [hending, List.map_cons, List.map_cons, ← hbody.lexemes]
    rfl

end Bnf

end GrammarTable
