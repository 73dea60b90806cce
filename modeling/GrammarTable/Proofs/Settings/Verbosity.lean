import GrammarTable.Proofs.Text.Folded
import GrammarTable.Settings.Verbosity

/-!
# Verbosity settings in order

Which settings a run can be told to be quiet or wordy by, said without the check, and what the
fault of any other setting carries.
-/

namespace GrammarTable.Settings

open Text

/-- The verbosity that a setting asks for: quiet where nothing is set but blanks, else that of
the word, with blanks around it and with letters of any case. -/
inductive AsksFor : Option String → Verbosity → Prop where
  | absent : AsksFor none .quiet
  | blank {text : String} (h : Trimmed text "") : AsksFor (some text) .quiet
  | word {text core : String} {verbosity : Verbosity} (htrim : Trimmed text core)
      (h : SameLetters core verbosity.word) : AsksFor (some text) verbosity

theorem find?_verbosity_eq_some_iff {text : String} {verbosity : Verbosity} :
    [Verbosity.quiet, .debug, .verbose].find? (fun known => known.word == lower text) =
      some verbosity ↔ SameLetters text verbosity.word := by
  apply find?_word_eq_some_iff
  case hknown => cases verbosity <;> decide
  case hsmall => cases verbosity <;> rfl
  case hwords =>
    intro other h
    cases other <;> cases verbosity <;> first | rfl | exact nomatch h

theorem lower_eq_empty_iff {text : String} : lower text = "" ↔ text = "" := by
  rw [← String.toList_eq_nil_iff, lower, String.toList_ofList, List.map_eq_nil_iff,
    String.toList_eq_nil_iff]

theorem asksFor_some_iff {text : String} {verbosity : Verbosity} :
    AsksFor (some text) verbosity ↔
      if trim text = "" then verbosity = .quiet else SameLetters (trim text) verbosity.word := by
  by_cases hblank : trim text = ""
  · rw [if_pos hblank]
    constructor
    · intro h
      cases h with
      | blank => rfl
      | word htrim hsame =>
          rw [← trim_eq_iff.mpr htrim, hblank] at hsame
          cases verbosity <;> cases hsame
    · intro h
      rw [h]
      exact .blank (trim_eq_iff.mp hblank)
  · rw [if_neg hblank]
    constructor
    · intro h
      cases h with
      | blank htrim => exact absurd (trim_eq_iff.mpr htrim) hblank
      | word htrim hsame =>
          rw [trim_eq_iff.mpr htrim]
          exact hsame
    · exact .word (trim_eq_iff.mp rfl)

theorem Verbosity.resolve_eq_ok_iff {setting : Option String} {verbosity : Verbosity} :
    Verbosity.resolve setting = .ok verbosity ↔ AsksFor setting verbosity := by
  cases setting with
  | none =>
      constructor
      · intro h
        cases h
        exact .absent
      · intro h
        cases h
        rfl
  | some text =>
      rw [asksFor_some_iff, Verbosity.resolve]
      by_cases hblank : trim text = ""
      · have hlower := lower_eq_empty_iff.mpr hblank
        rw [if_pos hlower, if_pos hblank, Except.ok.injEq, eq_comm]
      · have hlower := mt lower_eq_empty_iff.mp hblank
        rw [if_neg hlower, if_neg hblank, ← find?_verbosity_eq_some_iff]
        cases [Verbosity.quiet, .debug, .verbose].find?
          (fun known => known.word == lower (trim text)) <;> simp

/-- A setting that asks for none of them is refused, with the text as it was given. -/
theorem Verbosity.resolve_eq_error_iff {setting : Option String} {fault : Fault} :
    Verbosity.resolve setting = .error fault ↔
      (∀ verbosity, ¬ AsksFor setting verbosity) ∧
        ∃ text, setting = some text ∧ fault = .unknownVerbosity text := by
  simp only [← Verbosity.resolve_eq_ok_iff]
  cases setting with
  | none => simp [Verbosity.resolve]
  | some text =>
      rw [Verbosity.resolve]
      by_cases hblank : lower (trim text) = ""
      · simp [hblank]
      · rw [if_neg hblank]
        cases [Verbosity.quiet, .debug, .verbose].find?
          (fun known => known.word == lower (trim text)) <;> simp [eq_comm]

/-- A setting asks for one verbosity at most. -/
theorem AsksFor.unique {setting : Option String} {verbosity other : Verbosity}
    (h : AsksFor setting verbosity) (hother : AsksFor setting other) : verbosity = other := by
  rw [← Verbosity.resolve_eq_ok_iff] at h hother
  rw [h] at hother
  exact Except.ok.inj hother

end GrammarTable.Settings
