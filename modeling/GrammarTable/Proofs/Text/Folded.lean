import GrammarTable.Proofs.Text.Trimmed
import GrammarTable.Text.Word
import Mathlib.Data.List.Forall2

/-!
# ASCII classes, the case of letters, and blanks at the ends

What letters, digits and texts that differ only in the case of ASCII letters are, said by the
numbers of the characters, and what trimming leaves, said by what stands around it.
-/

namespace GrammarTable.Text

variable {c d : Char} {text word core : String}

/-! ## Classes -/

def IsCapital (c : Char) : Prop :=
  65 ≤ c.toNat ∧ c.toNat ≤ 90

def IsLetter (c : Char) : Prop :=
  IsCapital c ∨ 97 ≤ c.toNat ∧ c.toNat ≤ 122

def IsDigit (c : Char) : Prop :=
  48 ≤ c.toNat ∧ c.toNat ≤ 57

theorem isDigit_iff : c.isDigit = true ↔ IsDigit c := by
  simp [Char.isDigit, IsDigit, UInt32.le_iff_toNat_le]

theorem isAlpha_iff : c.isAlpha = true ↔ IsLetter c := by
  have hcapital : c.isUpper = true ↔ IsCapital c := by
    show decide (c.val ≥ 'A'.val ∧ c.val ≤ 'Z'.val) = true ↔ IsCapital c
    simp [IsCapital, UInt32.le_iff_toNat_le]
  have hsmall : c.isLower = true ↔ 97 ≤ c.toNat ∧ c.toNat ≤ 122 := by
    show (decide (c.val ≥ 'a'.val) && decide (c.val ≤ 'z'.val)) = true ↔ _
    simp [UInt32.le_iff_toNat_le]
  rw [IsLetter, ← hcapital, ← hsmall, ← Bool.or_eq_true]
  rfl

theorem isWordStart_iff : isWordStart c = true ↔ IsLetter c ∨ c = '_' := by
  rw [isWordStart, Bool.or_eq_true, isAlpha_iff, beq_iff_eq]

theorem isWordPart_iff : isWordPart c = true ↔ IsLetter c ∨ IsDigit c ∨ c = '_' := by
  rw [isWordPart, Bool.or_eq_true, Char.isAlphanum, Bool.or_eq_true, isAlpha_iff, isDigit_iff,
    beq_iff_eq, or_assoc]

/-! ## The case of letters -/

/-- One character, or a capital and its small letter. -/
def SameLetter (c d : Char) : Prop :=
  c = d ∨ IsCapital c ∧ d.toNat = c.toNat + 32 ∨ IsCapital d ∧ c.toNat = d.toNat + 32

def SameLetters (text word : String) : Prop :=
  List.Forall₂ SameLetter text.toList word.toList

theorem toNat_toLower (c : Char) :
    c.toLower.toNat = if 65 ≤ c.toNat ∧ c.toNat ≤ 90 then c.toNat + 32 else c.toNat := by
  have hrange : c.val ≥ 'A'.val ∧ c.val ≤ 'Z'.val ↔ 65 ≤ c.toNat ∧ c.toNat ≤ 90 := by
    simp [UInt32.le_iff_toNat_le]
  unfold Char.toLower
  by_cases hcapital : c.val ≥ 'A'.val ∧ c.val ≤ 'Z'.val
  · have hsmall := hrange.mp hcapital
    rw [dif_pos hcapital, if_pos hsmall]
    show (c.val + ('a'.val - 'A'.val)).toNat = c.val.toNat + 32
    have hle : c.val.toNat ≤ 90 := hsmall.2
    have hlt : c.val.toNat + 32 < 2 ^ 32 := by omega
    rw [UInt32.toNat_add]
    exact Nat.mod_eq_of_lt hlt
  · rw [dif_neg hcapital, if_neg (mt hrange.mpr hcapital)]

theorem toLower_eq_toLower_iff : c.toLower = d.toLower ↔ SameLetter c d := by
  have hnumbers : ∀ c d : Char, c = d ↔ c.toNat = d.toNat :=
    fun _ _ => ⟨congrArg Char.toNat, Char.toNat_inj.mp⟩
  rw [hnumbers, toNat_toLower, toNat_toLower, SameLetter, hnumbers]
  unfold IsCapital
  split <;> split <;> omega

/-- A word without capitals is what making letters small leaves of the texts with its letters. -/
theorem lower_eq_iff (hword : lower word = word) : lower text = word ↔ SameLetters text word := by
  have hchars : text.toList.map Char.toLower = word.toList.map Char.toLower ↔
      SameLetters text word := by
    rw [← List.forall₂_eq_eq_eq, List.forall₂_map_left_iff, List.forall₂_map_right_iff]
    simp only [toLower_eq_toLower_iff]
    rfl
  rw [← hchars]
  conv_lhs => rw [← hword]
  exact String.ofList_inj

/-- A choice is found by any text with the letters of its word, when no other has that word. -/
theorem find?_word_eq_some_iff {α : Type} {wordOf : α → String} {choices : List α} {choice : α}
    (hknown : choice ∈ choices) (hsmall : lower (wordOf choice) = wordOf choice)
    (hwords : ∀ other, wordOf other = wordOf choice → other = choice) :
    choices.find? (fun known => wordOf known == lower text) = some choice ↔
      SameLetters text (wordOf choice) := by
  rw [← lower_eq_iff hsmall]
  constructor
  · intro h
    have hfound := List.find?_some h
    exact (eq_of_beq hfound).symm
  · intro h
    rw [h]
    cases hfind : choices.find? fun known => wordOf known == wordOf choice with
    | none => exact absurd (List.find?_eq_none.mp hfind choice hknown) (by simp)
    | some found =>
        have hword := List.find?_some hfind
        rw [hwords found (eq_of_beq hword)]

/-! ## Blanks at the ends -/

/-- What is left of a text without the blanks at its ends. -/
structure Trimmed (text core : String) : Prop where
  around : ∃ lead trail, (∀ c ∈ lead, isBlank c = true) ∧ (∀ c ∈ trail, isBlank c = true) ∧
    text.toList = lead ++ (core.toList ++ trail)
  first : ∀ c ∈ core.toList.head?, isBlank c = false
  last : ∀ c ∈ core.toList.getLast?, isBlank c = false

theorem trim_eq_iff : trim text = core ↔ Trimmed text core := by
  constructor
  · intro h
    have hchars : core.toList = trimChars text.toList := by
      rw [← h, trim, String.toList_ofList]
    constructor
    · rw [hchars]
      exact exists_padding text.toList
    · rw [hchars]
      exact fun c hc => isBlank_of_mem_head?_trimChars hc
    · rw [hchars]
      exact fun c hc => isBlank_of_mem_getLast?_trimChars hc
  · intro h
    have ⟨lead, trail, hlead, htrail, hsplit⟩ := h.around
    rw [trim, hsplit, trimChars_padded hlead htrail, trimChars_of_ends h.first h.last,
      String.ofList_toList]

end GrammarTable.Text
