import GrammarTable.Proofs.Text.Run
import GrammarTable.Text.Blank

/-!
# Trimming

A text is what trimming leaves of it, with blanks on both sides. Blanks at its ends do not
change what is left, and what is left has none.
-/

namespace GrammarTable.Text

variable {lead cs trail : List Char}

theorem dropWhile_of_first (h : ∀ c ∈ cs.head?, isBlank c = false) :
    cs.dropWhile isBlank = cs := by
  cases cs with
  | nil => rfl
  | cons c rest => simp [h c rfl]

/-- A text without blanks at its ends stays as it is. -/
theorem trimChars_of_ends (hfirst : ∀ c ∈ cs.head?, isBlank c = false)
    (hlast : ∀ c ∈ cs.getLast?, isBlank c = false) : trimChars cs = cs := by
  have hreverse : ∀ c ∈ cs.reverse.head?, isBlank c = false := by
    rw [List.head?_reverse]
    exact hlast
  rw [trimChars, dropWhile_of_first hfirst, dropWhile_of_first hreverse, List.reverse_reverse]

theorem trimChars_eq_self (h : ∀ c ∈ cs, isBlank c = false) : trimChars cs = cs :=
  trimChars_of_ends (fun c hc => h c (List.mem_of_head? hc))
    fun c hc => h c (List.mem_of_getLast? hc)

theorem trimChars_append_trail (h : ∀ c ∈ trail, isBlank c = true) :
    trimChars (cs ++ trail) = trimChars cs := by
  unfold trimChars
  rw [List.dropWhile_append]
  -- Where there are only blanks, nothing is left in front of those at the end.
  by_cases hblank : cs.dropWhile isBlank = []
  · have htrail : trail.dropWhile isBlank = [] := List.dropWhile_eq_nil_iff.mpr h
    simp [hblank, htrail]
  · have hreverse : ∀ c ∈ trail.reverse, isBlank c = true := by
      intro c hc
      exact h c (List.mem_reverse.mp hc)
    rw [if_neg (by simpa using hblank), List.reverse_append,
      List.dropWhile_append_of_pos hreverse]

theorem trimChars_padded (hlead : ∀ c ∈ lead, isBlank c = true)
    (htrail : ∀ c ∈ trail, isBlank c = true) :
    trimChars (lead ++ (cs ++ trail)) = trimChars cs := by
  have hfront : trimChars (lead ++ (cs ++ trail)) = trimChars (cs ++ trail) := by
    unfold trimChars
    rw [List.dropWhile_append_of_pos hlead]
  rw [hfront, trimChars_append_trail htrail]

/-- What the blanks at the end are dropped from has none at its start. -/
theorem trimChars_append_blanks (cs : List Char) :
    trimChars cs ++ ((cs.dropWhile isBlank).reverse.takeWhile isBlank).reverse =
      cs.dropWhile isBlank := by
  rw [trimChars, ← List.reverse_append, List.takeWhile_append_dropWhile, List.reverse_reverse]

/-- Only blanks are dropped. -/
theorem exists_padding (cs : List Char) :
    ∃ lead trail, (∀ c ∈ lead, isBlank c = true) ∧ (∀ c ∈ trail, isBlank c = true) ∧
      cs = lead ++ (trimChars cs ++ trail) := by
  refine ⟨cs.takeWhile isBlank, ((cs.dropWhile isBlank).reverse.takeWhile isBlank).reverse,
    ?_, ?_, ?_⟩
  · intro c hc
    exact List.mem_takeWhile_imp hc
  · intro c hc
    exact List.mem_takeWhile_imp (List.mem_reverse.mp hc)
  · rw [trimChars_append_blanks, List.takeWhile_append_dropWhile]

theorem isBlank_of_mem_head?_trimChars {c : Char} (h : c ∈ (trimChars cs).head?) :
    isBlank c = false := by
  have hdropped : c ∈ (cs.dropWhile isBlank).head? := by
    rw [← trimChars_append_blanks, List.head?_append, Option.mem_def.mp h]
    rfl
  exact of_mem_head?_dropWhile hdropped

theorem isBlank_of_mem_getLast?_trimChars {c : Char} (h : c ∈ (trimChars cs).getLast?) :
    isBlank c = false := by
  rw [trimChars, List.getLast?_reverse] at h
  exact of_mem_head?_dropWhile h

theorem trimChars_trimChars (cs : List Char) : trimChars (trimChars cs) = trimChars cs := by
  have ⟨lead, trail, hlead, htrail, hsplit⟩ := exists_padding cs
  have hsame : trimChars (lead ++ (trimChars cs ++ trail)) = trimChars (trimChars cs) :=
    trimChars_padded hlead htrail
  rw [← hsplit] at hsame
  exact hsame.symm

theorem trim_trim (text : String) : trim (trim text) = trim text := by
  unfold trim
  rw [String.toList_ofList, trimChars_trimChars]

theorem mem_of_mem_trimChars {c : Char} (h : c ∈ trimChars cs) : c ∈ cs := by
  have ⟨lead, trail, _, _, hsplit⟩ := exists_padding cs
  rw [hsplit]
  exact List.mem_append_right lead (List.mem_append_left trail h)

theorem trimChars_eq_nil_iff : trimChars cs = [] ↔ ∀ c ∈ cs, isBlank c = true := by
  constructor
  · intro h
    have ⟨lead, trail, hlead, htrail, hsplit⟩ := exists_padding cs
    rw [h, List.nil_append] at hsplit
    rw [hsplit]
    exact List.forall_mem_append.mpr ⟨hlead, htrail⟩
  · intro h
    have hnone : trimChars ([] ++ cs) = trimChars [] := trimChars_append_trail h
    exact hnone

end GrammarTable.Text
