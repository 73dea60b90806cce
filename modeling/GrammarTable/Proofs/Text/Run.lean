import Mathlib.Data.List.TakeWhile

/-!
# Runs of a class of characters

The run at the start of a text and what stands behind it tell how the text is put together.
-/

namespace GrammarTable.Text

variable {p : Char → Bool} {front rest cs : List Char}

theorem takeWhile_append_of_head (hfront : ∀ c ∈ front, p c = true)
    (hrest : ∀ c ∈ rest.head?, p c = false) : (front ++ rest).takeWhile p = front := by
  rw [List.takeWhile_append_of_pos hfront]
  cases rest with
  | nil => simp
  | cons c rest => simp [hrest c rfl]

theorem dropWhile_append_of_head (hfront : ∀ c ∈ front, p c = true)
    (hrest : ∀ c ∈ rest.head?, p c = false) : (front ++ rest).dropWhile p = rest := by
  rw [List.dropWhile_append_of_pos hfront]
  cases rest with
  | nil => rfl
  | cons c rest => simp [hrest c rfl]

theorem of_mem_head?_dropWhile {c : Char} (h : c ∈ (cs.dropWhile p).head?) : p c = false := by
  have hhead := List.head?_dropWhile_not p cs
  rw [Option.mem_def.mp h] at hhead
  simpa using hhead

theorem drop_length_takeWhile : cs.drop (cs.takeWhile p).length = cs.dropWhile p := by
  have hdrop : (cs.takeWhile p ++ cs.dropWhile p).drop (cs.takeWhile p).length =
      cs.dropWhile p := List.drop_left
  rwa [List.takeWhile_append_dropWhile] at hdrop

/-- A text is the same up to the first occurrence of a character. -/
theorem append_cons_inj {c : Char} {back behind : List Char} (hfront : c ∉ front)
    (hrest : c ∉ rest) (h : front ++ c :: back = rest ++ c :: behind) :
    front = rest ∧ back = behind := by
  have hother : ∀ {cs : List Char}, c ∉ cs → ∀ d ∈ cs, (d != c) = true := by
    intro cs hcs d hd
    exact bne_iff_ne.mpr fun heq => hcs (heq ▸ hd)
  have hstop : ∀ {cs : List Char}, ∀ d ∈ (c :: cs).head?, (d != c) = false := by
    intro cs d hd
    simpa using (Option.some.inj hd).symm
  have hruns := congrArg (List.takeWhile (· != c)) h
  rw [takeWhile_append_of_head (hother hfront) hstop,
    takeWhile_append_of_head (hother hrest) hstop] at hruns
  subst hruns
  exact ⟨rfl, (List.cons.inj (List.append_cancel_left h)).2⟩

end GrammarTable.Text
