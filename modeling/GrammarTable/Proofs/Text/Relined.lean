import Mathlib.Data.List.Infix

/-!
# Texts with other line ends

A text may be written with a single line feed for each carriage return with a line feed
behind it, and without the line feed at its end.
-/

namespace GrammarTable.Text

/-- The second text is the first with a line feed for each carriage return in front of one,
and perhaps without its last line feed. -/
inductive Relined : List Char → List Char → Prop where
  | nil : Relined [] []
  | last : Relined ['\n'] []
  | keep {c : Char} {cs ds : List Char} (hc : c ≠ '\r') (h : Relined cs ds) :
      Relined (c :: cs) (c :: ds)
  | drop {cs ds : List Char} (h : Relined ('\n' :: cs) ds) : Relined ('\r' :: '\n' :: cs) ds

namespace Relined

variable {cs ds front rest : List Char} {c : Char}

theorem eq_nil (h : Relined [] ds) : ds = [] := by
  cases h
  rfl

/-- The first character is the same, or it is a line feed. -/
theorem head (h : Relined cs ds) (hc : c ∈ ds.head?) : c = '\n' ∨ c ∈ cs.head? := by
  cases h with
  | nil => exact nomatch hc
  | last => exact nomatch hc
  | keep hkeep h => exact .inr hc
  | drop h =>
      cases h with
      | last => exact nomatch hc
      | keep hkeep h => exact .inl (Option.some.inj hc).symm

theorem dropWhile {p : Char → Bool} (hreturn : p '\r' = true) (hfeed : p '\n' = true)
    (h : Relined cs ds) : Relined (cs.dropWhile p) (ds.dropWhile p) := by
  induction h with
  | nil => exact .nil
  | last =>
      rw [List.dropWhile_cons_of_pos hfeed]
      exact .nil
  | @keep c cs ds hc h ih =>
      by_cases hp : p c = true
      · rw [List.dropWhile_cons_of_pos hp, List.dropWhile_cons_of_pos hp]
        exact ih
      · rw [List.dropWhile_cons_of_neg hp, List.dropWhile_cons_of_neg hp]
        exact .keep hc h
  | drop h ih =>
      rw [List.dropWhile_cons_of_pos hreturn]
      exact ih

/-- Behind the rest of a line. -/
theorem dropWhile_line (h : Relined cs ds) :
    Relined (cs.dropWhile (· != '\n')) (ds.dropWhile (· != '\n')) := by
  induction h with
  | nil => exact .nil
  | last => exact .last
  | @keep c cs ds hc h ih =>
      by_cases hfeed : c = '\n'
      · subst hfeed
        exact .keep hc h
      · have hline : (c != '\n') = true := bne_iff_ne.mpr hfeed
        simpa only [List.dropWhile_cons, hline, if_true] using ih
  | drop h ih =>
      rw [List.dropWhile_cons_of_pos (by decide)]
      exact ih

/-- A piece without carriage returns stands in both texts, if more follows or it does not end
with a line feed. -/
theorem split (h : Relined (front ++ rest) ds) (hreturn : '\r' ∉ front)
    (hlast : front.getLast? ≠ some '\n') : ∃ back, ds = front ++ back ∧ Relined rest back := by
  induction front generalizing ds with
  | nil => exact ⟨ds, rfl, h⟩
  | cons c front ih =>
      have hfront : '\r' ∉ front := fun hmem => hreturn (List.mem_cons_of_mem c hmem)
      rw [List.cons_append] at h
      generalize hcs : c :: (front ++ rest) = cs at h
      cases h with
      | nil => exact nomatch hcs
      | last =>
          obtain ⟨rfl, hnil⟩ := List.cons.inj hcs
          obtain ⟨rfl, -⟩ := List.append_eq_nil_iff.mp hnil
          exact absurd rfl hlast
      | keep hc h =>
          obtain ⟨rfl, rfl⟩ := List.cons.inj hcs
          have hend : front.getLast? ≠ some '\n' := by
            intro hfeed
            refine hlast ?_
            rw [List.getLast?_cons, hfeed]
            rfl
          obtain ⟨back, rfl, hback⟩ := ih h hfront hend
          exact ⟨back, rfl, hback⟩
      | drop h =>
          obtain ⟨rfl, -⟩ := List.cons.inj hcs
          exact absurd List.mem_cons_self hreturn

/-- The first occurrence of two characters, one behind the other, stays the first. -/
theorem split_pair {first second : Char} {body : List Char} (hne : first ≠ second)
    (hfirst : first ≠ '\r') (hreturn : second ≠ '\r') (hfeed : second ≠ '\n')
    (hbody : ¬ [first, second] <:+: body)
    (h : Relined (body ++ first :: second :: rest) ds) :
    ∃ inner back, ds = inner ++ first :: second :: back ∧ ¬ [first, second] <:+: inner ∧
      Relined rest back := by
  generalize hcs : body ++ first :: second :: rest = cs at h
  induction h generalizing body with
  | nil => simp at hcs
  | last =>
      have hlength := congrArg List.length hcs
      simp only [List.length_append, List.length_cons, List.length_nil] at hlength
      omega
  | @keep c cs ds hc h ih =>
      cases body with
      | nil =>
          obtain ⟨rfl, rfl⟩ := List.cons.inj hcs
          have hlast : [second].getLast? ≠ some '\n' := by simpa using hfeed
          have hnone : '\r' ∉ [second] := by simpa using hreturn.symm
          have hbehind : Relined ([second] ++ rest) ds := h
          obtain ⟨back, rfl, hback⟩ := hbehind.split hnone hlast
          exact ⟨[], back, rfl, by simp, hback⟩
      | cons b body =>
          obtain ⟨rfl, rfl⟩ := List.cons.inj hcs
          rw [List.infix_cons_iff, not_or] at hbody
          obtain ⟨inner, back, rfl, hinner, hback⟩ := ih hbody.2 rfl
          refine ⟨b :: inner, back, rfl, ?_, hback⟩
          rw [List.infix_cons_iff]
          rintro (⟨later, hlater⟩ | hinside)
          · -- The second character would follow the first in the other text as well.
            obtain ⟨rfl, rfl⟩ := List.cons.inj hlater
            rcases h.head (c := second) rfl with heq | hhead
            · exact hfeed heq
            · cases body with
              | nil => exact hne (Option.some.inj hhead)
              | cons e body =>
                  obtain rfl := Option.some.inj hhead
                  exact hbody.1 ⟨body, rfl⟩
          · exact hinner hinside
  | drop h ih =>
      cases body with
      | nil => exact absurd (List.cons.inj hcs).1 hfirst
      | cons b body =>
          refine ih ?_ (List.cons.inj hcs).2
          exact fun hinside => hbody (hinside.trans (List.suffix_cons b body).isInfix)

end Relined

end GrammarTable.Text
