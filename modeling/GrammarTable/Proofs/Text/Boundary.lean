import GrammarTable.Proofs.Text.Position
import Mathlib.Data.List.DropRight

/-!
# Boundaries

A character starts at a boundary, or the text ends there. From one boundary to the next the place
moves on, so no two of them share one. Any other offset stands for the end of the text.
-/

namespace GrammarTable.Text

/-- So many bytes are those of some characters at the front of the text. -/
def Boundary (text : List Char) (offset : Nat) : Prop :=
  ∃ front behind, text = front ++ behind ∧ byteLength front = offset

variable {text front behind : List Char} {offset low high : Nat}

theorem boundary_append (front behind : List Char) :
    Boundary (front ++ behind) (byteLength front) :=
  ⟨front, behind, rfl, rfl⟩

theorem boundary_zero (text : List Char) : Boundary text 0 :=
  boundary_append [] text

theorem boundary_byteLength (text : List Char) : Boundary text (byteLength text) :=
  ⟨text, [], (List.append_nil text).symm, rfl⟩

theorem Boundary.le_byteLength (h : Boundary text offset) : offset ≤ byteLength text := by
  obtain ⟨front, behind, rfl, rfl⟩ := h
  rw [byteLength_append]
  exact Nat.le_add_right _ _

/-- Of two boundaries the second has some more characters before it. -/
theorem exists_of_boundary_lt (hlow : Boundary text low) (hhigh : Boundary text high)
    (hlt : low < high) :
    ∃ front more behind, text = front ++ more ++ behind ∧ more ≠ [] ∧
      byteLength front = low ∧ byteLength (front ++ more) = high := by
  obtain ⟨front, behind, rfl, rfl⟩ := hlow
  obtain ⟨longer, rest, hsplit, rfl⟩ := hhigh
  rcases List.append_eq_append_iff.mp hsplit with ⟨more, rfl, hrest⟩ | ⟨more, rfl, hrest⟩
  · refine ⟨front, more, rest, hsplit, ?_, rfl, rfl⟩
    rintro rfl
    rw [List.append_nil] at hlt
    exact absurd hlt (Nat.lt_irrefl _)
  · -- The front of fewer bytes is not the longer one.
    rw [byteLength_append] at hlt
    omega

theorem boundary_of_charsBefore? {before chars : List Char}
    (h : charsBefore? before offset text = some chars) : Boundary text offset := by
  fun_induction charsBefore? before offset text with
  | case1 => exact boundary_zero _
  | case2 => exact nomatch h
  | case3 before offset c rest hfits ih =>
      obtain ⟨front, behind, rfl, hfront⟩ := ih h
      refine ⟨c :: front, behind, rfl, ?_⟩
      rw [byteLength_cons]
      omega
  | case4 => exact nomatch h

namespace Position

/-! ## Lines and columns -/

theorem after_append (front behind : List Char) :
    after (front ++ behind) = behind.foldl next (after front) :=
  List.foldl_append

/-- The line counts the line feeds, the column the characters since the last of them. -/
theorem after_eq (cs : List Char) :
    after cs = ⟨1 + cs.count '\n', 1 + (cs.rtakeWhile (· != '\n')).length⟩ := by
  induction cs using List.reverseRecOn with
  | nil => rfl
  | append_singleton cs c ih =>
      rw [after_append, ih, List.foldl_cons, List.foldl_nil, next]
      by_cases hfeed : c = '\n'
      · subst hfeed
        rw [if_pos rfl, List.count_append, List.rtakeWhile_concat_neg _ _ _ (by decide)]
        rfl
      · have hinline : (c != '\n') = true := bne_iff_ne.mpr hfeed
        rw [if_neg hfeed, List.count_append, List.rtakeWhile_concat_pos (· != '\n') cs c hinline]
        simp [hfeed, Nat.add_assoc]

/-! ## The order of places -/

/-- On an earlier line, or further to the front on the same line. -/
def Before (p q : Position) : Prop :=
  p.line < q.line ∨ p.line = q.line ∧ p.column < q.column

variable {p q r : Position}

theorem Before.ne (h : p.Before q) : p ≠ q := by
  rintro rfl
  rcases h with hline | ⟨-, hcolumn⟩
  · exact Nat.lt_irrefl _ hline
  · exact Nat.lt_irrefl _ hcolumn

theorem Before.trans (h : p.Before q) (hnext : q.Before r) : p.Before r := by
  unfold Before at h hnext ⊢
  omega

theorem Before.asymm (h : p.Before q) : ¬ q.Before p :=
  fun hback => (h.trans hback).ne rfl

theorem before_next (p : Position) (c : Char) : p.Before (p.next c) := by
  unfold next
  split
  · exact .inl (Nat.lt_succ_self p.line)
  · exact .inr ⟨rfl, Nat.lt_succ_self p.column⟩

theorem before_foldl {cs : List Char} (h : cs ≠ []) (p : Position) :
    p.Before (cs.foldl next p) := by
  induction cs generalizing p with
  | nil => exact absurd rfl h
  | cons c rest ih =>
      cases rest with
      | nil => exact before_next p c
      | cons d later => exact (before_next p c).trans (ih (List.cons_ne_nil d later) _)

/-! ## The places of offsets -/

theorem ofOffset_byteLength (text : List Char) : ofOffset text (byteLength text) = after text := by
  have h := ofOffset_append text []
  rwa [List.append_nil] at h

theorem before_of_lt (hlow : Boundary text low) (hhigh : Boundary text high) (hlt : low < high) :
    (ofOffset text low).Before (ofOffset text high) := by
  obtain ⟨front, more, behind, rfl, hmore, rfl, rfl⟩ := exists_of_boundary_lt hlow hhigh hlt
  rw [ofOffset_append, List.append_assoc, ofOffset_append, after_append]
  exact before_foldl hmore _

theorem before_iff_lt (hlow : Boundary text low) (hhigh : Boundary text high) :
    (ofOffset text low).Before (ofOffset text high) ↔ low < high := by
  refine ⟨fun h => ?_, before_of_lt hlow hhigh⟩
  rcases Nat.lt_trichotomy low high with hlt | rfl | hgt
  · exact hlt
  · exact absurd rfl h.ne
  · exact absurd (before_of_lt hhigh hlow hgt) h.asymm

theorem ofOffset_inj (hlow : Boundary text low) (hhigh : Boundary text high)
    (h : ofOffset text low = ofOffset text high) : low = high := by
  rcases Nat.lt_trichotomy low high with hlt | heq | hgt
  · exact absurd h (before_of_lt hlow hhigh hlt).ne
  · exact heq
  · exact absurd h.symm (before_of_lt hhigh hlow hgt).ne

theorem ofOffset_of_not_boundary (h : ¬ Boundary text offset) :
    ofOffset text offset = ofOffset text (byteLength text) := by
  rw [ofOffset_byteLength, ofOffset]
  cases hbefore : charsBefore? [] offset text with
  | none => rfl
  | some chars => exact absurd (boundary_of_charsBefore? hbefore) h

/-- How the offsets of a text and their places go together. -/
structure Chart (text : List Char) : Prop where
  place : ∀ front behind, text = front ++ behind →
    ofOffset text (byteLength front) =
      ⟨1 + front.count '\n', 1 + (front.rtakeWhile (· != '\n')).length⟩
  before_iff : ∀ low high, Boundary text low → Boundary text high →
    ((ofOffset text low).Before (ofOffset text high) ↔ low < high)
  injective : ∀ low high, Boundary text low → Boundary text high →
    ofOffset text low = ofOffset text high → low = high
  elsewhere : ∀ offset, ¬ Boundary text offset →
    ofOffset text offset = ofOffset text (byteLength text)

theorem chart (text : List Char) : Chart text where
  place front behind h := by rw [h, ofOffset_append, after_eq]
  before_iff _ _ := before_iff_lt
  injective _ _ := ofOffset_inj
  elsewhere _ := ofOffset_of_not_boundary

end Position

end GrammarTable.Text
