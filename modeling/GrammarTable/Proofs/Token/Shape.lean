import GrammarTable.Proofs.Text.Run
import GrammarTable.Token.Shape

/-!
# Pieces of a shape

What a shape cuts off is the piece of its form that the text behind does not go on with.
So a piece is cut off in front of any other text that does not go on with it either.
-/

namespace GrammarTable.Token

open Text

/-- What holds of each character of a text is decided along the text, without trying all
characters that there are. -/
instance (priority := high) decidableForallMem (p : Char → Prop) [DecidablePred p]
    (cs : List Char) : Decidable (∀ c ∈ cs, p c) :=
  List.decidableBAll p cs

namespace Shape

variable {shape : Shape} {c : Char} {cs piece rest : List Char} {n : Nat}

/-! ## What is cut off -/

def Piece : Shape → List Char → Prop
  | led lead more least, piece =>
      ∃ body, piece = lead ++ body ∧ (∀ c ∈ body, more c = true) ∧ least ≤ body.length
  | word first more, piece =>
      ∃ c body, piece = c :: body ∧ first c = true ∧ ∀ d ∈ body, more d = true
  | enclosed opening inside closing least, piece =>
      ∃ body, piece = opening :: (body ++ [closing]) ∧ (∀ c ∈ body, inside c = true) ∧
        least ≤ body.length ∧ inside closing = false

/-- Whether a piece that ends in front of a character would go on with it. -/
def continues : Shape → Char → Bool
  | led _ more _, c => more c
  | word _ more, c => more c
  | enclosed _ _ _ _, _ => false

theorem exists_of_cut? (h : shape.cut? cs = some n) :
    ∃ piece rest, cs = piece ++ rest ∧ piece.length = n ∧ shape.Piece piece ∧
      ∀ c ∈ rest.head?, shape.continues c = false := by
  cases shape with
  | led lead more least =>
      simp only [cut?, Option.ite_none_right_eq_some, Option.some.injEq] at h
      obtain ⟨hlead, hleast, rfl⟩ := h
      obtain ⟨tail, rfl⟩ := List.isPrefixOf_iff_prefix.mp hlead
      rw [List.drop_left] at hleast ⊢
      refine ⟨lead ++ tail.takeWhile more, tail.dropWhile more, ?_, ?_, ?_, ?_⟩
      · rw [List.append_assoc, List.takeWhile_append_dropWhile]
      · exact List.length_append
      · exact ⟨_, rfl, fun _ => List.mem_takeWhile_imp, hleast⟩
      · exact fun _ => of_mem_head?_dropWhile
  | word first more =>
      cases cs with
      | nil => exact nomatch h
      | cons c cs =>
          simp only [cut?, Option.ite_none_right_eq_some, Option.some.injEq] at h
          obtain ⟨hfirst, rfl⟩ := h
          refine ⟨c :: cs.takeWhile more, cs.dropWhile more, ?_, ?_, ?_, ?_⟩
          · rw [List.cons_append, List.takeWhile_append_dropWhile]
          · exact Nat.add_comm _ _
          · exact ⟨c, _, rfl, hfirst, fun _ => List.mem_takeWhile_imp⟩
          · exact fun _ => of_mem_head?_dropWhile
  | enclosed opening inside closing least =>
      cases cs with
      | nil => exact nomatch h
      | cons c cs =>
          simp only [cut?, drop_length_takeWhile, Option.ite_none_right_eq_some,
            Option.some.injEq] at h
          obtain ⟨rfl, ⟨hleast, hclosing⟩, rfl⟩ := h
          obtain ⟨rest, hrest⟩ := List.head?_eq_some_iff.mp hclosing
          refine ⟨c :: (cs.takeWhile inside ++ [closing]), rest, ?_, ?_, ?_, ?_⟩
          · rw [List.cons_append, List.append_assoc, List.singleton_append, ← hrest,
              List.takeWhile_append_dropWhile]
          · simp
          · exact ⟨_, rfl, fun _ => List.mem_takeWhile_imp, hleast, of_mem_head?_dropWhile hclosing⟩
          · exact fun _ _ => rfl

theorem cut?_append (hpiece : shape.Piece piece)
    (hrest : ∀ c ∈ rest.head?, shape.continues c = false) :
    shape.cut? (piece ++ rest) = some piece.length := by
  cases shape with
  | led lead more least =>
      obtain ⟨body, rfl, hbody, hleast⟩ := hpiece
      have hlead : lead.isPrefixOf (lead ++ body ++ rest) :=
        List.isPrefixOf_iff_prefix.mpr ⟨body ++ rest, (List.append_assoc _ _ _).symm⟩
      rw [cut?, if_pos hlead, List.append_assoc, List.drop_left,
        takeWhile_append_of_head hbody hrest, List.length_append]
      exact if_pos hleast
  | word first more =>
      obtain ⟨c, body, rfl, hfirst, hbody⟩ := hpiece
      rw [List.cons_append, cut?, if_pos hfirst, takeWhile_append_of_head hbody hrest,
        List.length_cons, Nat.add_comm]
  | enclosed opening inside closing least =>
      obtain ⟨body, rfl, hbody, hleast, hclosing⟩ := hpiece
      have hstops : ∀ c ∈ (closing :: rest).head?, inside c = false := by
        intro c hc
        obtain rfl : closing = c := Option.some.inj hc
        exact hclosing
      rw [List.cons_append, List.append_assoc, List.singleton_append, cut?, if_pos rfl]
      simp only [takeWhile_append_of_head hbody hstops, List.drop_left]
      rw [if_pos ⟨hleast, rfl⟩, List.length_cons, List.length_append, List.length_singleton]

theorem cut?_eq_some_iff :
    shape.cut? cs = some n ↔
      ∃ piece rest, cs = piece ++ rest ∧ piece.length = n ∧ shape.Piece piece ∧
        ∀ c ∈ rest.head?, shape.continues c = false := by
  constructor
  · exact exists_of_cut?
  · rintro ⟨piece, rest, rfl, rfl, hpiece, hrest⟩
    exact cut?_append hpiece hrest

/-- What is cut off as a whole is a piece. -/
theorem piece_of_cut?_append (h : shape.cut? (piece ++ rest) = some piece.length) :
    shape.Piece piece ∧ ∀ c ∈ rest.head?, shape.continues c = false := by
  obtain ⟨front, back, hsplit, hlength, hpiece, hback⟩ := cut?_eq_some_iff.mp h
  obtain ⟨rfl, rfl⟩ := List.append_inj hsplit hlength.symm
  exact ⟨hpiece, hback⟩

/-- A piece may go on with what it runs into. -/
theorem piece_append_run (hpiece : shape.Piece piece) (rest : List Char) :
    shape.Piece (piece ++ rest.takeWhile shape.continues) := by
  cases shape with
  | led lead more least =>
      obtain ⟨body, rfl, hbody, hleast⟩ := hpiece
      refine ⟨body ++ rest.takeWhile more, List.append_assoc _ _ _, ?_, ?_⟩
      · exact List.forall_mem_append.mpr ⟨hbody, fun _ => List.mem_takeWhile_imp⟩
      · rw [List.length_append]
        omega
  | word first more =>
      obtain ⟨c, body, rfl, hfirst, hbody⟩ := hpiece
      refine ⟨c, body ++ rest.takeWhile more, rfl, hfirst, ?_⟩
      exact List.forall_mem_append.mpr ⟨hbody, fun _ => List.mem_takeWhile_imp⟩
  | enclosed opening inside closing least =>
      have hnone : rest.takeWhile (enclosed opening inside closing least).continues = [] := by
        cases rest <;> rfl
      rwa [hnone, List.append_nil]

/-- In front of a piece at least the piece is cut off. -/
theorem cut?_append_run (hpiece : shape.Piece piece) (rest : List Char) :
    shape.cut? (piece ++ rest) = some (piece ++ rest.takeWhile shape.continues).length := by
  have hstops : ∀ c ∈ (rest.dropWhile shape.continues).head?, shape.continues c = false :=
    fun _ => of_mem_head?_dropWhile
  have hcut := cut?_append (piece_append_run hpiece rest) hstops
  rwa [List.append_assoc, List.takeWhile_append_dropWhile] at hcut

/-! ## Characters of a piece -/

def starts : Shape → Char → Bool
  | led [] more least, c => least == 0 || more c
  | led (first :: _) _ _, c => c == first
  | word first _, c => first c
  | enclosed opening _ _ _, c => c == opening

def first? : Shape → Option Char
  | led lead _ _ => lead.head?
  | word _ _ => none
  | enclosed opening _ _ _ => some opening

def admits : Shape → Char → Bool
  | led lead more _, c => lead.contains c || more c
  | word first more, c => first c || more c
  | enclosed opening inside closing _, c => c == opening || inside c || c == closing

def mayEnd : Shape → Char → Bool
  | enclosed _ _ closing _, c => c == closing
  | shape, c => shape.admits c

/-- The character that ends every piece and stands nowhere inside. -/
def closing? : Shape → Option Char
  | led _ _ _ => none
  | word _ _ => none
  | enclosed _ inside closing _ => if inside closing then none else some closing

theorem starts_of_cut? (h : shape.cut? (c :: cs) = some n) : shape.starts c = true := by
  obtain ⟨piece, rest, hsplit, -, hpiece, -⟩ := exists_of_cut? h
  cases shape with
  | led lead more least =>
      obtain ⟨body, rfl, hbody, hleast⟩ := hpiece
      cases lead with
      | cons first lead => simp [starts, (List.cons.inj hsplit).1]
      | nil =>
          cases body with
          | nil => simp [starts, Nat.le_zero.mp hleast]
          | cons d body =>
              obtain rfl : c = d := (List.cons.inj hsplit).1
              simp [starts, hbody c List.mem_cons_self]
  | word first more =>
      obtain ⟨d, body, rfl, hfirst, -⟩ := hpiece
      obtain rfl : c = d := (List.cons.inj hsplit).1
      exact hfirst
  | enclosed opening inside closing least =>
      obtain ⟨body, rfl, -⟩ := hpiece
      simp [starts, (List.cons.inj hsplit).1]

theorem starts_of_piece (h : shape.Piece (c :: piece)) : shape.starts c = true := by
  have hcut := cut?_append_run h []
  rw [List.append_nil] at hcut
  exact starts_of_cut? hcut

theorem cut?_eq_none (h : ¬ shape.starts c = true) : shape.cut? (c :: cs) = none := by
  cases hcut : shape.cut? (c :: cs) with
  | none => rfl
  | some n => exact absurd (starts_of_cut? hcut) h

theorem eq_of_first? {first : Char} (hfirst : shape.first? = some first)
    (h : shape.starts c = true) : c = first := by
  cases shape with
  | led lead more least =>
      cases lead with
      | nil => exact nomatch hfirst
      | cons d lead => exact (beq_iff_eq.mp h).trans (Option.some.inj hfirst)
  | word first more => exact nomatch hfirst
  | enclosed opening inside closing least =>
      exact (beq_iff_eq.mp h).trans (Option.some.inj hfirst)

theorem admits_of_mem_piece (hpiece : shape.Piece piece) (hc : c ∈ piece) :
    shape.admits c = true := by
  cases shape with
  | led lead more least =>
      obtain ⟨body, rfl, hbody, -⟩ := hpiece
      rcases List.mem_append.mp hc with hlead | hmore
      · simp [admits, hlead]
      · simp [admits, hbody c hmore]
  | word first more =>
      obtain ⟨d, body, rfl, hfirst, hbody⟩ := hpiece
      rcases List.mem_cons.mp hc with rfl | hmore
      · simp [admits, hfirst]
      · simp [admits, hbody c hmore]
  | enclosed opening inside closing least =>
      obtain ⟨body, rfl, hbody, -⟩ := hpiece
      simp only [List.mem_cons, List.mem_append, List.not_mem_nil, or_false] at hc
      rcases hc with rfl | hinside | rfl
      · simp [admits]
      · simp [admits, hbody c hinside]
      · simp [admits]

theorem mayEnd_of_getLast? (hpiece : shape.Piece piece) (hc : piece.getLast? = some c) :
    shape.mayEnd c = true := by
  have hmem : c ∈ piece := List.mem_of_getLast? hc
  cases shape with
  | led lead more least => exact admits_of_mem_piece hpiece hmem
  | word first more => exact admits_of_mem_piece hpiece hmem
  | enclosed opening inside closing least =>
      obtain ⟨body, rfl, -⟩ := hpiece
      rw [← List.cons_append, List.getLast?_concat] at hc
      exact beq_iff_eq.mpr (Option.some.inj hc).symm

/-- A piece that is closed ends at the first closing character behind its start. -/
theorem exists_of_closing? {closing : Char} (h : shape.closing? = some closing)
    (hpiece : shape.Piece piece) :
    ∃ opening body, piece = opening :: (body ++ [closing]) ∧ closing ∉ body := by
  cases shape with
  | led lead more least => exact nomatch h
  | word first more => exact nomatch h
  | enclosed opening inside last least =>
      obtain ⟨body, rfl, hbody, -, hlast⟩ := hpiece
      simp only [closing?, hlast, Bool.false_eq_true, if_false, Option.some.injEq] at h
      subst h
      refine ⟨opening, body, rfl, ?_⟩
      intro hmem
      rw [hbody last hmem] at hlast
      exact nomatch hlast

theorem continues_of_closing? {closing : Char} (h : shape.closing? = some closing) :
    shape.continues c = false := by
  cases shape with
  | led lead more least => exact nomatch h
  | word first more => exact nomatch h
  | enclosed opening inside last least => rfl

/-- Shapes with one closing character cut the same piece off a text, if they do. -/
theorem eq_of_closing? {other : Shape} {closing : Char} {front back : List Char}
    (hshape : shape.closing? = some closing) (hother : other.closing? = some closing)
    (hpiece : shape.Piece piece) (hfront : other.Piece front)
    (h : piece ++ rest = front ++ back) : piece = front ∧ rest = back := by
  obtain ⟨opening, body, rfl, hbody⟩ := exists_of_closing? hshape hpiece
  obtain ⟨first, inner, rfl, hinner⟩ := exists_of_closing? hother hfront
  simp only [List.cons_append, List.append_assoc, List.nil_append, List.cons.injEq] at h
  obtain ⟨rfl, hrest⟩ := h
  obtain ⟨rfl, hback⟩ := append_cons_inj hbody hinner hrest
  exact ⟨rfl, hback⟩

/-- Beside a piece that is closed by the same character, a shape does not see what stands
behind. -/
theorem cut?_append_eq {other : Shape} {closing : Char} {back : List Char}
    (hshape : shape.closing? = some closing) (hother : other.closing? = some closing)
    (hpiece : shape.Piece piece) :
    other.cut? (piece ++ rest) = other.cut? (piece ++ back) := by
  have hforward : ∀ {rest back : List Char} {n : Nat},
      other.cut? (piece ++ rest) = some n → other.cut? (piece ++ back) = some n := by
    intro rest back n h
    obtain ⟨front, later, hsplit, rfl, hfront, -⟩ := exists_of_cut? h
    obtain ⟨rfl, -⟩ := eq_of_closing? hshape hother hpiece hfront hsplit
    exact cut?_append hfront fun _ _ => continues_of_closing? hother
  exact Option.ext fun n => ⟨hforward, hforward⟩

end Shape

end GrammarTable.Token
