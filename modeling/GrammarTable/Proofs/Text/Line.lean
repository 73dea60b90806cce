import GrammarTable.Text.Line

/-!
# Lines as pieces between line feeds

With a line feed for each end of a line, the lines of a text are the pieces between the line
feeds. So two texts have the same lines when they are the same but for the kind of their line
ends and for one line feed at the very end.
-/

namespace GrammarTable.Text

/-- A line feed for each carriage return that has one behind it. -/
def mergeReturns : List Char → List Char
  | [] => []
  | '\r' :: '\n' :: rest => '\n' :: mergeReturns rest
  | c :: rest => c :: mergeReturns rest

def feeds (cs : List Char) : List Char :=
  (mergeReturns cs).map fun c => if c = '\r' ∨ c = '\u2028' ∨ c = '\u2029' then '\n' else c

/-- The pieces without the last one if that is empty. -/
def closed (pieces : List (List Char)) : List (List Char) :=
  if pieces.getLast? = some [] then pieces.dropLast else pieces

def unended (cs : List Char) : List Char :=
  if cs.getLast? = some '\n' then cs.dropLast else cs

variable {cs rest : List Char} {c : Char}

theorem closed_cons (piece : List Char) {pieces : List (List Char)} (h : pieces ≠ []) :
    closed (piece :: pieces) = piece :: closed pieces := by
  unfold closed
  rw [List.getLast?_cons_of_ne_nil h, List.dropLast_cons_of_ne_nil h]
  split <;> rfl

/-! ## The ends of lines -/

theorem mergeReturns_cons (h : ∀ later, c = '\r' → rest = '\n' :: later → False) :
    mergeReturns (c :: rest) = c :: mergeReturns rest := by
  rw [mergeReturns]
  exact h

theorem feeds_pair (rest : List Char) : feeds ('\r' :: '\n' :: rest) = '\n' :: feeds rest := rfl

theorem feeds_of_isLineBreak (h : ∀ later, c = '\r' → rest = '\n' :: later → False)
    (hbreak : isLineBreak c = true) : feeds (c :: rest) = '\n' :: feeds rest := by
  simp only [isLineBreak, Bool.or_eq_true, beq_iff_eq] at hbreak
  rw [feeds, mergeReturns_cons h, List.map_cons]
  congr 1
  rcases hbreak with ((rfl | rfl) | rfl) | rfl <;> rfl

theorem feeds_of_not_isLineBreak (hbreak : ¬ isLineBreak c = true) :
    feeds (c :: rest) = c :: feeds rest := by
  simp only [isLineBreak, Bool.or_eq_true, beq_iff_eq, not_or] at hbreak
  rw [feeds, mergeReturns_cons fun _ hreturn _ => hbreak.1.1.2 hreturn, List.map_cons]
  simp [hbreak, feeds]

theorem feeds_eq_nil_iff : feeds cs = [] ↔ cs = [] := by
  fun_cases mergeReturns cs <;> simp [feeds, mergeReturns, *]

/-! ## Lines -/

/-- The line at hand goes on up to the next line feed. -/
theorem linesOnto_eq (found : List (List Char)) {line : List Char} (hline : '\n' ∉ line)
    (cs : List Char) :
    linesOnto found line cs = found.reverse ++ closed ((line.reverse ++ feeds cs).splitOn '\n') := by
  -- At the end of a line the pieces behind it are those of the rest.
  have hend : ∀ {line : List Char}, '\n' ∉ line → ∀ found rest,
      (line.reverse :: found).reverse ++ closed (([].reverse ++ feeds rest).splitOn '\n') =
        found.reverse ++ closed ((line.reverse ++ '\n' :: feeds rest).splitOn '\n') := by
    intro line hline found rest
    rw [List.splitOn_append_cons_self_of_not_mem (by simpa using hline),
      closed_cons _ (List.splitOn_ne_nil _ _)]
    simp
  induction found, line, cs using linesOnto.induct with
  | case1 found line =>
      rw [linesOnto]
      have hpieces : (line.reverse ++ feeds []).splitOn '\n' = [line.reverse] := by
        rw [feeds_eq_nil_iff.mpr rfl, List.append_nil]
        exact List.splitOn_eq_singleton (by simpa using hline)
      rw [hpieces]
      cases line with
      | nil => simp [closed]
      | cons c line => simp [closed]
  | case2 found line rest ih =>
      rw [linesOnto, ih (by simp), feeds_pair, hend hline]
  | case3 found line c rest hpair hbreak ih =>
      rw [linesOnto, if_pos hbreak, ih (by simp), feeds_of_isLineBreak hpair hbreak, hend hline]
      exact hpair
  | case4 found line c rest hpair hbreak ih =>
      have hc : '\n' ∉ c :: line := by
        rw [List.mem_cons, not_or]
        refine ⟨?_, hline⟩
        rintro rfl
        exact hbreak rfl
      rw [linesOnto, if_neg hbreak, ih hc, feeds_of_not_isLineBreak hbreak, List.reverse_cons,
        List.append_assoc, List.singleton_append]
      exact hpair

/-- The lines of a text are the pieces between its line feeds. -/
theorem lines_eq (text : String) :
    (lines text).map String.toList = closed ((feeds text.toList).splitOn '\n') := by
  have hlines := linesOnto_eq [] List.not_mem_nil text.toList
  simpa [lines, Function.comp_def] using hlines

/-! ## The same lines -/

/-- The last piece is empty only behind a line feed. -/
theorem getLast?_splitOn (hne : cs ≠ []) (hlast : cs.getLast? ≠ some '\n') :
    (cs.splitOn '\n').getLast? ≠ some [] := by
  induction cs with
  | nil => exact absurd rfl hne
  | cons c rest ih =>
      rw [List.splitOn_cons_eq_if_modifyHead]
      cases rest with
      | nil =>
          have hc : (c == '\n') = false := by simpa using hlast
          simp [hc]
      | cons d later =>
          have hrest := ih (List.cons_ne_nil d later) hlast
          obtain ⟨piece, pieces, hpieces⟩ :=
            List.exists_cons_of_ne_nil (List.splitOn_ne_nil '\n' (d :: later))
          rw [hpieces] at hrest ⊢
          split
          · exact hrest
          · cases pieces with
            | nil => simp
            | cons => exact hrest

/-- Of a text that is not empty the pieces are those without a line feed at its end. -/
theorem closed_splitOn (hne : cs ≠ []) :
    closed (cs.splitOn '\n') = (unended cs).splitOn '\n' := by
  by_cases hlast : cs.getLast? = some '\n'
  · obtain ⟨front, rfl⟩ := List.getLast?_eq_some_iff.mp hlast
    rw [unended, if_pos hlast, List.dropLast_concat, List.splitOn_append_cons_self,
      List.splitOn_nil]
    simp [closed]
  · rw [unended, if_neg hlast, closed, if_neg (getLast?_splitOn hne hlast)]

theorem closed_splitOn_eq_nil_iff : closed (cs.splitOn '\n') = [] ↔ cs = [] := by
  by_cases hne : cs = []
  · rw [hne]
    exact iff_of_true rfl rfl
  · rw [closed_splitOn hne]
    exact iff_of_false (List.splitOn_ne_nil _ _) hne

/-- The pieces say what the text is, up to a line feed at its end. -/
theorem closed_splitOn_inj {others : List Char} :
    closed (cs.splitOn '\n') = closed (others.splitOn '\n') ↔
      (cs = [] ↔ others = []) ∧ unended cs = unended others := by
  constructor
  · intro h
    have hempty : cs = [] ↔ others = [] := by
      rw [← closed_splitOn_eq_nil_iff, h, closed_splitOn_eq_nil_iff]
    refine ⟨hempty, ?_⟩
    by_cases hne : cs = []
    · rw [hne, hempty.mp hne]
    · rw [closed_splitOn hne, closed_splitOn (mt hempty.mpr hne)] at h
      have hjoined := congrArg ['\n'].intercalate h
      rwa [List.intercalate_splitOn, List.intercalate_splitOn] at hjoined
  · rintro ⟨hempty, h⟩
    by_cases hne : cs = []
    · rw [hne, hempty.mp hne]
    · rw [closed_splitOn hne, closed_splitOn (mt hempty.mpr hne), h]

/-- Texts have the same lines when they differ in the kind of their line ends only, and in a
line feed at the very end. -/
theorem lines_eq_iff (text other : String) :
    lines text = lines other ↔ (text = "" ↔ other = "") ∧
      unended (feeds text.toList) = unended (feeds other.toList) := by
  have hempty : ∀ text : String, feeds text.toList = [] ↔ text = "" := by
    intro text
    rw [feeds_eq_nil_iff, String.toList_eq_nil_iff]
  rw [← List.map_inj_right fun _ _ => String.toList_injective, lines_eq, lines_eq,
    closed_splitOn_inj, hempty, hempty]

end GrammarTable.Text
