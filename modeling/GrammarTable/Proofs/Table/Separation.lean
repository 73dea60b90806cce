import GrammarTable.Proofs.Table.Parts

/-!
# Comments apart from code

A script ends a comment at any of four characters. The path and the text of the grammar and
the moment of generation show in lines of comment only, so that the code of a module hangs
on neither.
-/

namespace GrammarTable.Table

open Calendar Rule Settings

/-- The characters at which a script ends a line. -/
def endsScriptLine (c : Char) : Bool :=
  c == '\n' || c == '\r' || c == '\u2028' || c == '\u2029'

def scriptLines (script : String) : List (List Char) :=
  script.toList.splitOnP endsScriptLine

/-! ## Texts on one line -/

def OneLine (cs : List Char) : Prop :=
  ∀ c ∈ cs, endsScriptLine c = false

@[simp] theorem oneLine_append (front back : List Char) :
    OneLine (front ++ back) ↔ OneLine front ∧ OneLine back :=
  List.forall_mem_append

instance (cs : List Char) : Decidable (OneLine cs) :=
  List.decidableBAll (fun c => endsScriptLine c = false) cs

theorem isLineBreak_eq : Text.isLineBreak = endsScriptLine := rfl

theorem oneLine_oneLine (text : String) : OneLine (Text.oneLine text).toList := by
  intro c hc
  rw [Text.oneLine, String.toList_ofList, List.mem_map] at hc
  obtain ⟨d, -, rfl⟩ := hc
  split
  · decide
  · rename_i hbreak
    simpa [isLineBreak_eq] using hbreak

theorem oneLine_of_mem_linesOnto {found : List (List Char)} {line : List Char}
    {cs : List Char} (hfound : ∀ l ∈ found, OneLine l) (hline : OneLine line) :
    ∀ l ∈ Text.linesOnto found line cs, OneLine l := by
  have hpush : ∀ {found : List (List Char)} {line : List Char}, (∀ l ∈ found, OneLine l) →
      OneLine line → ∀ l ∈ line.reverse :: found, OneLine l := by
    intro found line hfound hline l hl
    rcases List.mem_cons.mp hl with rfl | hl
    · exact fun c hc => hline c (List.mem_reverse.mp hc)
    · exact hfound l hl
  fun_induction Text.linesOnto found line cs with
  | case1 found line =>
      intro l hl
      rw [List.mem_reverse] at hl
      split at hl
      · exact hfound l hl
      · exact hpush hfound hline l hl
  | case2 found line rest ih => exact ih (hpush hfound hline) (by decide)
  | case3 found line c rest _ _ ih => exact ih (hpush hfound hline) (by decide)
  | case4 found line c rest _ hbreak ih =>
      refine ih hfound ?_
      intro d hd
      rcases List.mem_cons.mp hd with rfl | hd
      · simpa [isLineBreak_eq] using hbreak
      · exact hline d hd

theorem oneLine_of_mem_lines {text line : String} (h : line ∈ Text.lines text) :
    OneLine line.toList := by
  obtain ⟨l, hl, rfl⟩ := List.mem_map.mp h
  rw [String.toList_ofList]
  exact oneLine_of_mem_linesOnto (by simp) (by decide) l hl

/-! ## The moment -/

theorem oneLine_toString (n : Nat) : OneLine (toString n).toList := by
  intro c hc
  have hdigit : c.isDigit = true := by
    rw [Nat.toString_eq_repr, Nat.toList_repr] at hc
    exact Nat.isDigit_of_mem_toDigits (by decide) (by decide) hc
  cases hend : endsScriptLine c with
  | false => rfl
  | true =>
      simp only [endsScriptLine, Bool.or_eq_true, beq_iff_eq] at hend
      rcases hend with ((rfl | rfl) | rfl) | rfl <;> exact absurd hdigit (by decide)

theorem oneLine_padded (width n : Nat) : OneLine (padded width n).toList := by
  rw [padded, String.toList_append, String.toList_ofList, oneLine_append]
  refine ⟨?_, oneLine_toString n⟩
  intro c hc
  obtain rfl := List.eq_of_mem_replicate hc
  decide

theorem oneLine_yearText (year : Int) : OneLine (yearText year).toList := by
  unfold yearText
  split
  · exact oneLine_padded 4 year.toNat
  · rw [String.toList_append, oneLine_append]
    refine ⟨?_, oneLine_padded 4 year.natAbs⟩
    split <;> decide

theorem oneLine_moment (moment : Moment) : OneLine moment.text.toList := by
  simp only [Moment.text, String.toList_append, oneLine_append, oneLine_yearText,
    oneLine_padded, true_and, and_true]
  decide

/-! ## Comments -/

theorem oneLine_commentLine {line : String} (h : OneLine line.toList) :
    OneLine (commentLine line).toList := by
  unfold commentLine
  split
  · decide
  · rw [String.toList_append, oneLine_append]
    exact ⟨by decide, h⟩

theorem oneLine_of_mem_provenance {snapshot : Option Snapshot} {line : String}
    (h : line ∈ provenance snapshot) : OneLine line.toList := by
  cases snapshot with
  | none =>
      obtain rfl := List.mem_singleton.mp h
      decide
  | some snapshot =>
      simp only [provenance, List.mem_cons, List.mem_append, List.mem_map, List.not_mem_nil,
        or_false] at h
      rcases h with rfl | ⟨source, hsource, rfl⟩ | rfl
      · rw [String.toList_append, oneLine_append]
        exact ⟨by decide, oneLine_oneLine snapshot.path⟩
      · exact oneLine_commentLine (oneLine_of_mem_lines hsource)
      · decide

theorem oneLine_of_mem_comments {snapshot : Option Snapshot} {moment : Moment} {line : String}
    (h : line ∈ comments snapshot moment) : OneLine line.toList := by
  rcases List.mem_cons.mp h with rfl | h
  · decide
  rcases List.mem_cons.mp h with rfl | h
  · rw [String.toList_append, oneLine_append]
    exact ⟨by decide, oneLine_moment moment⟩
  · exact oneLine_of_mem_provenance h

theorem comment_of_mem_provenance {snapshot : Option Snapshot} {line : String}
    (h : line ∈ provenance snapshot) : ['/', '/'] <+: line.toList := by
  cases snapshot with
  | none =>
      obtain rfl := List.mem_singleton.mp h
      decide
  | some snapshot =>
      simp only [provenance, List.mem_cons, List.mem_append, List.mem_map, List.not_mem_nil,
        or_false] at h
      rcases h with rfl | ⟨source, -, rfl⟩ | rfl
      · simp
      · unfold commentLine
        split <;> simp
      · decide

/-! ## Code -/

theorem quiet_of_isWordPart {c : Char} (h : Text.isWordPart c = true) : Quiet c := by
  have hbounds := Text.toNat_of_isWordPart h
  refine ⟨by omega, ?_, ?_, ?_⟩
  all_goals
    rintro rfl
    exact absurd hbounds.2 (by decide)

theorem quiet_symbol (symbol : Symbol) : QuietLines symbol.name.toList := by
  have hname := symbol.isIdentifier_name
  unfold isIdentifier at hname
  split at hname
  · contradiction
  · rename_i first rest heq
    rw [Bool.and_eq_true, List.all_eq_true] at hname
    intro c hc
    rw [heq] at hc
    rcases List.mem_cons.mp hc with rfl | hc
    · exact .inr (quiet_of_isWordPart (Text.isWordPart_of_isWordStart hname.1))
    · exact .inr (quiet_of_isWordPart (hname.2 c hc))

theorem quiet_codeText (nodes : List Node) (declaration : Export) :
    QuietLines (codeText nodes declaration) := by
  have hpreamble : QuietLines (preamble declaration.target).toList := by
    cases declaration.target <;> decide
  have hlead : QuietLines (declarationLead declaration).toList := by
    unfold declarationLead
    split
    · simp only [String.toList_append, quietLines_append]
      exact ⟨⟨by decide, quiet_symbol declaration.symbol⟩, by decide⟩
    · simp only [String.toList_append, quietLines_append]
      exact ⟨⟨by decide, quiet_symbol declaration.symbol⟩, by decide⟩
  simp only [codeText, quietLines_append]
  exact ⟨⟨⟨⟨⟨⟨hpreamble, by decide⟩, hlead⟩, quiet_arrayText 0 nodes⟩, by decide⟩, by decide⟩,
    by decide⟩

theorem eq_newline_of_quietLines {cs : List Char} (h : QuietLines cs) {c : Char} (hc : c ∈ cs)
    (hend : endsScriptLine c = true) : c = '\n' := by
  rcases h c hc with rfl | ⟨hlow, -, hseparator, hparagraph⟩
  · rfl
  · simp only [endsScriptLine, Bool.or_eq_true, beq_iff_eq] at hend
    rcases hend with ((rfl | rfl) | rfl) | rfl
    · rfl
    · exact absurd hlow (by decide)
    · exact absurd rfl hseparator
    · exact absurd rfl hparagraph

/-! ## Lines of a module -/

theorem splitOnP_linesText {texts : List String} (h : ∀ text ∈ texts, OneLine text.toList)
    (rest : List Char) :
    (linesText texts ++ rest).splitOnP endsScriptLine =
      texts.map String.toList ++ rest.splitOnP endsScriptLine := by
  induction texts with
  | nil => rfl
  | cons text texts ih =>
      have htext : OneLine text.toList := h text List.mem_cons_self
      have hrest := ih fun other hother => h other (List.mem_cons_of_mem text hother)
      simp only [linesText, List.flatMap_cons, List.append_assoc, List.cons_append,
        List.nil_append] at hrest ⊢
      rw [List.splitOnP_append_cons_of_forall_mem htext '\n' rfl, hrest]
      rfl

theorem scriptLines_moduleText (nodes : List Node) (declaration : Export)
    (snapshot : Option Snapshot) (moment : Moment) :
    scriptLines (moduleText nodes declaration snapshot moment) =
      (comments snapshot moment).map String.toList ++
        [] :: (codeText nodes declaration).splitOnP endsScriptLine := by
  rw [scriptLines, toList_moduleText,
    splitOnP_linesText fun _ hline => oneLine_of_mem_comments hline]
  rfl

theorem newline_of_mem_linesText {texts : List String}
    (h : ∀ text ∈ texts, OneLine text.toList) {c : Char} (hc : c ∈ linesText texts)
    (hend : endsScriptLine c = true) : c = '\n' := by
  obtain ⟨text, htext, hc⟩ := List.mem_flatMap.mp hc
  rcases List.mem_append.mp hc with hc | hc
  · have hline := h text htext c hc
    rw [hend] at hline
    contradiction
  · exact List.mem_singleton.mp hc

/-- Lines of a module: its banner, the moment, other lines of comment, a blank line, code.
The other comments hang on the snapshot alone, and the code on neither the snapshot nor the
moment. No character but the line feed ends a line. -/
theorem moduleText_separates_comments_from_code (nodes : List Node) (declaration : Export) :
    ∃ (remarks : Option Snapshot → List (List Char)) (code : List (List Char)),
      (∀ snapshot, remarks snapshot ≠ [] ∧
        ∀ line ∈ remarks snapshot, "//".toList <+: line) ∧
      ∀ snapshot moment,
        scriptLines (moduleText nodes declaration snapshot moment) =
          "// Generated by ruletable. Do not edit by hand.".toList ::
            ("// Generated at: " ++ moment.text).toList ::
              (remarks snapshot ++ [] :: code) ∧
        ∀ c ∈ (moduleText nodes declaration snapshot moment).toList,
          endsScriptLine c = true → c = '\n' := by
  refine ⟨fun snapshot => (provenance snapshot).map String.toList,
    (codeText nodes declaration).splitOnP endsScriptLine, ?_, ?_⟩
  · intro snapshot
    refine ⟨?_, ?_⟩
    · cases snapshot <;> simp [provenance]
    · intro line hline
      obtain ⟨text, htext, rfl⟩ := List.mem_map.mp hline
      exact comment_of_mem_provenance htext
  · intro snapshot moment
    refine ⟨scriptLines_moduleText nodes declaration snapshot moment, ?_⟩
    intro c hc hend
    rw [toList_moduleText] at hc
    rcases List.mem_append.mp hc with hc | hc
    · exact newline_of_mem_linesText (fun _ hline => oneLine_of_mem_comments hline) hc hend
    rcases List.mem_cons.mp hc with rfl | hc
    · rfl
    · exact eq_newline_of_quietLines (quiet_codeText nodes declaration) hc hend

end GrammarTable.Table
