import GrammarTable.Proofs.Grammar.Collected
import GrammarTable.Proofs.Iso.Phrased

/-!
# Every table in normal form can be written

Rules in the normal form of the ISO style are what some text is read into, if their names and
literals can be written and they do not need too many brackets inside each other.
-/

namespace GrammarTable.Grammar

open Rule Settings Token

variable {roots : List Node}

theorem exists_declarations (h : ∀ root ∈ roots, root.Normal .iso) :
    ∃ declarations : List Iso.Declaration,
      Iso.yield declarations = (roots.flatMap Iso.words).map Word.lexeme ∧
      declarations.map (fun declaration => declaration.draft.node) = roots := by
  induction roots with
  | nil => exact ⟨[], rfl, rfl⟩
  | cons root rest ih =>
      obtain ⟨hroot, hrest⟩ := List.forall_mem_cons.mp h
      obtain ⟨declaration, hlexemes, hnode⟩ := Iso.exists_declaration hroot
      obtain ⟨declarations, hyield, hnodes⟩ := ih hrest
      refine ⟨declaration :: declarations, ?_, ?_⟩
      · rw [Iso.yield, List.flatMap_cons, ← Iso.yield, hyield, hlexemes, List.flatMap_cons,
          List.map_append]
      · rw [List.map_cons, hnode, hnodes]

/-- The words of the rules are read as these rules. -/
theorem exists_read_words (hnormal : ∀ root ∈ roots, root.Normal .iso)
    (hbrackets : ∀ root ∈ roots, root.pathCost Iso.bracketsOf ≤ nestingLimit) :
    ∃ declarations : List Iso.Declaration,
      (Iso.reader (some nestingLimit)).read ((roots.flatMap Iso.words).map Word.lexeme) =
        .ok declarations ∧
      declarations.map (fun declaration => declaration.draft.node) = roots := by
  obtain ⟨declarations, hyield, hnodes⟩ := exists_declarations hnormal
  have hbalanced : Iso.Balanced nestingLimit (roots.flatMap Iso.words) := by
    rw [List.flatMap_def]
    refine Iso.balanced_flatten (List.forall_mem_map.mpr fun root hroot => ?_)
    exact (Iso.balanced_words root).mono (hbrackets root hroot)
  have hwithin := hbalanced.nestsWithin nestingLimit 0 (by omega)
  exact ⟨declarations, (Iso.read_eq_ok_iff hwithin).mpr hyield, hnodes⟩

def writtenRules (roots : List Node) : List (Written Iso.Sign) :=
  (roots.flatMap Iso.words).map Plain.blanked

/-- Rules whose names differ are what a text is read into, if they are in normal form, can be
written, and on no way down need more brackets than may be open at once. -/
theorem exists_source_of_normal (hne : roots ≠ [])
    (hnames : (roots.map fun root => root.label.name).Nodup)
    (hnormal : ∀ root ∈ roots, root.Normal .iso)
    (hwritable : ∀ root ∈ roots, root.Throughout fun label _ => Iso.Writable label)
    (hbrackets : ∀ root ∈ roots, root.pathCost Iso.bracketsOf ≤ nestingLimit) :
    ∃ source set, read .iso source = .ok set ∧ set.nodes = roots := by
  obtain ⟨declarations, hread, hnodes⟩ := exists_read_words hnormal hbrackets
  have hwhole : ∀ one ∈ writtenRules roots, Iso.scheme.lexicon.Whole one.word := by
    refine List.forall_mem_map.mpr fun word hword => ?_
    obtain ⟨root, hroot, hmem⟩ := List.mem_flatMap.mp hword
    exact Iso.whole_words (hwritable root hroot) word hmem
  have hlexemes : (writtenRules roots).map (fun one => one.word.lexeme) =
      (roots.flatMap Iso.words).map Word.lexeme := List.map_map
  rw [← hlexemes] at hread
  obtain ⟨found, hfound, hmoved⟩ := Iso.script.exists_rulesOf_spaced
    (Plain.spaced_map_blanked (roots.flatMap Iso.words)) hwhole hread
  -- Where the rules stand in the text does not show in their nodes.
  have hroots : found.map Draft.node = roots :=
    calc
      found.map Draft.node = (found.map (Draft.moved fun _ => 0)).map Draft.node := by
        simp [Function.comp_def]
      _ = (declarations.map Iso.script.draft).map Draft.node := by rw [hmoved]
      _ = roots := by rwa [List.map_map]
  have hfoundNames : (found.map fun rule => rule.label.name).Nodup := by
    rw [← hroots, List.map_map] at hnames
    simpa [Function.comp_def] using hnames
  have hfoundNe : found ≠ [] := by
    rintro rfl
    exact hne hroots.symm
  let source := String.ofList (Written.textOf (writtenRules roots))
  have hsource : draftsOf .iso source.toList = .ok found := by
    rw [String.toList_ofList]
    exact hfound
  obtain ⟨set, hset, rfl⟩ := exists_read_of_draftsOf hsource hfoundNe hfoundNames
  exact ⟨source, set, hset, hroots⟩

/-- The rules of `a = { b "it's" } (a?)+;` and `b = '"' | [a | b] b;`. -/
def mixedRoots : List Node :=
  [⟨⟨.rule, "a"⟩,
      [⟨⟨.repetition, "a"⟩,
          [⟨⟨.sequence, "a"⟩, [⟨⟨.nonTerminal, "b"⟩, []⟩, ⟨⟨.terminal, "it's"⟩, []⟩]⟩]⟩,
        ⟨⟨.repetition1, "a"⟩,
          [⟨⟨.group, "a"⟩, [⟨⟨.optional, "a"⟩, [⟨⟨.nonTerminal, "a"⟩, []⟩]⟩]⟩]⟩]⟩,
    ⟨⟨.rule, "b"⟩,
      [⟨⟨.choice, "b"⟩,
          [⟨⟨.terminal, "\""⟩, []⟩,
            ⟨⟨.sequence, "b"⟩,
              [⟨⟨.optional, "b"⟩,
                  [⟨⟨.choice, "b"⟩, [⟨⟨.nonTerminal, "a"⟩, []⟩, ⟨⟨.nonTerminal, "b"⟩, []⟩]⟩]⟩,
                ⟨⟨.nonTerminal, "b"⟩, []⟩]⟩]⟩]⟩]

/-- Every kind of node that the ISO style has occurs, and so do both quotes. -/
theorem exists_source_mixed :
    (mixedRoots ≠ [] ∧ (mixedRoots.map fun root => root.label.name).Nodup ∧
      (∀ root ∈ mixedRoots, root.Normal .iso) ∧
      (∀ root ∈ mixedRoots, root.Throughout fun label _ => Iso.Writable label) ∧
      ∀ root ∈ mixedRoots, root.pathCost Iso.bracketsOf ≤ nestingLimit) ∧
    ∃ source set, read .iso source = .ok set ∧ set.nodes = mixedRoots := by
  have hne : mixedRoots ≠ [] := List.cons_ne_nil _ _
  have hnames : (mixedRoots.map fun root => root.label.name).Nodup := by decide
  have hnormal : ∀ root ∈ mixedRoots, root.Normal .iso := by decide
  have hwritable : ∀ root ∈ mixedRoots, root.Throughout fun label _ => Iso.Writable label := by
    decide
  have hbrackets : ∀ root ∈ mixedRoots, root.pathCost Iso.bracketsOf ≤ nestingLimit := by decide
  exact ⟨⟨hne, hnames, hnormal, hwritable, hbrackets⟩,
    exists_source_of_normal hne hnames hnormal hwritable hbrackets⟩

end GrammarTable.Grammar
