import GrammarTable.Proofs.Run.Recovery
import GrammarTable.Proofs.Text.Line

/-!
# Grammars in comments

The comments about a grammar are a line for its path, one for each of its lines, and a
separator. By their places alone the lines in between can be found again, whatever they hold,
and they say what the grammar is up to the kind of its line ends.
-/

namespace GrammarTable.Run

open Table Text

def block (path source : String) : String :=
  print (onLines (provenance (some ⟨path, source⟩)))

def remark (line : List Char) : List Char :=
  (if line = [] then "//".toList else "// ".toList ++ line) ++ ['\n']

/-- The lines of comments without the first and the last, each without its lead. -/
def embedded (text : String) : List (List Char) :=
  (((scriptLines text).dropLast.drop 1).dropLast).map uncommented

theorem print_onLines (texts : List String) :
    (print (onLines texts)).toList = linesText texts := by
  rw [print, prints_onLines texts ""]
  simp

theorem toList_commentLine (line : String) :
    (commentLine line).toList ++ ['\n'] = remark line.toList := by
  unfold commentLine remark
  by_cases hempty : line = ""
  · rw [if_pos hempty, hempty]
    rfl
  · rw [if_neg hempty, if_neg (by simpa using hempty), String.toList_append]

/-- The comments are a header, the lines of the grammar and a separator, in that order. -/
theorem toList_block (path source : String) :
    (block path source).toList =
      "// Grammar source: ".toList ++ (oneLine path).toList ++ '\n' ::
        (((lines source).map String.toList).flatMap remark ++ "// ----\n".toList) := by
  have hcomments : ((lines source).map commentLine).flatMap (fun text => text.toList ++ ['\n']) =
      ((lines source).map String.toList).flatMap remark := by
    rw [List.flatMap_map, List.flatMap_map]
    exact congrArg (List.flatMap · _) (funext toList_commentLine)
  rw [block, print_onLines, provenance, linesText, List.flatMap_cons, List.flatMap_append,
    hcomments]
  simp

/-- No line of the comments hangs on what the lines around it hold. -/
theorem scriptLines_block (path source : String) :
    scriptLines (block path source) =
      (provenance (some ⟨path, source⟩)).map String.toList ++ [[]] := by
  have hone : ∀ text ∈ provenance (some ⟨path, source⟩), OneLine text.toList :=
    fun _ hline => oneLine_of_mem_provenance hline
  have hsplit := splitOnP_linesText hone []
  rwa [List.append_nil, List.splitOnP_nil, ← print_onLines] at hsplit

theorem embedded_block (path source : String) :
    embedded (block path source) = (lines source).map String.toList := by
  have hline : (uncommented ∘ String.toList) ∘ commentLine = String.toList :=
    funext uncommented_commentLine
  rw [embedded, scriptLines_block, List.dropLast_concat, provenance, List.map_cons,
    List.drop_succ_cons, List.drop_zero, List.map_append, List.map_singleton,
    List.dropLast_concat, List.map_map, List.map_map, hline]

/-- The lines of a grammar are the pieces between its line ends, and its comments hold each of
them. They can be found again, and tell two grammars apart unless these differ in the kind of
their line ends only, and in one at the very end. -/
theorem block_embeds_lines :
    (∀ source : String, (lines source).map String.toList =
      closed ((feeds source.toList).splitOn '\n')) ∧
    (∀ path source : String, (block path source).toList =
      "// Grammar source: ".toList ++ (oneLine path).toList ++ '\n' ::
        (((lines source).map String.toList).flatMap remark ++ "// ----\n".toList)) ∧
    (∀ path source : String,
      embedded (block path source) = (lines source).map String.toList) ∧
    ∀ path source other : String, embedded (block path source) = embedded (block path other) ↔
      (source = "" ↔ other = "") ∧
        unended (feeds source.toList) = unended (feeds other.toList) := by
  refine ⟨lines_eq, toList_block, embedded_block, ?_⟩
  intro path source other
  rw [embedded_block, embedded_block, List.map_inj_right fun _ _ => String.toList_injective,
    lines_eq_iff]

/-- A line like the separator, one of blanks and one that is a comment itself. -/
example : embedded (block "g" "----\r\u2028 \n// a\r\r\n") =
    ["----".toList, [], " ".toList, "// a".toList, []] := by
  decide +kernel

end GrammarTable.Run
