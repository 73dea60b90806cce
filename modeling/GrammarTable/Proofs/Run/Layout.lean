import GrammarTable.Proofs.Grammar.Verdict
import GrammarTable.Proofs.Run.Compile
import GrammarTable.Proofs.Table.Separation

/-!
# Layout does not matter

Two grammar texts with the same lexemes, whatever stands between them, are compiled to
modules with the same code, or refused with the same complaint at another place.
-/

namespace GrammarTable.Run

open Calendar Grammar Rule Settings Table Text Token

/-! ## The code of a module -/

/-- The lines of a module from its first blank line on: the declaration and its table. -/
def codeLines (text : String) : List (List Char) :=
  (scriptLines text).dropWhile fun line => !line.isEmpty

theorem ne_nil_of_mem_comments {snapshot : Option Snapshot} {moment : Moment}
    {line : String} (h : line ∈ comments snapshot moment) : line.toList ≠ [] := by
  rcases List.mem_cons.mp h with rfl | h
  · decide
  rcases List.mem_cons.mp h with rfl | h
  · simp [momentLead]
  · obtain ⟨rest, hrest⟩ := comment_of_mem_provenance h
    rw [← hrest]
    exact List.cons_ne_nil _ _

theorem codeLines_moduleText (nodes : List Node) (declaration : Export)
    (snapshot : Option Snapshot) (moment : Moment) :
    codeLines (moduleText nodes declaration snapshot moment) =
      [] :: (codeText nodes declaration).splitOnP endsScriptLine := by
  have hcomments : ∀ line ∈ (comments snapshot moment).map String.toList,
      (!line.isEmpty) = true := by
    intro line hline
    obtain ⟨text, htext, rfl⟩ := List.mem_map.mp hline
    simpa using ne_nil_of_mem_comments htext
  rw [codeLines, scriptLines_moduleText, List.dropWhile_append_of_pos hcomments]
  rfl

/-! ## Outcomes -/

/-- Two modules with the same rules and the same code, or two rejections that differ in the
position only. -/
def SameBesidesPlaces (first second : Except Rejection Compiled) : Prop :=
  match first, second with
  | .ok first, .ok second =>
      first.rules.nodes = second.rules.nodes ∧ codeLines first.text = codeLines second.text
  | .error first, .error second => second = { first with position := second.position }
  | _, _ => False

theorem same_of_verdict_eq {dialect : Dialect} {source other : String}
    (h : verdict dialect source.toList = verdict dialect other.toList) (declaration : Export)
    (path? otherPath? : Option String) (moment later : Moment) :
    SameBesidesPlaces (compile dialect source declaration path? moment)
      (compile dialect other declaration otherPath? later) := by
  cases hverdict : verdict dialect source.toList with
  | ok nodes =>
      obtain ⟨set, hset, hnodes⟩ := verdict_eq_ok_iff.mp hverdict
      obtain ⟨rules, hrules, hsame⟩ := verdict_eq_ok_iff.mp (h.symm.trans hverdict)
      simp only [compile, hset, hrules, SameBesidesPlaces, codeLines_moduleText, hnodes, hsame,
        and_self]
  | error complaint =>
      obtain ⟨position, hposition⟩ := verdict_eq_error_iff.mp hverdict
      obtain ⟨place, hplace⟩ := verdict_eq_error_iff.mp (h.symm.trans hverdict)
      simp only [compile, hposition, hplace, SameBesidesPlaces]

/-! ## Laid-out texts -/

theorem map_bare_lexemesAt {τ : Type} (written : List (Written τ)) (offset : Nat) :
    (Written.lexemesAt offset written).map Lexeme.bare =
      written.map fun lexeme => (lexeme.token, String.ofList lexeme.text) := by
  induction written generalizing offset with
  | nil => rfl
  | cons first rest ih => exact congrArg (_ :: ·) (ih _)

/-- Lexemes that are written alike are the same. -/
theorem tokens_eq_of_texts {τ : Type} {scheme : Scheme τ} {gap other : List Char}
    {written others : List (Written τ)} (h : scheme.LaidOut gap written)
    (hother : scheme.LaidOut other others)
    (htexts : written.map Written.text = others.map Written.text) :
    (written.map fun lexeme => (lexeme.token, String.ofList lexeme.text)) =
      others.map fun lexeme => (lexeme.token, String.ofList lexeme.text) := by
  induction written generalizing gap other others with
  | nil =>
      obtain rfl := List.map_eq_nil_iff.mp htexts.symm
      rfl
  | cons first rest ih =>
      cases others with
      | nil => exact nomatch htexts
      | cons second later =>
          obtain ⟨token, text, behind⟩ := first
          obtain ⟨sign, string, after⟩ := second
          obtain ⟨hfirst, hrest⟩ := List.cons.inj htexts
          obtain rfl : text = string := hfirst
          obtain ⟨-, hwhole, -, hlaid⟩ := h
          obtain ⟨-, hsame, -, hlater⟩ := hother
          have hlexeme := Except.ok.inj (hwhole.symm.trans hsame)
          have htoken : token = sign :=
            congrArg (fun lexeme : Lexeme τ => lexeme.token) (List.cons.inj hlexeme).1
          rw [List.map_cons, List.map_cons, ih hlaid hlater hrest, htoken]

/-- Lexemes with gaps between them are found where they are written, and with other gaps
they are compiled alike. -/
theorem layout_irrelevant (dialect : Dialect) (gap : List Char)
    (written : List (Written (Sign dialect))) (h : (scheme dialect).LaidOut gap written) :
    (lexicon dialect).lexemes (gap ++ Written.textOf written) =
        .ok (Written.lexemesAt (byteLength gap) written) ∧
      ∀ (other : List Char) (others : List (Written (Sign dialect))),
        (scheme dialect).LaidOut other others →
        written.map Written.text = others.map Written.text →
        ∀ (declaration : Export) (path? otherPath? : Option String) (moment later : Moment),
          SameBesidesPlaces
            (compile dialect (String.ofList (gap ++ Written.textOf written)) declaration path?
              moment)
            (compile dialect (String.ofList (other ++ Written.textOf others)) declaration
              otherPath? later) := by
  have hlexemes : ∀ {gap : List Char} {written : List (Written (Sign dialect))},
      (scheme dialect).LaidOut gap written →
      (lexicon dialect).lexemes (gap ++ Written.textOf written) =
        .ok (Written.lexemesAt (byteLength gap) written) := by
    intro gap written hlaid
    have hfound := (tidy dialect).lexemesFrom_laidOut hlaid 0
    rw [Nat.zero_add] at hfound
    rw [lexicon_eq]
    exact hfound
  refine ⟨hlexemes h, ?_⟩
  intro other others hother htexts declaration path? otherPath? moment later
  refine same_of_verdict_eq ?_ declaration path? otherPath? moment later
  rw [String.toList_ofList, String.toList_ofList]
  refine verdict_eq_of_bare (hlexemes h) (hlexemes hother) ?_
  rw [map_bare_lexemesAt, map_bare_lexemesAt, tokens_eq_of_texts h hother htexts]

def spaced : List (Written Iso.Sign) :=
  [⟨.name "a", ['a'], [' ']⟩, ⟨.define, ['='], [' ']⟩, ⟨.name "b", ['b'], [' ']⟩,
    ⟨.semicolon, [';'], []⟩]

/-- The rule with comments between its lexemes, the last one up to the end of the text. -/
def commented : List (Written Iso.Sign) :=
  [⟨.name "a", ['a'], "(*'**)".toList⟩, ⟨.define, ['='], "//=\n".toList⟩,
    ⟨.name "b", ['b'], ['\r', '\n']⟩, ⟨.semicolon, [';'], "//(*".toList⟩]

theorem laidOut_spaced : Iso.scheme.LaidOut [] spaced := by
  have hblank : Iso.scheme.Gap [' '] := .blank rfl .nil
  exact ⟨.nil, Lexicon.whole_of_cut rfl, nofun, hblank, Lexicon.whole_of_cut rfl, nofun, hblank,
    Lexicon.whole_of_cut rfl, nofun, hblank, Lexicon.whole_of_cut rfl, nofun, .closed .nil⟩

theorem laidOut_commented : Iso.scheme.LaidOut [] commented := by
  have hcomment : (⟨('(', '*'), ('*', ')')⟩ : BlockComment) ∈ Iso.scheme.comment? := rfl
  have hlead : "//".toList ∈ Iso.scheme.lineLead? := rfl
  have hquote : ¬ ['*', ')'] <:+: ['\'', '*'] := by decide
  have hequals : '\n' ∉ ['='] := by decide
  have hopener : '\n' ∉ ['(', '*'] := by decide
  have hblock : Iso.scheme.Gap "(*'**)".toList := .block hcomment hquote .nil
  have hline : Iso.scheme.Gap "//=\n".toList := .line hlead hequals .nil
  have hbreak : Iso.scheme.Gap ['\r', '\n'] := .blank rfl (.blank rfl .nil)
  have hend : Iso.scheme.LastGap "//(*".toList := .line .nil hlead hopener
  exact ⟨.nil, Lexicon.whole_of_cut rfl, nofun, hblock, Lexicon.whole_of_cut rfl, nofun, hline,
    Lexicon.whole_of_cut rfl, nofun, hbreak, Lexicon.whole_of_cut rfl, nofun, hend⟩

theorem layout_irrelevant_commented :
    Iso.lexicon.lexemes "a(*'**)=//=\nb\r\n;//(*".toList =
        .ok (Written.lexemesAt 0 commented) ∧
      ∀ (declaration : Export) (path? : Option String) (moment : Moment),
        SameBesidesPlaces
          (compile .iso "a(*'**)=//=\nb\r\n;//(*" declaration path? moment)
          (compile .iso "a = b ;" declaration path? moment) := by
  obtain ⟨hlexemes, hsame⟩ := layout_irrelevant .iso [] commented laidOut_commented
  refine ⟨hlexemes, ?_⟩
  intro declaration path? moment
  exact hsame [] spaced laidOut_spaced rfl declaration path? path? moment moment

end GrammarTable.Run
