import GrammarTable.Proofs.Run.Layout
import GrammarTable.Proofs.Token.Relined

/-!
# Modules keep their grammar

The comment lines of a module hold the lines of its grammar. Put together again they are a
grammar with the same rules, although line ends may have changed.
-/

namespace GrammarTable

open Calendar Grammar Rule Settings Table Text Token

namespace Text

/-! ## Lines put together again -/

/-- Carriage returns stand in front of line feeds only. -/
def ReturnsEndLines (cs : List Char) : Prop :=
  ∀ front rest, cs = front ++ '\r' :: rest → rest.head? = some '\n'

theorem returnsEndLines_nil : ReturnsEndLines [] :=
  fun _ _ h => nomatch (List.append_eq_nil_iff.mp h.symm).2

theorem returnsEndLines_cons {c : Char} {cs : List Char} :
    ReturnsEndLines (c :: cs) ↔ (c = '\r' → cs.head? = some '\n') ∧ ReturnsEndLines cs := by
  constructor
  · intro h
    exact ⟨fun hc => h [] cs (congrArg (· :: cs) hc),
      fun front rest heq => h (c :: front) rest (congrArg (c :: ·) heq)⟩
  · rintro ⟨hhead, htail⟩ front rest heq
    cases front with
    | nil =>
        obtain ⟨rfl, rfl⟩ := List.cons.inj heq
        exact hhead rfl
    | cons d front => exact htail front rest (List.cons.inj heq).2

instance decidableReturnsEndLines : ∀ cs : List Char, Decidable (ReturnsEndLines cs)
  | [] => .isTrue returnsEndLines_nil
  | _ :: cs =>
      have := decidableReturnsEndLines cs
      decidable_of_iff _ returnsEndLines_cons.symm

theorem ReturnsEndLines.tail {c : Char} {cs : List Char} (h : ReturnsEndLines (c :: cs)) :
    ReturnsEndLines cs :=
  (returnsEndLines_cons.mp h).2

/-- The lines in which a text goes on from the line at hand. If nothing is left there are
none; otherwise, put together again, they are the text with other line ends. -/
def Rejoins (line cs : List Char) (later : List (List Char)) : Prop :=
  (later = [] ∧ line = [] ∧ cs = []) ∨
    (later ≠ [] ∧ ∃ ds, ['\n'].intercalate later = line.reverse ++ ds ∧ Relined cs ds)

namespace Rejoins

variable {line rest : List Char} {later : List (List Char)} {c : Char}

theorem last (line : List Char) :
    Rejoins line [] (if line.isEmpty then [] else [line.reverse]) := by
  cases line with
  | nil => exact .inl ⟨rfl, rfl, rfl⟩
  | cons c line => exact .inr ⟨List.cons_ne_nil _ _, [], by simp, .nil⟩

/-- A line feed ends the line at hand. -/
theorem feed (h : Rejoins [] rest later) :
    Rejoins line ('\n' :: rest) (line.reverse :: later) := by
  refine .inr ⟨List.cons_ne_nil _ _, ?_⟩
  rcases h with ⟨rfl, -, rfl⟩ | ⟨hne, ds, htext, hrelined⟩
  · exact ⟨[], by simp, .last⟩
  · refine ⟨'\n' :: ds, ?_, .keep (by decide) hrelined⟩
    rw [List.intercalate_cons_of_ne_nil hne, htext]
    simp

theorem drop (h : Rejoins line ('\n' :: rest) later) :
    Rejoins line ('\r' :: '\n' :: rest) later := by
  rcases h with ⟨-, -, hnil⟩ | ⟨hne, ds, htext, hrelined⟩
  · exact nomatch hnil
  · exact .inr ⟨hne, ds, htext, .drop hrelined⟩

theorem keep (hc : c ≠ '\r') (h : Rejoins (c :: line) rest later) :
    Rejoins line (c :: rest) later := by
  rcases h with ⟨-, hnil, -⟩ | ⟨hne, ds, htext, hrelined⟩
  · exact nomatch hnil
  · refine .inr ⟨hne, c :: ds, ?_, .keep hc hrelined⟩
    rw [htext, List.reverse_cons, List.append_assoc, List.singleton_append]

end Rejoins

/-- What is still to come gives further lines. -/
theorem exists_rejoins_linesOnto {cs : List Char} (hreturns : ReturnsEndLines cs)
    (hbreaks : ∀ c ∈ cs, isLineBreak c = true → c = '\r' ∨ c = '\n')
    (found : List (List Char)) (line : List Char) :
    ∃ later, linesOnto found line cs = found.reverse ++ later ∧ Rejoins line cs later := by
  -- A line that has ended is the first of those to come.
  have hfeed : ∀ {found lines : List (List Char)} {line rest : List Char},
      (∃ later, lines = (line.reverse :: found).reverse ++ later ∧ Rejoins [] rest later) →
      ∃ later, lines = found.reverse ++ later ∧ Rejoins line ('\n' :: rest) later := by
    rintro found lines line rest ⟨later, rfl, hlater⟩
    exact ⟨line.reverse :: later, by simp, hlater.feed⟩
  fun_induction linesOnto found line cs with
  | case1 found line =>
      refine ⟨_, ?_, .last line⟩
      split <;> simp
  | case2 found line rest ih =>
      have hrest := (List.forall_mem_cons.mp (List.forall_mem_cons.mp hbreaks).2).2
      obtain ⟨later, hlines, hlater⟩ := hfeed (ih hreturns.tail.tail hrest)
      exact ⟨later, hlines, hlater.drop⟩
  | case3 found line c rest hpair hends ih =>
      obtain ⟨hc, hrest⟩ := List.forall_mem_cons.mp hbreaks
      rcases hc hends with rfl | rfl
      · -- A carriage return would have a line feed behind it.
        obtain ⟨later, rfl⟩ := List.head?_eq_some_iff.mp (hreturns [] rest rfl)
        exact absurd rfl (hpair later rfl)
      · exact hfeed (ih hreturns.tail hrest)
  | case4 found line c rest hpair hends ih =>
      have hreturn : c ≠ '\r' := by
        rintro rfl
        exact hends rfl
      obtain ⟨later, hlines, hlater⟩ :=
        ih hreturns.tail (List.forall_mem_cons.mp hbreaks).2
      exact ⟨later, hlines, hlater.keep hreturn⟩

/-- The lines of a text, joined by line feeds. -/
theorem relined_lines {source : String} (hreturns : ReturnsEndLines source.toList)
    (hbreaks : ∀ c ∈ source.toList, isLineBreak c = true → c = '\r' ∨ c = '\n') :
    Relined source.toList (['\n'].intercalate ((lines source).map String.toList)) := by
  have hlist : (lines source).map String.toList = linesOnto [] [] source.toList := by
    simp [lines, Function.comp_def]
  obtain ⟨later, hlines, hlater⟩ := exists_rejoins_linesOnto hreturns hbreaks [] []
  rw [hlist, hlines, List.reverse_nil, List.nil_append]
  rcases hlater with ⟨rfl, -, hnil⟩ | ⟨-, ds, htext, hrelined⟩
  · rw [hnil]
    exact .nil
  · rw [htext]
    exact hrelined

end Text

/-! ## Lexemes without carriage returns -/

theorem Bnf.admits_return : ∀ entry ∈ Bnf.scheme.tokens, entry.shape.admits '\r' = false := by
  decide

theorem Iso.admits_return : ∀ entry ∈ Iso.scheme.tokens, entry.shape.admits '\r' = false := by
  decide

/-- Only literals may hold a carriage return. -/
theorem W3c.literal_of_admits_return : ∀ entry ∈ W3c.scheme.tokens,
    entry.shape.admits '\r' = true →
    ∀ piece token, entry.token? piece = some token → ∃ text, token = .literal text := by
  have hquoted : ∀ entry ∈ W3c.scheme.tokens.filter fun entry => entry.shape.admits '\r',
      ∀ piece token, entry.token? piece = some token → ∃ text, token = .literal text := by
    intro entry hentry piece token htoken
    rcases List.mem_cons.mp hentry with rfl | hentry
    · exact ⟨_, (Option.some.inj htoken).symm⟩
    · obtain rfl := List.mem_singleton.mp hentry
      exact ⟨_, (Option.some.inj htoken).symm⟩
  intro entry hentry hadmits
  exact hquoted entry (List.mem_filter.mpr ⟨hentry, hadmits⟩)

def W3c.LiteralsKeepLines (source : String) : Prop :=
  ∀ lexemes, W3c.lexicon.lexemes source.toList = .ok lexemes →
    ∀ lexeme ∈ lexemes, ∀ text, lexeme.token = .literal text → '\r' ∉ lexeme.text.toList

namespace Run

theorem lexes_of_lexemes {dialect : Dialect} {text : List Char}
    {lexemes : List (Lexeme (Sign dialect))}
    (h : (lexicon dialect).lexemes text = .ok lexemes) :
    (scheme dialect).lexicon.Lexes 0 text lexemes := by
  rw [lexicon_eq] at h
  exact Lexicon.lexes_iff.mp h

theorem no_return_of_lexemes {dialect : Dialect} {source : String}
    {lexemes : List (Lexeme (Sign dialect))}
    (hliterals : dialect = .w3c → W3c.LiteralsKeepLines source)
    (h : (lexicon dialect).lexemes source.toList = .ok lexemes) :
    ∀ lexeme ∈ lexemes, '\r' ∉ lexeme.text.toList := by
  intro lexeme hmem hreturn
  obtain ⟨entry, hentry, hpiece, htoken⟩ :=
    Scheme.exists_entry_of_lexes (lexes_of_lexemes h) lexeme hmem
  have hadmits := Shape.admits_of_mem_piece hpiece hreturn
  cases dialect with
  | bnf => exact nomatch hadmits.symm.trans (Bnf.admits_return entry hentry)
  | iso => exact nomatch hadmits.symm.trans (Iso.admits_return entry hentry)
  | w3c =>
      obtain ⟨text, hliteral⟩ :=
        W3c.literal_of_admits_return entry hentry hadmits _ _ htoken
      exact hliterals rfl lexemes h lexeme hmem text hliteral hreturn

/-! ## The grammar in the comments -/

def uncommented (line : List Char) : List Char :=
  if "// ".toList.isPrefixOf line then line.drop 3 else line.drop 2

/-- The grammar text that a module holds: the lines from the fourth up to the first blank
one, without the last of them, each without its lead. -/
def recovered (text : String) : String :=
  String.ofList (['\n'].intercalate
    (((((scriptLines text).drop 3).takeWhile fun line => !line.isEmpty).dropLast).map
      uncommented))

theorem uncommented_commentLine (line : String) :
    uncommented (commentLine line).toList = line.toList := by
  unfold commentLine
  by_cases hempty : line = ""
  · rw [if_pos hempty, hempty]
    rfl
  · rw [if_neg hempty, String.toList_append]
    rfl

/-- The lines of a module that hold its grammar, and the separator behind them. -/
theorem grammarLines_moduleText (nodes : List Node) (declaration : Export)
    (path source : String) (moment : Moment) :
    ((scriptLines (moduleText nodes declaration (some ⟨path, source⟩) moment)).drop 3).takeWhile
        (fun line => !line.isEmpty) =
      ((lines source).map commentLine ++ ["// ----"]).map String.toList := by
  have hcomments : ∀ line ∈ (((lines source).map commentLine ++ ["// ----"]).map String.toList),
      (!line.isEmpty) = true := by
    intro line hline
    obtain ⟨text, htext, rfl⟩ := List.mem_map.mp hline
    have hmem : text ∈ comments (some ⟨path, source⟩) moment :=
      List.mem_cons_of_mem _ (List.mem_cons_of_mem _ (List.mem_cons_of_mem _ htext))
    simpa using ne_nil_of_mem_comments hmem
  rw [scriptLines_moduleText]
  simp only [comments, provenance, List.map_cons, List.cons_append, List.drop_succ_cons,
    List.drop_zero]
  rw [List.takeWhile_append_of_pos hcomments, List.takeWhile_cons_of_neg (by simp),
    List.append_nil]

theorem recovered_moduleText (nodes : List Node) (declaration : Export) (path source : String)
    (moment : Moment) :
    recovered (moduleText nodes declaration (some ⟨path, source⟩) moment) =
      String.ofList (['\n'].intercalate ((lines source).map String.toList)) := by
  rw [recovered, grammarLines_moduleText, List.map_append, List.map_singleton,
    List.dropLast_concat, List.map_map, List.map_map]
  have hline : (uncommented ∘ String.toList) ∘ commentLine = String.toList :=
    funext uncommented_commentLine
  rw [hline]

/-- What the comments of a module hold is read as the grammar was. -/
theorem read_recovered (dialect : Dialect) (source path : String) (declaration : Export)
    (moment : Moment) (compiled : Compiled)
    (h : compile dialect source declaration (some path) moment = .ok compiled)
    (hseparators : ∀ c ∈ source.toList, c ≠ '\u2028' ∧ c ≠ '\u2029')
    (hreturns : ReturnsEndLines source.toList)
    (hliterals : dialect = .w3c → W3c.LiteralsKeepLines source) :
    ∃ set, Grammar.read dialect (recovered compiled.text) = .ok set ∧
      set.nodes = compiled.rules.nodes := by
  obtain ⟨hread, htext⟩ := compile_eq_ok_iff.mp h
  have hverdict := verdict_eq_ok_iff.mpr ⟨_, hread, rfl⟩
  have hrecovered : recovered compiled.text =
      String.ofList (['\n'].intercalate ((lines source).map String.toList)) := by
    rw [htext]
    exact recovered_moduleText _ _ _ _ _
  have hbreaks : ∀ c ∈ source.toList, isLineBreak c = true → c = '\r' ∨ c = '\n' := by
    intro c hc hbreak
    obtain ⟨hline, hparagraph⟩ := hseparators c hc
    simp only [isLineBreak, Bool.or_eq_true, beq_iff_eq, hline, hparagraph, or_false]
      at hbreak
    exact hbreak.symm
  have hrelined := relined_lines hreturns hbreaks
  obtain ⟨lexemes, hlexemes⟩ := exists_lexemes_of_read hread
  -- No lexeme holds a carriage return, so the other line ends change gaps only.
  obtain ⟨others, hothers, hbare⟩ := (tidy dialect).exists_lexemes_of_relined
    (lexes_of_lexemes hlexemes) (no_return_of_lexemes hliterals hlexemes) hrelined 0
  refine verdict_eq_ok_iff.mp ?_
  rw [hrecovered, String.toList_ofList, ← hverdict]
  refine verdict_eq_of_bare ?_ hlexemes hbare
  rw [lexicon_eq]
  exact hothers

def dashes : List Char :=
  ['\r', '\n', '-', '-', '-', '-', '\r', '\n']

/-- A rule with a comment behind it that holds a line like the separator. -/
def dashed : List (Written W3c.Sign) :=
  [⟨.name "a", ['a'], [' ']⟩, ⟨.define, [':', ':', '='], [' ']⟩,
    ⟨.literal "b", ['\'', 'b', '\''], '/' :: '*' :: (dashes ++ ['*', '/', '\r', '\n'])⟩]

def dashedText : String :=
  "a ::= 'b'/*\r\n----\r\n*/\r\n"

theorem laidOut_dashed : W3c.scheme.LaidOut [] dashed := by
  have hblank : W3c.scheme.Gap [' '] := .blank rfl .nil
  have hbreak : W3c.scheme.Gap ['\r', '\n'] := .blank rfl (.blank rfl .nil)
  have hcomment : (⟨('/', '*'), ('*', '/')⟩ : BlockComment) ∈ W3c.scheme.comment? := rfl
  have hdashes : ¬ ['*', '/'] <:+: dashes := by decide
  exact ⟨.nil, Lexicon.whole_of_cut rfl, nofun, hblank, Lexicon.whole_of_cut rfl, nofun, hblank,
    Lexicon.whole_of_cut rfl, nofun, .closed (.block hcomment hdashes hbreak)⟩

theorem lexemes_dashedText :
    W3c.lexicon.lexemes dashedText.toList = .ok (Written.lexemesAt 0 dashed) :=
  W3c.tidy.lexemesFrom_laidOut laidOut_dashed 0

theorem read_recovered_dashedText :
    ∃ compiled, compile .w3c dashedText ⟨⟨"rules", rfl, by decide⟩, .typed⟩ (some "a.ebnf")
        ⟨0, 0⟩ = .ok compiled ∧
      recovered compiled.text = "a ::= 'b'/*\n----\n*/" ∧
      ∃ set, Grammar.read .w3c (recovered compiled.text) = .ok set ∧
        set.nodes = compiled.rules.nodes := by
  obtain ⟨set, hset⟩ : ∃ set, Grammar.read .w3c dashedText = .ok set := by
    simp only [Grammar.read, find, draftsOf, drafts, lexemes_dashedText]
    exact ⟨_, rfl⟩
  have hcompile : ∀ declaration : Export,
      compile .w3c dashedText declaration (some "a.ebnf") ⟨0, 0⟩ =
        .ok ⟨set, moduleText set.nodes declaration (some ⟨"a.ebnf", dashedText⟩) ⟨0, 0⟩⟩ := by
    intro declaration
    simp only [compile, hset, Option.map_some]
  have hrecovered : ∀ declaration : Export,
      recovered (moduleText set.nodes declaration (some ⟨"a.ebnf", dashedText⟩) ⟨0, 0⟩) =
        "a ::= 'b'/*\n----\n*/" := by
    intro declaration
    rw [recovered_moduleText]
    decide +kernel
  refine ⟨_, hcompile _, hrecovered _, ?_⟩
  refine read_recovered .w3c _ _ _ _ _ (hcompile _) (by decide +kernel) (by decide +kernel)
    ?_
  rintro - lexemes hlexemes lexeme hmem - -
  obtain rfl := Except.ok.inj (lexemes_dashedText.symm.trans hlexemes)
  revert lexeme
  decide

end Run

end GrammarTable
