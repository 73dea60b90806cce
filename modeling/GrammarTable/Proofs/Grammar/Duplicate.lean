import GrammarTable.Proofs.Grammar.Excerpt
import GrammarTable.Proofs.Grammar.Leaves
import GrammarTable.Proofs.Text.Trimmed

/-!
# Empty grammars and names declared twice

Whether the rules of a text make a grammar hangs on their names alone: there has to be one, and no
two may be the same. What is at fault is the first rule that repeats a name, where its number
stands, or its name. In BNF blanks at the ends of a name do not tell it from another.
-/

namespace GrammarTable

open Rule Settings Text Token

namespace Grammar

variable {dialect : Dialect} {source : String} {text : List Char} {rules before : List Draft}
  {rule : Draft}

/-- Where names are repeated, one rule is the first to do so. -/
theorem exists_firstRepeat (h : ¬ (rules.map fun rule => rule.label.name).Nodup) :
    ∃ before rule, FirstRepeat rules before rule := by
  -- Collecting the rules comes upon it.
  cases hcollect : collect rules with
  | ok set =>
      have hrules := (collect_eq_ok_iff.mp hcollect).1
      rw [← hrules] at h
      exact absurd set.names_nodup h
  | error finding =>
      rcases collect_eq_error_iff.mp hcollect with ⟨hnone, -⟩ | ⟨before, rule, hfirst, -⟩
      · rw [hnone] at h
        exact absurd List.nodup_nil h
      · exact ⟨before, rule, hfirst⟩

/-! ## The heads of the rules -/

/-- The lexemes of a rule start with its name, behind its number if it has one, and there its
span starts. -/
def Passage.Opens (dialect : Dialect) (passage : Passage (Sign dialect)) (rule : Draft) : Prop :=
  ∃ (number? : Option (Lexeme (Sign dialect))) (name define : Lexeme (Sign dialect)),
    passage.head = number?.toList ++ [name, define] ∧
      (∀ number ∈ number?, isNumber dialect number.token = true) ∧
      define.token = defineSign dialect ∧
      rule.label.name = leafName dialect .nonTerminal name.text ∧
      rule.label.span.map Span.start = some (number?.getD name).span.start

theorem Passage.Makes.opens {passage : Passage (Sign dialect)}
    (h : Passage.Makes dialect passage rule) : Passage.Opens dialect passage rule := by
  have ⟨number?, name, define, hhead, hnumber, hleaf, hdefine⟩ := h.head_eq
  have ⟨first, hfirst, last, _, hspan⟩ := h.span_eq
  refine ⟨number?, name, define, hhead, hnumber, hdefine, ?_, ?_⟩
  · unfold leafOf at hleaf
    have ⟨label, _, hlabel⟩ := Option.map_eq_some_iff.mp hleaf
    have hkind : label.kind = .nonTerminal := congrArg (fun leaf : MarkedLabel => leaf.kind) hlabel
    have hname := congrArg (fun leaf : MarkedLabel => leaf.name) hlabel
    simp only [hkind] at hname
    exact hname.symm
  · have hstart : first = number?.getD name := by
      rw [hhead] at hfirst
      cases number? with
      | none => exact (Option.some.inj hfirst).symm
      | some number => exact (Option.some.inj hfirst).symm
    rw [hspan, ← hstart]
    rfl

theorem faithful_of_draftsOf (h : draftsOf dialect text = .ok rules) :
    ∃ lexemes, (lexicon dialect).lexemes text = .ok lexemes ∧
      Faithful dialect text lexemes rules := by
  cases dialect with
  | bnf => exact heads_bnf.faithful rfl h
  | w3c => exact heads_w3c.faithful rfl h
  | iso => exact heads_iso.faithful rfl h

/-! ## What becomes of the rules -/

structure Collects (dialect : Dialect) (source : String) (rules : List Draft) : Prop where
  accepted : (∃ set, read dialect source = .ok set) ↔
    0 < rules.length ∧ (rules.map fun rule => rule.label.name).Nodup
  kept : ∀ set, read dialect source = .ok set →
    set.rules = rules ∧ ∀ rule ∈ rules, set.find? rule.label.name = some rule
  empty : rules.length = 0 → read dialect source = .error ⟨dialect, ⟨1, 1⟩, .noRules⟩
  repeats : ¬ (rules.map fun rule => rule.label.name).Nodup →
    ∃ before rule, FirstRepeat rules before rule
  repeated : ∀ before rule, FirstRepeat rules before rule →
    ∃ span, rule.label.span = some span ∧
      read dialect source =
        .error ⟨dialect, Position.ofOffset source.toList span.start, .duplicate rule.label.name⟩
  opened : ∃ passages, (lexicon dialect).lexemes source.toList =
      .ok (passages.flatMap Passage.lexemes) ∧
    List.Forall₂ (Passage.Opens dialect) passages rules

theorem collects_of_draftsOf (h : draftsOf dialect source.toList = .ok rules) :
    Collects dialect source rules := by
  have hrules : ∀ set, read dialect source = .ok set → set.rules = rules ∧ rules ≠ [] := by
    intro set hread
    have ⟨hdrafts, hne⟩ := read_eq_ok_iff_draftsOf.mp hread
    have hsame : set.rules = rules := Except.ok.inj (hdrafts.symm.trans h)
    exact ⟨hsame, hsame ▸ hne⟩
  constructor
  case accepted =>
    constructor
    · rintro ⟨set, hread⟩
      have ⟨hsame, hne⟩ := hrules set hread
      exact ⟨List.length_pos_iff.mpr hne, hsame ▸ set.names_nodup⟩
    · rintro ⟨hpos, hnodup⟩
      have ⟨set, hread, _⟩ := exists_read_of_draftsOf h (List.length_pos_iff.mp hpos) hnodup
      exact ⟨set, hread⟩
  case kept =>
    intro set hread
    have ⟨hsame, _⟩ := hrules set hread
    refine ⟨hsame, ?_⟩
    intro rule hrule
    rw [← hsame] at hrule
    exact RuleSet.find?_of_mem hrule
  case empty =>
    intro hlength
    have hnone : rules = [] := List.length_eq_zero_iff.mp hlength
    have hstart : Position.ofOffset source.toList 0 = ⟨1, 1⟩ :=
      Position.ofOffset_append [] source.toList
    rw [← hstart]
    apply read_of_find_error
    apply find_eq_error_iff.mpr
    exact .inr ⟨rules, h, collect_eq_error_iff.mpr (.inl ⟨hnone, rfl⟩)⟩
  case repeats => exact exists_firstRepeat
  case repeated =>
    intro before rule hfirst
    have ⟨span, hspan, _⟩ := exists_draftsOf_slice h hfirst.mem
    refine ⟨span, hspan, ?_⟩
    apply read_of_find_error
    apply find_eq_error_iff.mpr
    refine .inr ⟨rules, h, collect_eq_error_iff.mpr (.inr ⟨before, rule, hfirst, ?_⟩)⟩
    rw [hspan]
    rfl
  case opened =>
    have ⟨lexemes, hlexemes, hfaithful⟩ := faithful_of_draftsOf h
    have ⟨passages, hsplit, hmakes⟩ := hfaithful.passages
    rw [hsplit] at hlexemes
    exact ⟨passages, hlexemes, hmakes.imp fun _ _ hmade => hmade.opens⟩

/-- The name in angle brackets does not hang on the blanks around it. -/
theorem leafName_padded {lead name trail : List Char} (hlead : ∀ c ∈ lead, isBlank c = true)
    (htrail : ∀ c ∈ trail, isBlank c = true) :
    leafName .bnf .nonTerminal (String.ofList ('<' :: (lead ++ (name ++ trail)) ++ ['>'])) =
      leafName .bnf .nonTerminal (String.ofList ('<' :: name ++ ['>'])) := by
  have hinside : ∀ cs : List Char, leafName .bnf .nonTerminal (String.ofList ('<' :: cs ++ ['>'])) =
      String.ofList (trimChars cs) := by
    intro cs
    simp [leafName, between, trim]
  rw [hinside, hinside, trimChars_padded hlead htrail]

/-- The rules of a text make a grammar when there is one and their names differ; else the text is
refused where it starts, or at the first rule that repeats a name. -/
theorem rules_collected :
    (∀ (dialect : Dialect) (source : String) (rules : List Draft),
      draftsOf dialect source.toList = .ok rules → Collects dialect source rules) ∧
    Complaint.words .noRules = "grammar declares no rules" ∧
    (∀ name, Complaint.words (.duplicate name) = "rule '" ++ name ++ "' is declared more than once") ∧
    ∀ lead name trail : List Char, (∀ c ∈ lead, isBlank c = true) →
      (∀ c ∈ trail, isBlank c = true) →
      leafName .bnf .nonTerminal (String.ofList ('<' :: (lead ++ (name ++ trail)) ++ ['>'])) =
        leafName .bnf .nonTerminal (String.ofList ('<' :: name ++ ['>'])) :=
  ⟨fun _ _ _ => collects_of_draftsOf, rfl, fun _ => rfl, fun _ _ _ => leafName_padded⟩

/-- Two names are declared twice, one of them with blanks around it. -/
def repeatingText : String :=
  "<b> ::= 'x'\n<a> ::= <b>\n< a > ::= 'y'\n<b> ::= 'z'"

def repeatingLexemes : List (Lexeme Bnf.Sign) :=
  [⟨.name "b", "<b>", ⟨0, 3⟩⟩, ⟨.define, "::=", ⟨4, 7⟩⟩, ⟨.literal "x", "'x'", ⟨8, 11⟩⟩,
    ⟨.name "a", "<a>", ⟨12, 15⟩⟩, ⟨.define, "::=", ⟨16, 19⟩⟩, ⟨.name "b", "<b>", ⟨20, 23⟩⟩,
    ⟨.name "a", "< a >", ⟨24, 29⟩⟩, ⟨.define, "::=", ⟨30, 33⟩⟩, ⟨.literal "y", "'y'", ⟨34, 37⟩⟩,
    ⟨.name "b", "<b>", ⟨38, 41⟩⟩, ⟨.define, "::=", ⟨42, 45⟩⟩, ⟨.literal "z", "'z'", ⟨46, 49⟩⟩]

theorem lexemes_repeating : Bnf.lexicon.lexemes repeatingText.toList = .ok repeatingLexemes := by
  decide +kernel

def distinctRules : List Draft :=
  [.composite .rule "b" ⟨0, 11⟩ [.leaf .terminal "x" ⟨8, 11⟩],
    .composite .rule "a" ⟨12, 23⟩ [.leaf .nonTerminal "b" ⟨20, 23⟩]]

def repeatingRule : Draft :=
  .composite .rule "a" ⟨24, 37⟩ [.leaf .terminal "y" ⟨34, 37⟩]

def laterRule : Draft :=
  .composite .rule "b" ⟨38, 49⟩ [.leaf .terminal "z" ⟨46, 49⟩]

theorem draftsOf_repeating :
    draftsOf .bnf repeatingText.toList = .ok (distinctRules ++ [repeatingRule, laterRule]) :=
  drafts_eq_ok_iff.mpr ⟨_, lexemes_repeating, _, rfl, rfl⟩

/-- The earlier of the two repeated rules is refused, at the start of its line. -/
theorem rules_collected_repeating :
    read .bnf repeatingText = .error ⟨.bnf, ⟨3, 1⟩, .duplicate "a"⟩ ∧
      leafName .bnf .nonTerminal "< a >" = leafName .bnf .nonTerminal "<a>" := by
  constructor
  · have hcollects := rules_collected.1 .bnf repeatingText _ draftsOf_repeating
    have hfirst : FirstRepeat (distinctRules ++ [repeatingRule, laterRule]) distinctRules
        repeatingRule :=
      ⟨⟨[laterRule], rfl⟩, by decide, by decide⟩
    have ⟨span, hspan, hread⟩ := hcollects.repeated distinctRules repeatingRule hfirst
    have hsame : ⟨24, 37⟩ = span := Option.some.inj hspan
    have hplace : Position.ofOffset repeatingText.toList 24 = ⟨3, 1⟩ := by decide +kernel
    rw [← hsame, hplace] at hread
    exact hread
  · exact rules_collected.2.2.2 [' '] ['a'] [' '] (by decide) (by decide)

end Grammar

end GrammarTable
