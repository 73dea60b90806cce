import GrammarTable.Proofs.Bnf.Script
import GrammarTable.Proofs.Grammar.Collected
import GrammarTable.Proofs.Iso.Script
import GrammarTable.Proofs.W3c.Script

/-!
# Rules as texts of their own

The bytes of a rule are a grammar with that rule only, in each dialect.
-/

namespace GrammarTable.Grammar

open Rule Settings Text Token

theorem exists_draftsOf_slice {dialect : Dialect} {text : List Char} {found : List Draft}
    (h : draftsOf dialect text = .ok found) {rule : Draft} (hmem : rule ∈ found) :
    ∃ span, rule.label.span = some span ∧ ∃ part, Slice text span part ∧
      ∃ alone, draftsOf dialect part = .ok [alone] ∧ rule = alone.moved (· + span.start) := by
  cases dialect with
  | bnf => exact Bnf.script.exists_rulesOf_slice h hmem
  | w3c => exact W3c.script.exists_rulesOf_slice h hmem
  | iso => exact Iso.script.exists_rulesOf_slice h hmem

/-- What stands at the span of a rule is read as that rule, as far from its own start as the
rule is from the start of the text. -/
theorem read_slice {dialect : Dialect} {source : String} {set : RuleSet}
    (h : read dialect source = .ok set) {rule : Draft} (hmem : rule ∈ set.rules) :
    ∃ span, rule.label.span = some span ∧ ∃ part, Slice source.toList span part ∧
      ∃ own alone, read dialect (String.ofList part) = .ok own ∧ own.rules = [alone] ∧
        rule = alone.moved (· + span.start) := by
  obtain ⟨hdrafts, -⟩ := read_eq_ok_iff_draftsOf.mp h
  obtain ⟨span, hspan, part, hslice, alone, halone, hrule⟩ := exists_draftsOf_slice hdrafts hmem
  let own : RuleSet := ⟨[alone], by simp⟩
  refine ⟨span, hspan, part, hslice, own, alone, ?_, rfl, hrule⟩
  rw [← String.toList_ofList (l := part)] at halone
  exact read_eq_ok_iff_draftsOf.mpr ⟨halone, List.cons_ne_nil _ _⟩

/-- The rules of `a ::= b [1] c ::= d`. The label is the number of the second one. -/
def lent : RuleSet where
  rules := [.composite .rule "a" ⟨0, 7⟩ [.leaf .nonTerminal "b" ⟨6, 7⟩],
    .composite .rule "c" ⟨8, 19⟩ [.leaf .nonTerminal "d" ⟨18, 19⟩]]
  names_nodup := by decide

theorem read_lent : read .w3c "a ::= b [1] c ::= d" = .ok lent := by
  have hlexemes : W3c.lexicon.lexemes "a ::= b [1] c ::= d".toList =
      .ok [⟨.name "a", "a", ⟨0, 1⟩⟩, ⟨.define, "::=", ⟨2, 5⟩⟩, ⟨.name "b", "b", ⟨6, 7⟩⟩,
        ⟨.label "[1]", "[1]", ⟨8, 11⟩⟩, ⟨.name "c", "c", ⟨12, 13⟩⟩, ⟨.define, "::=", ⟨14, 17⟩⟩,
        ⟨.name "d", "d", ⟨18, 19⟩⟩] := by
    decide +kernel
  have hdrafts : draftsOf .w3c "a ::= b [1] c ::= d".toList = .ok lent.rules :=
    drafts_eq_ok_iff.mpr ⟨_, hlexemes, _, rfl, rfl⟩
  exact read_eq_ok_iff_draftsOf.mpr ⟨hdrafts, List.cons_ne_nil _ _⟩

theorem read_slice_lent :
    ∃ part, Slice "a ::= b [1] c ::= d".toList ⟨8, 19⟩ part ∧
      ∃ own alone, read .w3c (String.ofList part) = .ok own ∧ own.rules = [alone] ∧
        .composite .rule "c" ⟨8, 19⟩ [.leaf .nonTerminal "d" ⟨18, 19⟩] =
          alone.moved (· + 8) := by
  obtain ⟨span, hspan, part, hpart⟩ :=
    read_slice read_lent (List.mem_cons_of_mem _ List.mem_cons_self)
  obtain rfl : (⟨8, 19⟩ : Span) = span := Option.some.inj hspan
  exact ⟨part, hpart⟩

end GrammarTable.Grammar
