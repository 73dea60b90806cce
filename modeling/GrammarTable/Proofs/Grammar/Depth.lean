import GrammarTable.Proofs.Bnf.Script
import GrammarTable.Proofs.Bnf.Translation
import GrammarTable.Proofs.Grammar.Extent
import GrammarTable.Proofs.Grammar.Marks
import GrammarTable.Proofs.Iso.Depth
import GrammarTable.Proofs.Iso.Script
import GrammarTable.Proofs.W3c.Depth
import GrammarTable.Proofs.W3c.Script

/-!
# The depth of rules

The limit on nesting bounds the depth of the rules that a text is read into, however long the
text is. Operators alone add depth without a bracket, and only in the ISO style, where they may
stand one behind the other.
-/

namespace GrammarTable

open Rule Text Token

/-! ## Rules of BNF -/

namespace Bnf

variable {owner : String}

theorem Item.height_draft (item : Item) : item.draft.height = 1 := by
  cases item <;> exact Draft.height_leaf

theorem Sequence.forestHeight_items (sequence : Sequence) :
    Tree.forestHeight sequence.items = 1 := by
  induction sequence with
  | one item => rw [Sequence.items, Tree.forestHeight_singleton, item.height_draft]
  | snoc before item ih =>
      rw [Sequence.items, Tree.forestHeight_concat, ih, item.height_draft]
      rfl

theorem Sequence.height_le (sequence : Sequence) :
    (sequence.translation owner).height ≤ 2 := by
  cases sequence with
  | one item =>
      rw [Sequence.translation, item.height_draft]
      omega
  | snoc before item =>
      have hitems := (Sequence.snoc before item).forestHeight_items
      rw [Sequence.items] at hitems
      rw [Sequence.translation, Draft.height_composite, hitems]

theorem Body.forestHeight_alternatives_le (body : Body) :
    Tree.forestHeight (body.alternatives owner) ≤ 2 := by
  induction body with
  | one sequence =>
      rw [Body.alternatives, Tree.forestHeight_singleton]
      exact sequence.height_le
  | or before bar sequence ih =>
      have hsequence : (sequence.translation owner).height ≤ 2 := sequence.height_le
      rw [Body.alternatives, Tree.forestHeight_concat]
      omega

theorem Body.height_le (body : Body) : (body.translation owner).height ≤ 3 := by
  cases body with
  | one sequence =>
      have hsequence : (sequence.translation owner).height ≤ 2 := sequence.height_le
      rw [Body.translation]
      omega
  | or before bar sequence =>
      have halternatives :
          Tree.forestHeight ((Body.or before bar sequence).alternatives owner) ≤ 2 :=
        Body.forestHeight_alternatives_le _
      rw [Body.alternatives] at halternatives
      rw [Body.translation, Draft.height_composite, Draft.forestHeight_markAlternatives]
      omega

/-- A rule, a choice, a sequence and a leaf. -/
theorem Declaration.height_draft_le (declaration : Declaration) :
    declaration.draft.height ≤ 4 := by
  let owner := declaration.name.token
  have hbody : (declaration.body.translation owner).height ≤ 3 := declaration.body.height_le
  have hrule : declaration.draft.height ≤ 1 + (declaration.body.draft owner).height :=
    Draft.height_rule_le _
  rw [Body.draft_eq] at hrule
  omega

end Bnf

/-! ## Rules of a text -/

namespace Grammar

open Settings

/-- How deep a rule of some lexemes can be: one level for the rule, and five in W3C EBNF or
three in the ISO style for the outermost level of brackets and each of the 256 inside it. -/
def maxDepth : (dialect : Dialect) → List (Lexeme (Sign dialect)) → Nat
  | .bnf, _ => 4
  | .w3c, _ => 1286
  | .iso, lexemes => 772 + Iso.operatorCount lexemes

/-- No rule of a text is deeper than its dialect and its operators let it be. -/
theorem depth_of_read {dialect : Dialect} {source : String} {set : RuleSet}
    (h : read dialect source = .ok set) :
    ∃ lexemes, (lexicon dialect).lexemes source.toList = .ok lexemes ∧
      ∀ rule ∈ set.rules, ∃ span, rule.label.span = some span ∧
        rule.depth ≤ maxDepth dialect (lexemesIn span lexemes) := by
  have ⟨hdrafts, _⟩ := read_eq_ok_iff_draftsOf.mp h
  cases dialect with
  | bnf =>
      have ⟨lexemes, hlexemes, hwritten⟩ := Bnf.script.exists_written hdrafts
      refine ⟨lexemes, hlexemes, ?_⟩
      intro rule hrule
      have ⟨written, span, hsame, hspan, _, _⟩ := hwritten rule hrule
      refine ⟨span, hspan, ?_⟩
      rw [Tree.depth_eq_height, hsame]
      exact written.height_draft_le
  | w3c =>
      have ⟨lexemes, hlexemes, hwritten⟩ := W3c.script.exists_written hdrafts
      refine ⟨lexemes, hlexemes, ?_⟩
      intro rule hrule
      have ⟨written, span, hsame, hspan, _, hfits⟩ := hwritten rule hrule
      refine ⟨span, hspan, ?_⟩
      rw [Tree.depth_eq_height, hsame]
      exact written.height_draft_le hfits
  | iso =>
      have ⟨lexemes, hlexemes, hwritten⟩ := Iso.script.exists_written hdrafts
      refine ⟨lexemes, hlexemes, ?_⟩
      intro rule hrule
      have ⟨written, span, hsame, hspan, hin, hfits⟩ := hwritten rule hrule
      refine ⟨span, hspan, ?_⟩
      rw [Tree.depth_eq_height, hsame]
      have hcount : Iso.operatorCount (lexemesIn span lexemes) =
          Iso.operatorCount written.lexemes := congrArg Iso.operatorCount hin
      calc
        written.draft.height ≤ 772 + Iso.operatorCount written.lexemes :=
          written.height_draft_le hfits
        _ = 772 + Iso.operatorCount (lexemesIn span lexemes) := by rw [hcount]

/-- Two groups of operators stand in `a = 'if' b | ('while' | c) | 'do'+ | 'if';`. -/
theorem depth_branched :
    read .iso "a = 'if' b | ('while' | c) | 'do'+ | 'if';" = .ok branchedSet ∧
      ∃ lexemes, (lexicon .iso).lexemes "a = 'if' b | ('while' | c) | 'do'+ | 'if';".toList =
          .ok lexemes ∧
        ∀ rule ∈ branchedSet.rules, ∃ span, rule.label.span = some span ∧
          rule.depth ≤ maxDepth .iso (lexemesIn span lexemes) :=
  ⟨read_branched, depth_of_read read_branched⟩

end Grammar

end GrammarTable
