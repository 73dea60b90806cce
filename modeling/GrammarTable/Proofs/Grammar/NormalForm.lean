import GrammarTable.Proofs.Bnf.NormalForm
import GrammarTable.Proofs.Grammar.Collected
import GrammarTable.Proofs.Grammar.Script
import GrammarTable.Proofs.Iso.NormalForm
import GrammarTable.Proofs.W3c.NormalForm

/-!
# Grammars are read into normal form

Every rule that a text is read into is in the normal form of its dialect.
-/

namespace GrammarTable.Grammar

open Rule Settings Token

theorem normal_of_draftsOf {dialect : Dialect} {text : List Char} {found : List Draft}
    (h : draftsOf dialect text = .ok found) : ∀ rule ∈ found, rule.node.Normal dialect :=
  forall_of_draftsOf (p := fun dialect rule => rule.node.Normal dialect)
    Bnf.Declaration.normal W3c.Declaration.normal Iso.Declaration.normal h

/-- What a grammar is read into is in normal form. -/
theorem normal_of_read {dialect : Dialect} {source : String} {set : RuleSet}
    (h : read dialect source = .ok set) : ∀ root ∈ set.nodes, root.Normal dialect := by
  obtain ⟨hdrafts, -⟩ := read_eq_ok_iff_draftsOf.mp h
  rw [RuleSet.nodes, List.forall_mem_map]
  exact normal_of_draftsOf hdrafts

/-- The lexemes of `a ::= (b | 'c')* - d e`. -/
def starredLexemes : List (Lexeme W3c.Sign) :=
  [⟨.name "a", "a", ⟨0, 1⟩⟩, ⟨.define, "::=", ⟨2, 5⟩⟩, ⟨.opening, "(", ⟨6, 7⟩⟩,
    ⟨.name "b", "b", ⟨7, 8⟩⟩, ⟨.bar, "|", ⟨9, 10⟩⟩, ⟨.literal "c", "'c'", ⟨11, 14⟩⟩,
    ⟨.closing, ")", ⟨14, 15⟩⟩, ⟨.operator .star, "*", ⟨15, 16⟩⟩, ⟨.minus, "-", ⟨17, 18⟩⟩,
    ⟨.name "d", "d", ⟨19, 20⟩⟩, ⟨.name "e", "e", ⟨21, 22⟩⟩]

theorem lexemes_starred :
    W3c.lexicon.lexemes "a ::= (b | 'c')* - d e".toList = .ok starredLexemes := by
  decide +kernel

def starredSet : RuleSet where
  rules := [.composite .rule "a" ⟨0, 22⟩
    [.composite .exclusion "a" ⟨6, 20⟩
      [.composite .repetition "a" ⟨6, 16⟩
        [.composite .group "a" ⟨6, 15⟩
          [.composite .choice "a" ⟨7, 14⟩
            [.leaf .nonTerminal "b" ⟨7, 8⟩, .markUnique true (.leaf .terminal "c" ⟨11, 14⟩)]]],
        .leaf .nonTerminal "d" ⟨19, 20⟩],
      .leaf .nonTerminal "e" ⟨21, 22⟩]]
  names_nodup := by decide

theorem read_starred : read .w3c "a ::= (b | 'c')* - d e" = .ok starredSet := by
  have hdrafts : draftsOf .w3c "a ::= (b | 'c')* - d e".toList = .ok starredSet.rules :=
    drafts_eq_ok_iff.mpr ⟨_, lexemes_starred, _, rfl, rfl⟩
  exact read_eq_ok_iff_draftsOf.mpr ⟨hdrafts, List.cons_ne_nil _ _⟩

/-- The rule holds its sequence, in which an exclusion of a repetition stands. -/
theorem normal_starred :
    read .w3c "a ::= (b | 'c')* - d e" = .ok starredSet ∧
      ∀ root ∈ starredSet.nodes, root.Normal .w3c :=
  ⟨read_starred, normal_of_read read_starred⟩

end GrammarTable.Grammar
