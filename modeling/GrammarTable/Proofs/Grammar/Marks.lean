import GrammarTable.Proofs.Bnf.Translation
import GrammarTable.Proofs.Grammar.Collected
import GrammarTable.Proofs.Grammar.Script
import GrammarTable.Proofs.Iso.Translation
import GrammarTable.Proofs.Rule.Marks
import GrammarTable.Proofs.W3c.Translation

/-!
# Marked alternatives

All notations put their drafts together from leaves. So an alternative is marked exactly when
its leading literal tells it apart from the others, and no other node of a grammar is marked.
Whatever the rules and the patterns stand for, a marked alternative matches only what starts
with its literal.
-/

namespace GrammarTable

open Rule Settings Text Token

variable {owner : String}

/-! ## BNF -/

namespace Bnf

theorem Item.assembled (item : Item) : item.draft.Assembled := by
  cases item <;> exact .leaf _ _ _

theorem Sequence.items_assembled (sequence : Sequence) :
    ∀ part ∈ sequence.items, part.Assembled := by
  induction sequence with
  | one item => exact List.forall_mem_singleton.mpr item.assembled
  | snoc before item ih =>
      exact List.forall_mem_append.mpr ⟨ih, List.forall_mem_singleton.mpr item.assembled⟩

theorem Sequence.assembled (sequence : Sequence) : (sequence.draft owner).Assembled := by
  rw [Sequence.draft, sequence.draftsOnto_eq, List.append_nil]
  exact Draft.assembled_sequence sequence.items_assembled

theorem Body.alternatives_assembled (body : Body) :
    ∀ part ∈ body.alternatives owner, part.Assembled := by
  induction body with
  | one sequence =>
      rw [Body.alternatives, ← sequence.draft_eq]
      exact List.forall_mem_singleton.mpr sequence.assembled
  | or before bar sequence ih =>
      rw [Body.alternatives, ← sequence.draft_eq]
      exact List.forall_mem_append.mpr ⟨ih, List.forall_mem_singleton.mpr sequence.assembled⟩

theorem Declaration.assembled (declaration : Declaration) : declaration.draft.Assembled := by
  refine Draft.assembled_rule ?_
  rw [Body.draft, Body.draftsOnto_eq, List.append_nil]
  exact Draft.assembled_choice declaration.body.alternatives_assembled

end Bnf

/-! ## ISO-style EBNF -/

namespace Iso

theorem Term.assembled_of_items {term : Term} (h : ∀ part ∈ term.items owner, part.Assembled) :
    (term.translation owner).Assembled := by
  rw [← term.sequence_items]
  exact Draft.assembled_sequence h

theorem Expression.assembled_of_alternatives {expression : Expression}
    (h : ∀ part ∈ expression.alternatives owner, part.Assembled) :
    (expression.translation owner).Assembled := by
  rw [← expression.choice_alternatives]
  exact Draft.assembled_choice h

mutual

theorem Factor.assembled (factor : Factor) : (factor.translation owner).Assembled := by
  cases factor with
  | reference name => exact .leaf _ _ _
  | literal text => exact .leaf _ _ _
  | bracketed bracket opening body closing =>
      have hbody : (body.translation owner).Assembled :=
        Expression.assembled_of_alternatives body.alternatives_assembled
      rw [Factor.translation_bracketed]
      exact .composite (by cases bracket <;> decide) (List.forall_mem_singleton.mpr hbody)
  | repeated factor operator =>
      have hfactor : (factor.translation owner).Assembled := factor.assembled
      rw [Factor.translation_repeated]
      exact .composite (by cases operator.token <;> decide) (List.forall_mem_singleton.mpr hfactor)

theorem Term.items_assembled (term : Term) : ∀ part ∈ term.items owner, part.Assembled := by
  cases term with
  | one factor =>
      rw [Term.items]
      exact List.forall_mem_singleton.mpr factor.assembled
  | snoc before comma? factor =>
      rw [Term.items]
      exact List.forall_mem_append.mpr
        ⟨before.items_assembled, List.forall_mem_singleton.mpr factor.assembled⟩

theorem Expression.alternatives_assembled (expression : Expression) :
    ∀ part ∈ expression.alternatives owner, part.Assembled := by
  cases expression with
  | one term =>
      rw [Expression.alternatives]
      exact List.forall_mem_singleton.mpr (Term.assembled_of_items term.items_assembled)
  | or before bar term =>
      rw [Expression.alternatives]
      exact List.forall_mem_append.mpr ⟨before.alternatives_assembled,
        List.forall_mem_singleton.mpr (Term.assembled_of_items term.items_assembled)⟩

end

theorem Declaration.assembled (declaration : Declaration) : declaration.draft.Assembled := by
  refine Draft.assembled_rule ?_
  rw [declaration.body.draft_eq]
  exact Expression.assembled_of_alternatives declaration.body.alternatives_assembled

end Iso

/-! ## W3C EBNF -/

namespace W3c

theorem Sequence.assembled_of_items {sequence : Sequence}
    (h : ∀ part ∈ sequence.items owner, part.Assembled) :
    (sequence.translation owner).Assembled := by
  rw [← sequence.sequence_items]
  exact Draft.assembled_sequence h

theorem Choice.assembled_of_alternatives {choice : Choice}
    (h : ∀ part ∈ choice.alternatives owner, part.Assembled) :
    (choice.translation owner).Assembled := by
  rw [← choice.choice_alternatives]
  exact Draft.assembled_choice h

mutual

theorem Primary.assembled (primary : Primary) : (primary.translation owner).Assembled := by
  cases primary with
  | reference name => exact .leaf _ _ _
  | literal text => exact .leaf _ _ _
  | pattern text => exact .leaf _ _ _
  | label text => exact .leaf _ _ _
  | group opening body closing =>
      have hbody : (body.translation owner).Assembled :=
        Choice.assembled_of_alternatives body.alternatives_assembled
      rw [Primary.translation]
      exact .composite (by decide) (List.forall_mem_singleton.mpr hbody)

theorem Operand.assembled (operand : Operand) : (operand.translation owner).Assembled := by
  cases operand with
  | plain primary =>
      rw [Operand.translation]
      exact primary.assembled
  | repeated primary operator =>
      have hprimary : (primary.translation owner).Assembled := primary.assembled
      rw [Operand.translation_repeated]
      exact .composite (by cases operator.token <;> decide) (List.forall_mem_singleton.mpr hprimary)

theorem Item.assembled (item : Item) : (item.translation owner).Assembled := by
  cases item with
  | alone operand =>
      rw [Item.translation]
      exact operand.assembled
  | difference left minus right =>
      rw [Item.translation]
      exact .composite (by decide)
        (List.forall_mem_cons.mpr ⟨left.assembled, List.forall_mem_singleton.mpr right.assembled⟩)

theorem Sequence.items_assembled (sequence : Sequence) :
    ∀ part ∈ sequence.items owner, part.Assembled := by
  cases sequence with
  | one item =>
      rw [Sequence.items]
      exact List.forall_mem_singleton.mpr item.assembled
  | snoc before item =>
      rw [Sequence.items]
      exact List.forall_mem_append.mpr
        ⟨before.items_assembled, List.forall_mem_singleton.mpr item.assembled⟩

theorem Choice.alternatives_assembled (choice : Choice) :
    ∀ part ∈ choice.alternatives owner, part.Assembled := by
  cases choice with
  | one sequence =>
      rw [Choice.alternatives]
      exact List.forall_mem_singleton.mpr (Sequence.assembled_of_items sequence.items_assembled)
  | or before bar sequence =>
      rw [Choice.alternatives]
      exact List.forall_mem_append.mpr ⟨before.alternatives_assembled,
        List.forall_mem_singleton.mpr (Sequence.assembled_of_items sequence.items_assembled)⟩

end

theorem Declaration.assembled (declaration : Declaration) : declaration.draft.Assembled := by
  refine Draft.assembled_rule ?_
  rw [declaration.body.draft_eq]
  exact Choice.assembled_of_alternatives declaration.body.alternatives_assembled

end W3c

/-! ## Grammars -/

namespace Grammar

theorem assembled_of_draftsOf {dialect : Dialect} {text : List Char} {found : List Draft}
    (h : draftsOf dialect text = .ok found) : ∀ rule ∈ found, rule.Assembled :=
  forall_of_draftsOf (p := fun _ rule => rule.Assembled)
    Bnf.Declaration.assembled W3c.Declaration.assembled Iso.Declaration.assembled h

/-- What is marked in a grammar is an alternative with a leading literal of its own, and all
that it matches starts with that literal. -/
theorem unique_of_read {dialect : Dialect} {source : String} {set : RuleSet}
    (h : read dialect source = .ok set) :
    ∀ rule ∈ set.rules, rule.label.unique = false ∧
      ∀ node : Draft, node.Within rule → node.ChildrenMarked ∧
        ∀ child ∈ node.children, child.label.unique = true →
          ∃ literal, Draft.Leads literal child ∧
            ∀ meaning, ∀ word ∈ Draft.language meaning child, literal.toList <+: word := by
  intro rule hrule
  have hrules : ∀ rule ∈ set.rules, rule.Assembled :=
    assembled_of_draftsOf (read_eq_ok_iff_draftsOf.mp h).1
  refine ⟨(hrules rule hrule).unique_eq, fun node hnode => ?_⟩
  have hmarked : node.ChildrenMarked := (hrules rule hrule).childrenMarked node hnode
  refine ⟨hmarked, fun child hchild hunique => ?_⟩
  obtain ⟨front, back, hsplit⟩ := List.append_of_mem hchild
  obtain ⟨-, literal, hleads, -⟩ := (hmarked front child back hsplit).mp hunique
  exact ⟨literal, hleads, fun _ => hleads.prefix_of_mem⟩

/-- The lexemes of `a = 'if' b | ('while' | c) | 'do'+ | 'if';`. -/
def branchedLexemes : List (Lexeme Iso.Sign) :=
  [⟨.name "a", "a", ⟨0, 1⟩⟩, ⟨.define, "=", ⟨2, 3⟩⟩, ⟨.literal "if", "'if'", ⟨4, 8⟩⟩,
    ⟨.name "b", "b", ⟨9, 10⟩⟩, ⟨.bar, "|", ⟨11, 12⟩⟩, ⟨.opening .round, "(", ⟨13, 14⟩⟩,
    ⟨.literal "while", "'while'", ⟨14, 21⟩⟩, ⟨.bar, "|", ⟨22, 23⟩⟩, ⟨.name "c", "c", ⟨24, 25⟩⟩,
    ⟨.closing .round, ")", ⟨25, 26⟩⟩, ⟨.bar, "|", ⟨27, 28⟩⟩, ⟨.literal "do", "'do'", ⟨29, 33⟩⟩,
    ⟨.operator .plus, "+", ⟨33, 34⟩⟩, ⟨.bar, "|", ⟨35, 36⟩⟩,
    ⟨.literal "if", "'if'", ⟨37, 41⟩⟩, ⟨.semicolon, ";", ⟨41, 42⟩⟩]

theorem lexemes_branched :
    Iso.lexicon.lexemes "a = 'if' b | ('while' | c) | 'do'+ | 'if';".toList =
      .ok branchedLexemes := by
  decide +kernel

def branchedSet : RuleSet where
  rules := [.composite .rule "a" ⟨0, 42⟩
    [.composite .choice "a" ⟨4, 41⟩
      [.composite .sequence "a" ⟨4, 10⟩
        [.leaf .terminal "if" ⟨4, 8⟩, .leaf .nonTerminal "b" ⟨9, 10⟩],
      .composite .group "a" ⟨13, 26⟩
        [.composite .choice "a" ⟨14, 25⟩
          [.markUnique true (.leaf .terminal "while" ⟨14, 21⟩),
            .leaf .nonTerminal "c" ⟨24, 25⟩]],
      .markUnique true
        (.composite .repetition1 "a" ⟨29, 34⟩ [.leaf .terminal "do" ⟨29, 33⟩]),
      .leaf .terminal "if" ⟨37, 41⟩]]]
  names_nodup := by decide

theorem read_branched :
    read .iso "a = 'if' b | ('while' | c) | 'do'+ | 'if';" = .ok branchedSet := by
  have hdrafts : draftsOf .iso "a = 'if' b | ('while' | c) | 'do'+ | 'if';".toList =
      .ok branchedSet.rules :=
    drafts_eq_ok_iff.mpr ⟨_, lexemes_branched, _, rfl, rfl⟩
  exact read_eq_ok_iff_draftsOf.mpr ⟨hdrafts, List.cons_ne_nil _ _⟩

/-- Two alternatives start with `if`, a group starts with either of two things, and only what
starts with `do` or with `while` is told apart. -/
theorem unique_branched :
    read .iso "a = 'if' b | ('while' | c) | 'do'+ | 'if';" = .ok branchedSet ∧
      ∀ rule ∈ branchedSet.rules, rule.label.unique = false ∧
        ∀ node : Draft, node.Within rule → node.ChildrenMarked ∧
          ∀ child ∈ node.children, child.label.unique = true →
            ∃ literal, Draft.Leads literal child ∧
              ∀ meaning, ∀ word ∈ Draft.language meaning child, literal.toList <+: word :=
  ⟨read_branched, unique_of_read read_branched⟩

end Grammar

end GrammarTable
