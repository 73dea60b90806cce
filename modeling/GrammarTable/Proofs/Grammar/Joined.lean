import GrammarTable.Proofs.Grammar.Excerpt
import GrammarTable.Proofs.Grammar.Verdict

/-!
# Joined grammars

Two grammars with a line feed between them are the grammar with the rules of both, unless a
name of the second is taken by the first.
-/

namespace GrammarTable.Grammar

open Rule Settings Text Token

/-- Which token may end a text when which token starts the text behind it. Only the labels of
W3C EBNF matter: without a label in front of it, the next rule would take the last one. -/
def Joins : (dialect : Dialect) → Sign dialect → Sign dialect → Prop
  | .bnf, _, _ => True
  | .w3c, last, first => last.isLabel = false ∨ first.isLabel = true
  | .iso, _, _ => True

theorem draftsOf_join {dialect : Dialect} {front back : List Char} {found others : List Draft}
    {lexemes behind : List (Lexeme (Sign dialect))}
    (hlexemes : (lexicon dialect).lexemes front = .ok lexemes)
    (hbehind : (lexicon dialect).lexemes back = .ok behind)
    (hjoins : ∀ last ∈ lexemes.getLast?, ∀ first ∈ behind.head?,
      Joins dialect last.token first.token)
    (hfront : draftsOf dialect front = .ok found) (hback : draftsOf dialect back = .ok others) :
    draftsOf dialect (front ++ '\n' :: back) =
      .ok (found ++ others.map (Draft.moved (· + (byteLength front + 1)))) := by
  cases dialect with
  | bnf => exact Bnf.script.rulesOf_join hlexemes hbehind hjoins hfront hback
  | w3c => exact W3c.script.rulesOf_join hlexemes hbehind hjoins hfront hback
  | iso => exact Iso.script.rulesOf_join hlexemes hbehind hjoins hfront hback

theorem toList_join (front back : String) :
    (front ++ "\n" ++ back).toList = front.toList ++ '\n' :: back.toList := by
  simp

/-- Some rules of a set go behind another set, moved, unless it has one of their names. -/
theorem exists_insertAll_moved (set : RuleSet) {others : RuleSet} {rules : List Draft}
    {g : Nat → Nat} (hrules : rules.Sublist others.rules)
    (hfree : ∀ rule ∈ rules, rule.label.name ∉ set.names) :
    ∃ next, set.insertAll (rules.map (Draft.moved g)) = .ok next ∧
      next.rules = set.rules ++ rules.map (Draft.moved g) := by
  refine set.exists_insertAll_eq_ok ?_ ?_
  · rw [RuleSet.map_name_moved]
    exact (hrules.map _).nodup others.names_nodup
  · simpa using hfree

/-- Behind a grammar the rules of the other one follow, or the first whose name is taken is
refused where it starts. -/
theorem find_join {dialect : Dialect} {front back : List Char} {set others : RuleSet}
    {g : Nat → Nat} (hset : set.rules ≠ [])
    (h : draftsOf dialect (front ++ '\n' :: back) =
      .ok (set.rules ++ others.rules.map (Draft.moved g))) :
    ((∀ rule ∈ others.rules, rule.label.name ∉ set.names) →
        ∃ whole, find dialect (front ++ '\n' :: back) = .ok whole ∧
          whole.rules = set.rules ++ others.rules.map (Draft.moved g)) ∧
      ∀ before rule after, others.rules = before ++ rule :: after →
        (∀ earlier ∈ before, earlier.label.name ∉ set.names) → rule.label.name ∈ set.names →
          ∀ span, rule.label.span = some span →
            find dialect (front ++ '\n' :: back) =
              .error ⟨g span.start, .duplicate rule.label.name⟩ := by
  have hname : ∀ rule : Draft, (rule.moved g).label.name = rule.label.name := by simp
  rw [find, h]
  constructor
  · intro hfree
    obtain ⟨whole, hwhole, hrules⟩ := exists_insertAll_moved set (.refl others.rules) hfree (g := g)
    refine ⟨whole, ?_, hrules⟩
    simp only [collect_append hset, hwhole]
  · intro before rule after hsplit hfree htaken span hspan
    have hbefore : before.Sublist others.rules := by
      rw [hsplit]
      exact List.sublist_append_left _ _
    obtain ⟨middle, hmiddle, hrules⟩ := exists_insertAll_moved set hbefore hfree (g := g)
    have htaken' : (rule.moved g).label.name ∈ middle.names := by
      rw [hname, RuleSet.names, hrules, List.map_append]
      exact List.mem_append_left _ htaken
    have hinsert : set.insertAll (others.rules.map (Draft.moved g)) = .error (rule.moved g) := by
      refine RuleSet.insertAll_eq_error_iff.mpr ⟨_, after.map (Draft.moved g), ?_, middle,
        hmiddle, htaken'⟩
      rw [hsplit, List.map_append, List.map_cons]
    simp only [collect_append hset, hinsert, hname]
    simp [MarkedLabel.moved, hspan, Span.moved]

/-- Two grammars, one behind the other. -/
theorem read_join {dialect : Dialect} {front back : String} {set others : RuleSet}
    (hfront : read dialect front = .ok set) (hback : read dialect back = .ok others)
    (hjoins : ∀ lexemes behind, (lexicon dialect).lexemes front.toList = .ok lexemes →
      (lexicon dialect).lexemes back.toList = .ok behind →
        ∀ last ∈ lexemes.getLast?, ∀ first ∈ behind.head?,
          Joins dialect last.token first.token) :
    let shift := byteLength front.toList + 1
    ((∀ rule ∈ others.rules, rule.label.name ∉ set.names) →
        ∃ whole, read dialect (front ++ "\n" ++ back) = .ok whole ∧
          whole.rules = set.rules ++ others.rules.map (Draft.moved (· + shift))) ∧
      ∀ before rule after, others.rules = before ++ rule :: after →
        (∀ earlier ∈ before, earlier.label.name ∉ set.names) → rule.label.name ∈ set.names →
          ∃ span, rule.label.span = some span ∧
            read dialect (front ++ "\n" ++ back) =
              .error ⟨dialect,
                Position.ofOffset (front ++ "\n" ++ back).toList (span.start + shift),
                .duplicate rule.label.name⟩ := by
  obtain ⟨hset, hne⟩ := read_eq_ok_iff_draftsOf.mp hfront
  obtain ⟨hothers, -⟩ := read_eq_ok_iff_draftsOf.mp hback
  obtain ⟨lexemes, hlexemes⟩ := exists_lexemes_of_read hfront
  obtain ⟨behind, hbehind⟩ := exists_lexemes_of_read hback
  have hjoin := draftsOf_join hlexemes hbehind (hjoins _ _ hlexemes hbehind) hset hothers
  obtain ⟨haccepted, hrefused⟩ := find_join hne hjoin
  rw [← toList_join] at haccepted hrefused
  constructor
  · intro hfree
    obtain ⟨whole, hwhole, hrules⟩ := haccepted hfree
    exact ⟨whole, read_eq_ok_iff_find.mpr hwhole, hrules⟩
  · intro before rule after hsplit hfree htaken
    have hmem : rule ∈ others.rules := hsplit ▸ List.mem_append_right before List.mem_cons_self
    obtain ⟨span, hspan, -⟩ := exists_draftsOf_slice hothers hmem
    exact ⟨span, hspan, read_of_find_error (hrefused before rule after hsplit hfree htaken _ hspan)⟩

/-- The lexemes of `[1] a ::= b [2]`, the last of which is an item. -/
def numberedLexemes : List (Lexeme W3c.Sign) :=
  [⟨.label "[1]", "[1]", ⟨0, 3⟩⟩, ⟨.name "a", "a", ⟨4, 5⟩⟩, ⟨.define, "::=", ⟨6, 9⟩⟩,
    ⟨.name "b", "b", ⟨10, 11⟩⟩, ⟨.label "[2]", "[2]", ⟨12, 15⟩⟩]

theorem lexemes_numbered :
    W3c.lexicon.lexemes "[1] a ::= b [2]".toList = .ok numberedLexemes := by
  decide +kernel

def numberedSet : RuleSet where
  rules := [.composite .rule "a" ⟨0, 15⟩
    [.leaf .nonTerminal "b" ⟨10, 11⟩, .leaf .pattern "[2]" ⟨12, 15⟩]]
  names_nodup := by decide

theorem read_numbered : read .w3c "[1] a ::= b [2]" = .ok numberedSet := by
  have hdrafts : draftsOf .w3c "[1] a ::= b [2]".toList = .ok numberedSet.rules :=
    drafts_eq_ok_iff.mpr ⟨_, lexemes_numbered, _, rfl, rfl⟩
  exact read_eq_ok_iff_draftsOf.mpr ⟨hdrafts, List.cons_ne_nil _ _⟩

def laterLexemes : List (Lexeme W3c.Sign) :=
  [⟨.label "[3]", "[3]", ⟨0, 3⟩⟩, ⟨.name "c", "c", ⟨4, 5⟩⟩, ⟨.define, "::=", ⟨6, 9⟩⟩,
    ⟨.name "d", "d", ⟨10, 11⟩⟩]

theorem lexemes_later : W3c.lexicon.lexemes "[3] c ::= d".toList = .ok laterLexemes := by
  decide +kernel

def laterSet : RuleSet where
  rules := [.composite .rule "c" ⟨0, 11⟩ [.leaf .nonTerminal "d" ⟨10, 11⟩]]
  names_nodup := by decide

theorem read_later : read .w3c "[3] c ::= d" = .ok laterSet := by
  have hdrafts : draftsOf .w3c "[3] c ::= d".toList = .ok laterSet.rules :=
    drafts_eq_ok_iff.mpr ⟨_, lexemes_later, _, rfl, rfl⟩
  exact read_eq_ok_iff_draftsOf.mpr ⟨hdrafts, List.cons_ne_nil _ _⟩

/-- A rule that ends in a label is followed by a rule with a number, and by itself. -/
theorem read_join_numbered :
    (∃ whole, read .w3c ("[1] a ::= b [2]" ++ "\n" ++ "[3] c ::= d") = .ok whole ∧
      whole.rules = numberedSet.rules ++ laterSet.rules.map (Draft.moved (· + 16))) ∧
      read .w3c ("[1] a ::= b [2]" ++ "\n" ++ "[1] a ::= b [2]") =
        .error ⟨.w3c, ⟨2, 1⟩, .duplicate "a"⟩ := by
  constructor
  · have hjoin := read_join read_numbered read_later fun lexemes behind _ hbehind => ?_
    · exact hjoin.1 (by decide)
    · obtain rfl := Except.ok.inj (lexemes_later.symm.trans hbehind)
      rintro last - first hfirst
      obtain rfl := Option.some.inj hfirst
      exact .inr rfl
  · have hjoin := read_join read_numbered read_numbered fun lexemes behind _ hbehind => ?_
    · obtain ⟨span, hspan, hread⟩ := hjoin.2 [] _ [] rfl nofun (by decide)
      obtain rfl : (⟨0, 15⟩ : Span) = span := Option.some.inj hspan
      have hplace : Position.ofOffset ("[1] a ::= b [2]" ++ "\n" ++ "[1] a ::= b [2]").toList 16 =
          ⟨2, 1⟩ := by
        decide +kernel
      exact hread.trans (congrArg _ (congrArg (Rejection.mk .w3c · _) hplace))
    · obtain rfl := Except.ok.inj (lexemes_numbered.symm.trans hbehind)
      rintro last - first hfirst
      obtain rfl := Option.some.inj hfirst
      exact .inr rfl

end GrammarTable.Grammar
