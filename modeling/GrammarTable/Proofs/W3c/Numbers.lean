import GrammarTable.Proofs.Grammar.Collected
import GrammarTable.Proofs.Rule.Measure
import GrammarTable.Proofs.Rule.Moved
import GrammarTable.Proofs.W3c.Script

/-!
# Rules without numbers

A label in front of a head numbers the rule and says nothing else. Without it the text is
read as before, unless the rule before ends in a label as a further item: that one is the
number of the next rule then.
-/

namespace GrammarTable.W3c

open Grammar Rule Text Token

variable {declarations bare : List Declaration}

/-- Some of the labels in front of the heads are taken away. -/
inductive Unnumbered : List Declaration → List Declaration → Prop where
  | nil : Unnumbered [] []
  | keep (declaration : Declaration) {later bare : List Declaration} :
      Unnumbered later bare → Unnumbered (declaration :: later) (declaration :: bare)
  | drop (declaration : Declaration) {later bare : List Declaration} :
      Unnumbered later bare →
        Unnumbered (declaration :: later) ({ declaration with label? := none } :: bare)

/-! ## What a number does not change -/

theorem Declaration.node_unnumbered (declaration : Declaration) :
    Draft.node { declaration with label? := none : Declaration }.draft =
      Draft.node declaration.draft := by
  obtain ⟨label?, name, define, body⟩ := declaration
  simp only [Declaration.draft, Draft.rule, Draft.composite, Draft.node, Tree.map_mk]

theorem Declaration.nestsWithin_unnumbered {limit? : Option Nat} {depth : Int}
    (declaration : Declaration)
    (h : NestsWithin Sign.nesting limit? depth declaration.lexemes) :
    NestsWithin Sign.nesting limit? depth
      { declaration with label? := none : Declaration }.lexemes := by
  obtain ⟨label?, name, define, body⟩ := declaration
  cases label? with
  | none => exact h
  | some label =>
      have hlevel : (Sign.label label.token).nesting = 0 := rfl
      obtain ⟨-, hbehind⟩ := h
      rwa [Lexeme.token_as, hlevel, Int.add_zero] at hbehind

namespace Unnumbered

theorem names_eq (h : Unnumbered declarations bare) :
    bare.map Declaration.name = declarations.map Declaration.name := by
  induction h with
  | nil => rfl
  | keep declaration later ih => rw [List.map_cons, List.map_cons, ih]
  | drop declaration later ih => rw [List.map_cons, List.map_cons, ih]

theorem nodes_eq (h : Unnumbered declarations bare) :
    bare.map (fun rule => rule.draft.node) = declarations.map fun rule => rule.draft.node := by
  induction h with
  | nil => rfl
  | keep declaration later ih => rw [List.map_cons, List.map_cons, ih]
  | drop declaration later ih =>
      rw [List.map_cons, List.map_cons, ih]
      exact congrArg (· :: _) declaration.node_unnumbered

theorem nestsWithin {limit? : Option Nat} {depth : Int} (h : Unnumbered declarations bare)
    (fits : NestsWithin Sign.nesting limit? depth (yield declarations)) :
    NestsWithin Sign.nesting limit? depth (yield bare) := by
  induction h with
  | nil => exact fits
  | keep declaration later ih =>
      rw [yield, List.flatMap_cons, nestsWithin_append, declaration.depthBehind_lexemes] at fits ⊢
      exact ⟨fits.1, ih fits.2⟩
  | drop declaration later ih =>
      rw [yield, List.flatMap_cons, nestsWithin_append, Declaration.depthBehind_lexemes]
        at fits ⊢
      exact ⟨declaration.nestsWithin_unnumbered fits.1, ih fits.2⟩

end Unnumbered

/-! ## What a handed over label changes -/

theorem Sequence.items_extend (owner : String) (sequence : Sequence) (label : Lexeme String) :
    (sequence.extend label).items owner =
      sequence.items owner ++ [.leaf .pattern label.token label.span] := by
  rw [extend, items, Item.translation, Operand.translation, Primary.translation]

theorem Sequence.size_extend (owner : String) (sequence : Sequence) (label : Lexeme String) :
    (sequence.translation owner).size < ((sequence.extend label).translation owner).size := by
  rw [extend, translation]
  cases sequence with
  | one item =>
      rw [translation, items]
      simp only [Draft.composite, Tree.size, Tree.forestSize, List.singleton_append]
      omega
  | snoc before item =>
      rw [translation, items]
      simp only [Draft.composite, Draft.leaf, Tree.size, Tree.forestSize,
        Tree.forestSize_append, Item.translation, Operand.translation, Primary.translation]
      omega

theorem Declaration.size_extend (declaration : Declaration) (body : Choice)
    (label : Lexeme String) :
    { declaration with body : Declaration }.translation.size <
      { declaration with body := body.extend label : Declaration }.translation.size := by
  cases body with
  | one sequence =>
      simp only [translation, Choice.extend, sequence.items_extend, Draft.composite, Draft.leaf,
        Tree.size, Tree.forestSize, Tree.forestSize_append]
      omega
  | or before bar sequence =>
      have hsequence := sequence.size_extend declaration.name.token label
      simp only [translation, Choice.extend, Choice.translation, Draft.composite, Tree.size,
        Tree.forestSize, Tree.forestSize_append, Draft.forestSize_markAlternatives]
      omega

def nodeCount (declarations : List Declaration) : Nat :=
  Tree.forestSize (declarations.map Declaration.translation)

theorem nodeCount_cons (declaration : Declaration) (later : List Declaration) :
    nodeCount (declaration :: later) = declaration.translation.size + nodeCount later :=
  rfl

theorem Declaration.size_relabel (declaration : Declaration) (label? : Option (Lexeme String)) :
    { declaration with label? : Declaration }.translation.size =
      declaration.translation.size := by
  simp only [translation, Draft.composite, Tree.size]

/-- The rule that hands a label over loses a node, and the other one gains none. -/
theorem nodeCount_handOver (declaration : Declaration) (later : List Declaration) :
    handOver declaration later = declaration :: later ∨
      nodeCount (handOver declaration later) < nodeCount (declaration :: later) := by
  unfold handOver
  split
  · exact .inl rfl
  · rename_i after later
    split
    · rename_i body label _ htrim
      obtain ⟨number?, name, define, body'⟩ := declaration
      obtain rfl := Choice.trim?_eq_some_iff.mp htrim
      have hsize := Declaration.size_extend ⟨number?, name, define, body⟩ body label
      refine .inr ?_
      rw [nodeCount_cons, nodeCount_cons, nodeCount_cons, nodeCount_cons, after.size_relabel]
      exact Nat.add_lt_add_right hsize _
    · exact .inl rfl

theorem nodeCount_settle (declarations : List Declaration) :
    settle declarations = declarations ∨
      nodeCount (settle declarations) < nodeCount declarations := by
  induction declarations with
  | nil => exact .inl rfl
  | cons declaration later ih =>
      have hstep := nodeCount_handOver declaration (settle later)
      rw [settle]
      rcases ih with hsame | hless
      · rwa [hsame] at hstep ⊢
      · have hcons := nodeCount_cons declaration (settle later)
        have hcons' := nodeCount_cons declaration later
        refine .inr ?_
        rcases hstep with hkept | hfewer
        · rw [hkept]
          omega
        · omega

theorem settle_eq_self_iff : settle declarations = declarations ↔ Settled declarations := by
  constructor
  · intro h
    rw [← h]
    exact settled_settle declarations
  · intro h
    exact (settled_settle declarations).eq_of_yield_eq h (yield_settle declarations)

theorem nodeCount_eq_of_nodes {others : List Declaration}
    (h : others.map (fun rule => rule.draft.node) =
      declarations.map fun rule => rule.draft.node) :
    nodeCount others = nodeCount declarations := by
  have hcount : ∀ rules : List Declaration,
      nodeCount rules = Tree.forestSize (rules.map fun rule => rule.draft.node) := by
    intro rules
    rw [nodeCount, ← Tree.forestSize_map fun draft _ => Draft.size_node draft, List.map_map]
    simp only [Function.comp_def, Declaration.draft_eq]
  rw [hcount, hcount, h]

/-- Settling changes what the rules say, unless there is nothing to hand over. -/
theorem nodes_settle_eq_iff :
    (settle declarations).map (fun rule => rule.draft.node) =
        declarations.map (fun rule => rule.draft.node) ↔ Settled declarations := by
  rw [← settle_eq_self_iff]
  constructor
  · intro h
    have hcount := nodeCount_eq_of_nodes h
    rcases nodeCount_settle declarations with hsame | hless
    · exact hsame
    · exact absurd hcount (Nat.ne_of_lt hless)
  · intro h
    rw [h]

/-! ## Where a handed over label goes -/

/-- The first rule keeps its label, its name and its sign of definition. -/
theorem exists_settle_cons (declaration : Declaration) (later : List Declaration) :
    ∃ body rest, settle (declaration :: later) = { declaration with body } :: rest := by
  rw [settle, handOver.eq_def]
  split
  · exact ⟨declaration.body, [], rfl⟩
  · split
    · exact ⟨_, _, rfl⟩
    · exact ⟨declaration.body, _, rfl⟩

/-- A rule in front of others changes none of their bodies. -/
theorem map_body_handOver (declaration : Declaration) (later : List Declaration) :
    (handOver declaration later).tail.map Declaration.body = later.map Declaration.body := by
  unfold handOver
  split
  · rfl
  · split <;> rfl

/-- Nor does it change any label but the one of the first. -/
theorem tail_handOver (declaration : Declaration) (later : List Declaration) :
    (handOver declaration later).tail.tail = later.tail := by
  unfold handOver
  split
  · rfl
  · split <;> rfl

/-- A loose label in front of a rule without a number is no item any more, but that number. -/
theorem settle_of_loose {front later : List Declaration} {before after : Declaration}
    {body : Choice} {label : Lexeme String} (hafter : after.label? = none)
    (hbefore : before.body = body.extend label) :
    ((settle (front ++ before :: after :: later))[front.length]?).map Declaration.body = some body ∧
      ((settle (front ++ before :: after :: later))[front.length + 1]?).map Declaration.label? =
        some (some label) := by
  induction front with
  | nil =>
      have ⟨body', rest, hrest⟩ := exists_settle_cons after later
      have htrim : before.body.trim? = some (body, label) := Choice.trim?_eq_some_iff.mpr hbefore
      have hsettle : settle (before :: after :: later) =
          { before with body } :: { after with body := body', label? := some label } :: rest := by
        rw [settle, hrest, handOver, hafter, htrim]
      rw [List.nil_append, hsettle]
      exact ⟨rfl, rfl⟩
  | cons first front ih =>
      -- The rules behind the first one stand one place further on.
      have hbodies := map_body_handOver first (settle (front ++ before :: after :: later))
      have hlabels := tail_handOver first (settle (front ++ before :: after :: later))
      have hbody := congrArg (fun bodies => bodies[front.length]?) hbodies
      have hlabel := congrArg (fun rules => rules[front.length]?) hlabels
      simp only [List.getElem?_map, List.getElem?_tail] at hbody hlabel
      rw [List.cons_append, settle, List.length_cons, hbody, hlabel]
      exact ih

/-! ## Reading without numbers -/

theorem map_name_draft (declarations : List Declaration) :
    (declarations.map Declaration.draft).map (fun rule => rule.label.name) =
      (declarations.map Declaration.name).map Lexeme.token := by
  rw [List.map_map, List.map_map]
  rfl

/-- Rules can be collected when others of the same names can. -/
theorem exists_collect_of_names {others : List Declaration} {set : RuleSet}
    (h : collect (declarations.map Declaration.draft) = .ok set)
    (hnames : others.map Declaration.name = declarations.map Declaration.name) :
    ∃ next, collect (others.map Declaration.draft) = .ok next ∧ next.names = set.names ∧
      next.rules = others.map Declaration.draft := by
  obtain ⟨hset, hne⟩ := collect_eq_ok_iff.mp h
  have hsame : (others.map Declaration.draft).map (fun rule => rule.label.name) = set.names := by
    rw [RuleSet.names, hset, map_name_draft, map_name_draft, hnames]
  let next : RuleSet := ⟨others.map Declaration.draft, hsame ▸ set.names_nodup⟩
  refine ⟨next, collect_eq_ok_iff.mpr ⟨rfl, ?_⟩, hsame, rfl⟩
  rintro hnil
  obtain rfl := List.map_eq_nil_iff.mp hnil
  exact hne (by simpa using hnames.symm)

/-- Without some of the numbers a grammar is read, settled anew. -/
theorem exists_read_unnumbered {lexemes : List (Lexeme Sign)} {set : RuleSet}
    (hread : (reader (some nestingLimit)).read lexemes = .ok declarations)
    (hset : collect (declarations.map Declaration.draft) = .ok set)
    (hbare : Unnumbered declarations bare) :
    ∃ next, (reader (some nestingLimit)).read (yield bare) = .ok (settle bare) ∧
      collect ((settle bare).map Declaration.draft) = .ok next ∧ next.names = set.names ∧
      (next.nodes = set.nodes ↔ Settled bare) := by
  obtain rfl := yield_of_read hread
  have fits := hbare.nestsWithin (nests.nestsWithin_of_read hread)
  have hnames : (settle bare).map Declaration.name = declarations.map Declaration.name := by
    rw [map_name_settle, hbare.names_eq]
  obtain ⟨next, hnext, hsame, hrules⟩ := exists_collect_of_names hset hnames
  refine ⟨next, read_eq_ok_settle fits rfl, hnext, hsame, ?_⟩
  rw [RuleSet.nodes, RuleSet.nodes, hrules, (collect_eq_ok_iff.mp hset).1, List.map_map,
    List.map_map, ← nodes_settle_eq_iff, hbare.nodes_eq]
  rfl

/-- Without some of the numbers a grammar is read, with the same names. The rules say the same
exactly when none that is left without a number stands behind a label that is a further item.
Such a label is the number of that rule then, and the rule before ends in front of it. -/
theorem read_unnumbered {lexemes : List (Lexeme Sign)} {set : RuleSet}
    (hread : (reader (some nestingLimit)).read lexemes = .ok declarations)
    (hset : collect (declarations.map Declaration.draft) = .ok set)
    (hbare : Unnumbered declarations bare) :
    ∃ rules next, (reader (some nestingLimit)).read (yield bare) = .ok rules ∧
      collect (rules.map Declaration.draft) = .ok next ∧ next.names = set.names ∧
      (next.nodes = set.nodes ↔
        ∀ front before after later, bare = front ++ before :: after :: later →
          after.label? = none → Fixed before.lexemes) ∧
      rules = settle bare ∧
      ∀ front before after later, bare = front ++ before :: after :: later →
        after.label? = none → ¬ Fixed before.lexemes →
          ∃ body label, before.body = body.extend label ∧
            rules[front.length]?.map Declaration.body = some body ∧
            rules[front.length + 1]?.map Declaration.label? = some (some label) := by
  obtain ⟨next, hagain, hnext, hnames, hnodes⟩ := exists_read_unnumbered hread hset hbare
  refine ⟨settle bare, next, hagain, hnext, hnames, ?_, rfl, ?_⟩
  · rw [hnodes, settled_iff_isChain, List.isChain_iff_forall_rel_of_append_cons_cons]
    simp only [ownsLabel_iff, Declaration.fixed_iff]
    exact ⟨fun h front before after later hsplit => h hsplit,
      fun h before after front later hsplit => h front before after later hsplit⟩
  · intro front before after later hsplit hafter hloose
    rw [Declaration.fixed_iff] at hloose
    have ⟨⟨body, label⟩, htrim⟩ := Option.ne_none_iff_exists'.mp hloose
    have hbefore := Choice.trim?_eq_some_iff.mp htrim
    refine ⟨body, label, hbefore, ?_⟩
    rw [hsplit]
    exact settle_of_loose hafter hbefore

/-- The rules `[1] a ::= b` and `[2] c ::= [3]`. The last label is all of the second body. -/
def counted : List Declaration :=
  [{ label? := some ⟨"[1]", "[1]", ⟨0, 3⟩⟩
     name := ⟨"a", "a", ⟨4, 5⟩⟩
     define := ⟨(), "::=", ⟨6, 9⟩⟩
     body := .one (.one (.alone (.plain (.reference ⟨"b", "b", ⟨10, 11⟩⟩)))) },
   { label? := some ⟨"[2]", "[2]", ⟨12, 15⟩⟩
     name := ⟨"c", "c", ⟨16, 17⟩⟩
     define := ⟨(), "::=", ⟨18, 21⟩⟩
     body := .one (.one (.alone (.plain (.label ⟨"[3]", "[3]", ⟨22, 25⟩⟩)))) }]

def countedSet : RuleSet where
  rules := counted.map Declaration.draft
  names_nodup := by decide

theorem read_uncounted :
    ∃ rules next,
      (reader (some nestingLimit)).read
        (yield (counted.map fun rule => { rule with label? := none })) = .ok rules ∧
      collect (rules.map Declaration.draft) = .ok next ∧ next.names = ["a", "c"] ∧
      next.nodes = countedSet.nodes := by
  have hread : (reader (some nestingLimit)).read (yield counted) = .ok counted := rfl
  have hset : collect (counted.map Declaration.draft) = .ok countedSet :=
    collect_eq_ok_iff.mpr ⟨rfl, List.cons_ne_nil _ _⟩
  obtain ⟨rules, next, hagain, hnext, hnames, hnodes, -⟩ :=
    read_unnumbered hread hset (.drop _ (.drop _ .nil))
  refine ⟨rules, next, hagain, hnext, hnames, hnodes.mpr ?_⟩
  rintro (_ | ⟨first, _ | ⟨second, front⟩⟩) before after later hsplit -
  · obtain ⟨rfl, -⟩ := List.cons.inj hsplit
    exact (Declaration.fixed_iff _).mpr rfl
  · simp at hsplit
  · simp at hsplit

/-- The rules `a ::= b [1]` and `[2] c ::= d`, where the first label is a further item. -/
def crowded : List Declaration :=
  [{ label? := none
     name := ⟨"a", "a", ⟨0, 1⟩⟩
     define := ⟨(), "::=", ⟨2, 5⟩⟩
     body := .one (.snoc (.one (.alone (.plain (.reference ⟨"b", "b", ⟨6, 7⟩⟩))))
       (.alone (.plain (.label ⟨"[1]", "[1]", ⟨8, 11⟩⟩)))) },
   { label? := some ⟨"[2]", "[2]", ⟨12, 15⟩⟩
     name := ⟨"c", "c", ⟨16, 17⟩⟩
     define := ⟨(), "::=", ⟨18, 21⟩⟩
     body := .one (.one (.alone (.plain (.reference ⟨"d", "d", ⟨22, 23⟩⟩)))) }]

def crowdedSet : RuleSet where
  rules := crowded.map Declaration.draft
  names_nodup := by decide

def uncrowded : List Declaration :=
  crowded.map fun rule => { rule with label? := none }

/-- Numbers do say something: without the second one the first label is no item any more. -/
theorem nodes_uncrowded_ne :
    ¬ ∀ lexemes declarations bare set,
      (reader (some nestingLimit)).read lexemes = .ok declarations →
        collect (declarations.map Declaration.draft) = .ok set →
          Unnumbered declarations bare →
            ∃ rules next, (reader (some nestingLimit)).read (yield bare) = .ok rules ∧
              collect (rules.map Declaration.draft) = .ok next ∧ next.nodes = set.nodes := by
  intro hclaim
  have hread : (reader (some nestingLimit)).read (yield crowded) = .ok crowded := rfl
  have hset : collect (crowded.map Declaration.draft) = .ok crowdedSet :=
    collect_eq_ok_iff.mpr ⟨rfl, List.cons_ne_nil _ _⟩
  have hbare : Unnumbered crowded uncrowded := .keep _ (.drop _ .nil)
  obtain ⟨rules, next, hagain, hnext, hnodes⟩ := hclaim _ _ _ _ hread hset hbare
  obtain ⟨next', hagain', hnext', -, hsettled⟩ := exists_read_unnumbered hread hset hbare
  obtain rfl := Except.ok.inj (hagain'.symm.trans hagain)
  obtain rfl := Except.ok.inj (hnext'.symm.trans hnext)
  obtain ⟨howns, -⟩ := hsettled.mp hnodes
  exact nomatch ownsLabel_iff.mp howns rfl

end GrammarTable.W3c
