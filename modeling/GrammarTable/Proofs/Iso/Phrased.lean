import GrammarTable.Proofs.Iso.Spelling
import GrammarTable.Proofs.Iso.Translation

/-!
# Phrases for rules in normal form

The words of a part of a rule are those of a phrase that stands for this part. Which phrase
depends on the kind of the part: a choice is an expression, a sequence a term, and everything
else a factor. Since a rule in normal form has no sequence in a sequence and no choice in a
choice or a sequence, each part stands where such a phrase may stand.
-/

namespace GrammarTable.Iso

open Plain Rule Settings Text Token

variable {owner : String} {node child : Node} {parts : List Node}

/-- The words of a node are these lexemes, and it is this draft without its marks. -/
structure Says (node : Node) (lexemes : List (Lexeme Sign)) (draft : Draft) : Prop where
  lexemes_eq : lexemes = (words node).map Word.lexeme
  node_eq : draft.node = node

theorem Says.kind_eq {lexemes : List (Lexeme Sign)} {draft : Draft}
    (h : Says node lexemes draft) : draft.label.kind = node.label.kind := by
  rw [← h.node_eq, Draft.label_node]

/-- Some phrase stands for a node, wherever the kind of the node allows it. -/
structure Phrased (owner : String) (node : Node) : Prop where
  exists_factor : node.label.kind ∉ [Kind.rule, .sequence, .choice] →
    ∃ factor : Factor, Says node factor.lexemes (factor.translation owner)
  exists_term : node.label.kind ∉ [Kind.rule, .choice] →
    ∃ term : Term, Says node term.lexemes (term.translation owner)
  exists_expression : node.label.kind ≠ .rule →
    ∃ expression : Expression, Says node expression.lexemes (expression.translation owner)

/-! ## Factors -/

theorem Phrased.of_factor (factor : Factor)
    (h : Says node factor.lexemes (factor.translation owner)) : Phrased owner node where
  exists_factor _ := ⟨factor, h⟩
  exists_term _ := ⟨.one factor, by rwa [Term.lexemes, Term.translation]⟩
  exists_expression _ :=
    ⟨.one (.one factor), by
      rwa [Expression.lexemes, Expression.translation, Term.lexemes, Term.translation]⟩

theorem phrased_terminal (text : String) : Phrased owner ⟨⟨.terminal, text⟩, []⟩ := by
  let word : Word Sign := manner.literal (quoteFor text) text
  refine .of_factor (.literal (word.lexeme.as text)) ⟨?_, ?_⟩
  · rw [words_mk]
    rfl
  · exact Draft.node_mk _ _

theorem phrased_nonTerminal (name : String) : Phrased owner ⟨⟨.nonTerminal, name⟩, []⟩ := by
  let word : Word Sign := manner.name name
  refine .of_factor (.reference (word.lexeme.as name)) ⟨?_, ?_⟩
  · rw [words_mk]
    rfl
  · exact Draft.node_mk _ _

theorem words_bracketed {bracket : Bracket}
    (hneeds : NeedsBrackets ⟨bracket.kind, owner⟩ [child.label]) :
    words ⟨⟨bracket.kind, owner⟩, [child]⟩ = bracketed bracket (words child) := by
  have hflat : [words child].flatten = words child := List.flatten_singleton
  rw [words_mk, List.map_singleton, List.map_singleton]
  cases bracket with
  | round => exact congrArg (bracketed .round) hflat
  | square =>
      refine (if_pos hneeds).trans ?_
      exact congrArg (bracketed .square) hflat
  | curly =>
      refine (if_pos hneeds).trans ?_
      exact congrArg (bracketed .curly) hflat

theorem phrased_bracketed (bracket : Bracket) (h : Phrased owner child)
    (hkind : child.label.kind ≠ .rule)
    (hneeds : NeedsBrackets ⟨bracket.kind, owner⟩ [child.label]) :
    Phrased owner ⟨⟨bracket.kind, owner⟩, [child]⟩ := by
  obtain ⟨body, hlexemes, hnode⟩ := h.exists_expression hkind
  let opening : Lexeme Unit := (openingWord bracket).lexeme.as ()
  let closing : Lexeme Unit := (closingWord bracket).lexeme.as ()
  refine .of_factor (.bracketed bracket opening body closing) ⟨?_, ?_⟩
  · rw [words_bracketed hneeds, Factor.lexemes, hlexemes, bracketed, List.map_cons,
      List.map_append]
    rfl
  · rw [Factor.translation_bracketed, Draft.node_composite, List.map_singleton, hnode]

theorem words_repeated {operator : Operator}
    (hfree : ¬ NeedsBrackets ⟨operator.kind, owner⟩ [child.label]) :
    words ⟨⟨operator.kind, owner⟩, [child]⟩ = repeated operator (words child) := by
  have hflat : [words child].flatten = words child := List.flatten_singleton
  rw [words_mk, List.map_singleton, List.map_singleton]
  cases operator with
  | question =>
      refine (if_neg hfree).trans ?_
      exact congrArg (repeated .question) hflat
  | star =>
      refine (if_neg hfree).trans ?_
      exact congrArg (repeated .star) hflat
  | plus => exact congrArg (repeated .plus) hflat

theorem phrased_repeated (operator : Operator) (h : Phrased owner child)
    (hkind : child.label.kind ∉ [Kind.rule, .sequence, .choice])
    (hfree : ¬ NeedsBrackets ⟨operator.kind, owner⟩ [child.label]) :
    Phrased owner ⟨⟨operator.kind, owner⟩, [child]⟩ := by
  obtain ⟨factor, hlexemes, hnode⟩ := h.exists_factor hkind
  let sign : Lexeme Operator := (operatorWord operator).lexeme.as operator
  refine .of_factor (.repeated factor sign) ⟨?_, ?_⟩
  · rw [words_repeated hfree, Factor.lexemes, hlexemes, repeated, List.map_append]
    rfl
  · rw [Factor.translation_repeated, Draft.node_composite, List.map_singleton, hnode]
    rfl

/-! ## Terms -/

/-- Factors go behind a term one by one. -/
theorem Term.exists_onto (before : Term)
    (h : ∀ part ∈ parts, ∃ factor : Factor,
      Says part factor.lexemes (factor.translation owner)) :
    ∃ term : Term,
      term.lexemes = before.lexemes ++ (parts.map words).flatten.map Word.lexeme ∧
      (term.items owner).map Draft.node = (before.items owner).map Draft.node ++ parts := by
  induction parts generalizing before with
  | nil => exact ⟨before, (List.append_nil _).symm, (List.append_nil _).symm⟩
  | cons first rest ih =>
      obtain ⟨⟨factor, hlexemes, hnode⟩, hrest⟩ := List.forall_mem_cons.mp h
      obtain ⟨term, hterm, hitems⟩ := ih (.snoc before none factor) hrest
      refine ⟨term, ?_, ?_⟩
      · rw [hterm, Term.lexemes, hlexemes, List.map_cons, List.flatten_cons, List.map_append,
          List.append_assoc]
        rfl
      · rw [hitems, Term.items, List.map_append, List.append_assoc, List.map_singleton, hnode]
        rfl

theorem exists_term (hlength : 2 ≤ parts.length)
    (h : ∀ part ∈ parts, ∃ factor : Factor,
      Says part factor.lexemes (factor.translation owner)) :
    ∃ term : Term, Says ⟨⟨.sequence, owner⟩, parts⟩ term.lexemes (term.translation owner) := by
  cases parts with
  | nil => exact absurd hlength (by simp)
  | cons first rest =>
      obtain ⟨⟨factor, hlexemes, hnode⟩, hrest⟩ := List.forall_mem_cons.mp h
      obtain ⟨term, hterm, hitems⟩ := Term.exists_onto (.one factor) hrest
      rw [Term.items, List.map_singleton, hnode, List.singleton_append] at hitems
      refine ⟨term, ?_, ?_⟩
      · rw [hterm, Term.lexemes, hlexemes, words_mk, ← List.map_append]
        rfl
      · have hitemsLength : 2 ≤ (term.items owner).length := by
          rwa [← List.length_map (f := Draft.node), hitems]
        rw [← term.sequence_items, Draft.node_sequence hitemsLength, hitems]

/-! ## Expressions -/

/-- Terms go behind an expression one by one, each behind a bar. -/
theorem Expression.exists_onto (before : Expression) {part : Node}
    (h : ∀ other ∈ part :: parts, ∃ term : Term,
      Says other term.lexemes (term.translation owner)) :
    ∃ expression : Expression,
      expression.lexemes = before.lexemes ++ manner.bar.lexeme ::
        ([manner.bar].intercalate ((part :: parts).map words)).map Word.lexeme ∧
      (expression.alternatives owner).map Draft.node =
        (before.alternatives owner).map Draft.node ++ part :: parts := by
  induction parts generalizing before part with
  | nil =>
      obtain ⟨term, hlexemes, hnode⟩ := h part List.mem_cons_self
      refine ⟨.or before (manner.bar.lexeme.as ()) term, ?_, ?_⟩
      · rw [Expression.lexemes, hlexemes, List.map_singleton, List.intercalate_singleton]
        rfl
      · rw [Expression.alternatives, List.map_append, List.map_singleton, hnode]
  | cons next later ih =>
      obtain ⟨⟨term, hlexemes, hnode⟩, hrest⟩ := List.forall_mem_cons.mp h
      obtain ⟨expression, hexpression, halternatives⟩ :=
        ih (.or before (manner.bar.lexeme.as ()) term) hrest
      refine ⟨expression, ?_, ?_⟩
      · rw [hexpression, Expression.lexemes, hlexemes, List.map_cons (l := next :: later),
          List.map_cons (l := later), List.intercalate_cons_cons, List.map_append,
          List.map_append, List.append_assoc, List.append_assoc]
        rfl
      · rw [halternatives, Expression.alternatives, List.map_append, List.append_assoc,
          List.map_singleton, hnode]
        rfl

theorem exists_expression (hlength : 2 ≤ parts.length)
    (h : ∀ part ∈ parts, ∃ term : Term, Says part term.lexemes (term.translation owner)) :
    ∃ expression : Expression,
      Says ⟨⟨.choice, owner⟩, parts⟩ expression.lexemes (expression.translation owner) := by
  match parts with
  | first :: second :: later =>
      obtain ⟨⟨term, hlexemes, hnode⟩, hrest⟩ := List.forall_mem_cons.mp h
      obtain ⟨expression, hexpression, halternatives⟩ := Expression.exists_onto (.one term) hrest
      rw [Expression.alternatives, List.map_singleton, hnode, List.singleton_append]
        at halternatives
      refine ⟨expression, ?_, ?_⟩
      · rw [hexpression, Expression.lexemes, hlexemes, words_mk]
        simp only [spell, List.map_cons, List.intercalate_cons_cons, List.map_append,
          List.append_assoc]
        rfl
      · have hseveral : 2 ≤ (expression.alternatives owner).length := by
          rwa [← List.length_map (f := Draft.node), halternatives]
        rw [← expression.choice_alternatives, Draft.node_choice hseveral, halternatives]

/-! ## Every part -/

theorem phrased_sequence (hlength : 2 ≤ parts.length)
    (h : ∀ part ∈ parts, Phrased owner part)
    (hkinds : ∀ part ∈ parts, part.label.kind ∉ [Kind.rule, .sequence, .choice]) :
    Phrased owner ⟨⟨.sequence, owner⟩, parts⟩ := by
  have hterm : ∃ term : Term,
      Says ⟨⟨.sequence, owner⟩, parts⟩ term.lexemes (term.translation owner) :=
    exists_term hlength fun part hpart => (h part hpart).exists_factor (hkinds part hpart)
  refine ⟨fun hkind => absurd (by simp) hkind, fun _ => hterm, fun _ => ?_⟩
  obtain ⟨term, hrow⟩ := hterm
  exact ⟨.one term, by rwa [Expression.lexemes, Expression.translation]⟩

theorem phrased_choice (hlength : 2 ≤ parts.length)
    (h : ∀ part ∈ parts, Phrased owner part)
    (hkinds : ∀ part ∈ parts, part.label.kind ∉ [Kind.rule, .choice]) :
    Phrased owner ⟨⟨.choice, owner⟩, parts⟩ := by
  have hexpression : ∃ expression : Expression,
      Says ⟨⟨.choice, owner⟩, parts⟩ expression.lexemes (expression.translation owner) :=
    exists_expression hlength fun part hpart => (h part hpart).exists_term (hkinds part hpart)
  exact ⟨fun hkind => absurd (by simp) hkind, fun hkind => absurd (by simp) hkind,
    fun _ => hexpression⟩

/-- Around one part stand brackets, or an operator stands behind it. -/
theorem phrased_around {kind : Kind}
    (hkind : kind ∈ [Kind.group, .optional, .repetition, .repetition1]) (h : Phrased owner child)
    (hrule : child.label.kind ≠ .rule)
    (hplus : kind = .repetition1 → child.label.kind ∉ [Kind.sequence, .choice]) :
    Phrased owner ⟨⟨kind, owner⟩, [child]⟩ := by
  by_cases hneeds : NeedsBrackets ⟨kind, owner⟩ [child.label]
  · cases kind <;> simp at hkind
    case group => exact phrased_bracketed .round h hrule hneeds
    case optional => exact phrased_bracketed .square h hrule hneeds
    case repetition => exact phrased_bracketed .curly h hrule hneeds
    case repetition1 => simp [NeedsBrackets] at hneeds
  · have hfactor : kind ∈ [Kind.optional, .repetition] →
        child.label.kind ∉ [Kind.rule, .sequence, .choice] := by
      intro hmem hchild
      rcases List.mem_cons.mp hchild with hsame | hparts
      · exact hrule hsame
      · exact hneeds (.inr ⟨hmem, child.label, List.mem_singleton_self _, hparts⟩)
    cases kind <;> simp at hkind
    case group => exact absurd (.inl rfl) hneeds
    case optional => exact phrased_repeated .question h (hfactor (by simp)) hneeds
    case repetition => exact phrased_repeated .star h (hfactor (by simp)) hneeds
    case repetition1 =>
      refine phrased_repeated .plus h (fun hchild => ?_) hneeds
      rcases List.mem_cons.mp hchild with hsame | hparts
      · exact hrule hsame
      · exact hplus rfl hparts

theorem phrased_of_throughout (h : node.Throughout (Label.Fits .iso owner)) :
    Phrased owner node := by
  induction node using Tree.child_induction with
  | mk label children ih =>
      obtain ⟨kind, name⟩ := label
      obtain ⟨⟨hholds, ⟨hoccurs, hplus⟩, hbarred, hname⟩, hbelow⟩ := Tree.throughout_mk.mp h
      simp only [List.map_map, List.forall_mem_map, Function.comp_apply] at hholds hplus hbarred
      have hchildren : ∀ child ∈ children, Phrased owner child :=
        fun child hchild => ih child hchild (hbelow child hchild)
      have hkinds : ∀ barred, (∀ child ∈ children, child.label.kind ∉ barred) →
          ∀ child ∈ children, child.label.kind ∉ Kind.rule :: barred := by
        intro barred hall child hchild hmem
        exact (List.mem_cons.mp hmem).elim (hbarred child hchild) (hall child hchild)
      have haround : kind ∈ [Kind.group, .optional, .repetition, .repetition1] →
          children.length = 1 → Phrased owner ⟨⟨kind, owner⟩, children⟩ := by
        intro hkind hlength
        obtain ⟨child, rfl⟩ := List.length_eq_one_iff.mp hlength
        have hmem : child ∈ [child] := List.mem_singleton_self child
        exact phrased_around hkind (hchildren child hmem) (hbarred child hmem)
          fun hsame => hplus hsame child hmem
      cases kind <;> simp only [Kind.Holds, List.length_map, List.forall_mem_map,
        Function.comp_apply, List.map_eq_nil_iff] at hholds
      case rule =>
        exact ⟨fun hkind => absurd List.mem_cons_self hkind,
          fun hkind => absurd List.mem_cons_self hkind, fun hkind => absurd rfl hkind⟩
      case pattern => exact absurd List.mem_cons_self hoccurs
      case exclusion => exact absurd (List.mem_cons_of_mem _ List.mem_cons_self) hoccurs
      case terminal =>
        subst hholds
        exact phrased_terminal name
      case nonTerminal =>
        subst hholds
        exact phrased_nonTerminal name
      all_goals obtain rfl : name = owner := hname (by simp [Kind.leaves])
      case sequence => exact phrased_sequence hholds.1 hchildren (hkinds _ hholds.2)
      case choice =>
        refine phrased_choice hholds.1 hchildren (hkinds _ fun child hchild hmem => ?_)
        exact hholds.2 child hchild (List.mem_singleton.mp hmem)
      case group => exact haround (by decide) hholds
      case optional => exact haround (by decide) hholds
      case repetition => exact haround (by decide) hholds
      case repetition1 => exact haround (by decide) hholds

/-! ## Rules -/

theorem node_rule_body {body : Expression} (span : Span)
    (h : Says node body.lexemes (body.translation owner)) :
    (Draft.rule owner span (body.draft owner)).node =
      ⟨⟨.rule, owner⟩, if node.label.kind = .sequence then node.children else [node]⟩ := by
  rw [Draft.node_rule, Expression.draft_eq, h.kind_eq, h.node_eq]

/-- A rule holds its only child, or its children as the sequence that it takes in. -/
theorem exists_body (hne : parts ≠ []) (h : ∀ part ∈ parts, Phrased owner part)
    (hrules : ∀ part ∈ parts, part.label.kind ≠ .rule)
    (hone : parts.length = 1 → ∀ part ∈ parts, part.label.kind ≠ .sequence)
    (hseveral : 2 ≤ parts.length → ∀ part ∈ parts, part.label.kind ∉ [Kind.sequence, .choice]) :
    ∃ body : Expression, body.lexemes = (parts.map words).flatten.map Word.lexeme ∧
      ∀ span, (Draft.rule owner span (body.draft owner)).node = ⟨⟨.rule, owner⟩, parts⟩ := by
  match parts with
  | [] => exact absurd rfl hne
  | [part] =>
      have hkind : part.label.kind ≠ .sequence := hone rfl part List.mem_cons_self
      obtain ⟨body, hbody⟩ := (h part List.mem_cons_self).exists_expression
        (hrules part List.mem_cons_self)
      refine ⟨body, ?_, fun span => ?_⟩
      · rw [hbody.lexemes_eq, List.map_singleton, List.flatten_singleton]
      · rw [node_rule_body span hbody, if_neg hkind]
  | first :: second :: later =>
      have hlength : 2 ≤ (first :: second :: later).length := by simp
      have hkinds : ∀ part ∈ first :: second :: later,
          part.label.kind ∉ [Kind.rule, .sequence, .choice] := by
        intro part hpart hmem
        exact (List.mem_cons.mp hmem).elim (hrules part hpart) (hseveral hlength part hpart)
      have hrow : Phrased owner ⟨⟨.sequence, owner⟩, first :: second :: later⟩ :=
        phrased_sequence hlength h hkinds
      obtain ⟨body, hbody⟩ := hrow.exists_expression nofun
      refine ⟨body, ?_, fun span => ?_⟩
      · rw [hbody.lexemes_eq, words_mk]
        rfl
      · rw [node_rule_body span hbody, if_pos rfl]

/-- The words of a rule are those of a declaration that stands for it. -/
theorem exists_declaration {root : Node} (h : root.Normal .iso) :
    ∃ declaration : Declaration, Says root declaration.lexemes declaration.draft := by
  obtain ⟨⟨kind, name⟩, children⟩ := root
  obtain ⟨rfl, hall⟩ := h
  obtain ⟨⟨hholds, -, hbarred, -⟩, hbelow⟩ := Tree.throughout_mk.mp hall
  simp only [Kind.Holds, List.map_map, List.length_map, List.forall_mem_map,
    Function.comp_apply, ne_eq, List.map_eq_nil_iff] at hholds hbarred
  obtain ⟨body, hlexemes, hnode⟩ := exists_body hholds.1
    (fun child hchild => phrased_of_throughout (hbelow child hchild)) hbarred hholds.2.1
    hholds.2.2
  let semicolon : Word Sign := ⟨.semicolon, [';']⟩
  refine ⟨⟨(manner.name name).lexeme.as name, manner.define.lexeme.as (), body,
    semicolon.lexeme.as ()⟩, ?_, hnode _⟩
  rw [Declaration.lexemes, hlexemes, words_mk]
  simp only [spell, List.map_cons, List.map_append]
  rfl

end GrammarTable.Iso
