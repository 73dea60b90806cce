import GrammarTable.Proofs.Grammar.Extent
import GrammarTable.Proofs.Grammar.Leaves
import GrammarTable.Proofs.Grammar.NormalForm
import GrammarTable.Proofs.Tree.Within

/-!
# Where names come from

Each leaf has its name from the lexeme at its span, and each rule from the lexeme in front of
its sign of definition. The other nodes of a rule have the name of the rule.
-/

namespace GrammarTable

open Rule Settings Text Token

/-! ## Parents and children -/

namespace Tree

variable {α β : Type} {tree node : Tree α}

/-- Below the root every tree has a parent. -/
theorem Within.eq_or_exists_parent (h : node.Within tree) :
    node = tree ∨ ∃ parent, Within parent tree ∧ node ∈ parent.children := by
  induction h with
  | root => exact .inl rfl
  | @child label children child hchild hinner ih =>
      right
      cases ih with
      | inl hsame =>
          rw [hsame]
          exact ⟨_, .root, hchild⟩
      | inr hparent =>
          have ⟨parent, hwithin, hmem⟩ := hparent
          exact ⟨parent, .child hchild hwithin, hmem⟩

/-- What holds throughout a relabelled tree holds at each node of it. -/
theorem Throughout.of_within {f : α → β} {p : β → List β → Prop}
    (h : (map f tree).Throughout p) (hnode : node.Within tree) :
    p (f node.label) ((node.children.map Tree.label).map f) := by
  have hlabels : ∀ children : List (Tree α),
      (children.map (map f)).map Tree.label = (children.map Tree.label).map f := by
    intro children
    simp [Function.comp_def]
  induction hnode with
  | root =>
      have ⟨label, children⟩ := node
      rw [map_mk, throughout_mk, hlabels] at h
      exact h.1
  | child hchild hinner ih =>
      rw [map_mk, throughout_mk] at h
      exact ih (h.2 _ (List.mem_map_of_mem hchild))

end Tree

/-! ## Kinds of nodes -/

namespace Rule

variable {dialect : Dialect} {root node : Draft}

theorem Node.Normal.fits (h : root.node.Normal dialect) (hnode : node.Within root) :
    Label.Fits dialect root.node.label.name node.label.toLabel
      ((node.children.map Tree.label).map MarkedLabel.toLabel) :=
  Tree.Throughout.of_within h.throughout hnode

theorem Node.Normal.children_eq_nil (h : root.node.Normal dialect) (hnode : node.Within root)
    (hkind : node.label.kind ∈ Kind.leaves) : node.children = [] := by
  have hholds := (h.fits hnode).holds
  have hnone : (((node.children.map Tree.label).map MarkedLabel.toLabel).map Label.kind) = [] := by
    generalize node.label.toLabel.kind = kind at hkind hholds
    cases kind <;> simp_all [Kind.leaves, Kind.Holds]
  simpa using hnone

/-- Only the root is a rule. -/
theorem Node.Normal.eq_root (h : root.node.Normal dialect) (hnode : node.Within root)
    (hkind : node.label.kind = .rule) : node = root := by
  cases hnode.eq_or_exists_parent with
  | inl hsame => exact hsame
  | inr hparent =>
      have ⟨parent, hwithin, hmem⟩ := hparent
      have hmem' : node.label.toLabel ∈
          (parent.children.map Tree.label).map MarkedLabel.toLabel :=
        List.mem_map_of_mem (List.mem_map_of_mem hmem)
      exact absurd hkind ((h.fits hwithin).not_rule _ hmem')

/-- A leaf over some lexemes stands where one of them does. -/
theorem Fills.exists_lexeme {τ : Type} {value : τ → Option Label} {lexemes : List (Lexeme τ)}
    {forest : List Draft} {draft : Draft} (h : Fills value lexemes forest) (hdraft : draft ∈ forest)
    (hnode : node.Within draft) (hleaf : node.children = []) :
    ∃ lexeme ∈ lexemes, value lexeme.token = some node.label.toLabel ∧
      node.label.span = some lexeme.span := by
  induction h generalizing draft with
  | nil => exact nomatch hdraft
  | skip hnone later ih =>
      have ⟨lexeme, hlexeme, hvalue⟩ := ih hdraft hnode
      exact ⟨lexeme, List.mem_cons_of_mem _ hlexeme, hvalue⟩
  | @leaf first rest forest label hvalue hspan later ih =>
      cases List.mem_cons.mp hdraft with
      | inl hfirst =>
          rw [hfirst] at hnode
          cases hnode with
          | root => exact ⟨first, List.mem_cons_self, hvalue, hspan⟩
          | child hchild hinner => exact nomatch hchild
      | inr hlater =>
          have ⟨lexeme, hlexeme, hvalue⟩ := ih hlater hnode
          exact ⟨lexeme, List.mem_cons_of_mem _ hlexeme, hvalue⟩
  | @node inner rest children forest label start stop hspan hstart hstop hne below later
      ihBelow ihLater =>
      cases List.mem_cons.mp hdraft with
      | inl hfirst =>
          rw [hfirst] at hnode
          cases hnode with
          | root => exact absurd hleaf hne
          | child hchild hinner =>
              have ⟨lexeme, hlexeme, hvalue⟩ := ihBelow hchild hinner
              exact ⟨lexeme, List.mem_append_left rest hlexeme, hvalue⟩
      | inr hlater =>
          have ⟨lexeme, hlexeme, hvalue⟩ := ihLater hlater hnode
          exact ⟨lexeme, List.mem_append_right inner hlexeme, hvalue⟩

end Rule

/-! ## Names and lexemes -/

namespace Grammar

variable {dialect : Dialect} {σ δ : Type} {script : Script (Sign dialect) σ δ}
  {headOf bodyOf : δ → List (Lexeme (Sign dialect))} {text : List Char} {found : List Draft}

def namedKinds : List Kind :=
  .rule :: Kind.leaves

/-- The lexeme that a node has its name from: a leaf stands where the lexeme does, and in the
lexemes of a rule it stands in front of the sign of definition. -/
inductive NamedBy (dialect : Dialect) (lexemes : List (Lexeme (Sign dialect))) (node : Draft)
    (origin : Lexeme (Sign dialect)) : Prop where
  | leaf (hkind : node.label.kind ∈ Kind.leaves) (hmem : origin ∈ lexemes)
      (hvalue : valueOf dialect origin.token = some node.label.toLabel)
      (hspan : node.label.span = some origin.span)
  | rule {span : Span} {define : Lexeme (Sign dialect)} (hkind : node.label.kind = .rule)
      (hspan : node.label.span = some span) (hdefine : define.token = defineSign dialect)
      (hfront : [origin, define] <:+: lexemesIn span lexemes)
      (hvalue : valueOf dialect origin.token = some ⟨.nonTerminal, node.label.name⟩)

theorem Script.Heads.exists_origin (heads : script.Heads headOf bodyOf)
    (hscheme : script.scheme = Grammar.scheme dialect) (h : script.rulesOf text = .ok found)
    (hnormal : ∀ rule ∈ found, rule.node.Normal dialect) :
    ∃ lexemes, (Grammar.scheme dialect).lexicon.lexemes text = .ok lexemes ∧
      ∀ rule ∈ found, ∀ node : Draft, node.Within rule → node.label.kind ∈ namedKinds →
        ∃ origin, NamedBy dialect lexemes node origin := by
  have ⟨lexemes, hlexemes, hwritten⟩ := script.exists_written h
  refine ⟨lexemes, hscheme ▸ hlexemes, ?_⟩
  intro rule hrule node hnode hkind
  have ⟨written, span, hsame, hspan, hin, _⟩ := hwritten rule hrule
  rw [heads.leaves.lexemes_eq] at hin
  have hnormal := hnormal rule hrule
  cases List.mem_cons.mp hkind with
  | inl hroot =>
      have heq : node = rule := hnormal.eq_root hnode hroot
      have ⟨number?, name, define, hhead, _, hvalue, hdefine⟩ := heads.head_eq written
      have hfront : [name, define] <:+: lexemesIn span lexemes := by
        rw [hin, hhead]
        exact ⟨number?.toList, bodyOf written, rfl⟩
      rw [heq]
      rw [heq] at hroot
      rw [← hsame] at hvalue
      exact ⟨name, .rule hroot hspan hdefine hfront hvalue⟩
  | inr hleaf =>
      have hnone : node.children = [] := hnormal.children_eq_nil hnode hleaf
      have hbelow : ∃ child ∈ rule.children, node.Within child := by
        cases hnode with
        | root =>
            rw [hsame] at hnone
            exact absurd hnone (heads.leaves.children_ne_nil written)
        | child hchild hinner => exact ⟨_, hchild, hinner⟩
      have ⟨child, hchild, hinner⟩ := hbelow
      rw [hsame] at hchild
      have ⟨origin, horigin, hvalue, hplace⟩ :=
        (heads.leaves.fills written).exists_lexeme hchild hinner hnone
      have hmem : origin ∈ lexemesIn span lexemes := by
        rw [hin]
        exact List.mem_append_right _ horigin
      exact ⟨origin, .leaf hleaf (List.mem_of_mem_filter hmem) hvalue hplace⟩

/-- Every name of a text comes from one of its lexemes. -/
theorem exists_origin_of_draftsOf (h : draftsOf dialect text = .ok found) :
    ∃ lexemes, (scheme dialect).lexicon.lexemes text = .ok lexemes ∧
      ∀ rule ∈ found, ∀ node : Draft, node.Within rule → node.label.kind ∈ namedKinds →
        ∃ origin, NamedBy dialect lexemes node origin := by
  have hnormal := normal_of_draftsOf h
  cases dialect with
  | bnf => exact heads_bnf.exists_origin rfl h hnormal
  | w3c => exact heads_w3c.exists_origin rfl h hnormal
  | iso => exact heads_iso.exists_origin rfl h hnormal

theorem NamedBy.mem {lexemes : List (Lexeme (Sign dialect))} {node : Draft}
    {origin : Lexeme (Sign dialect)} (h : NamedBy dialect lexemes node origin) :
    origin ∈ lexemes := by
  cases h with
  | leaf hkind hmem hvalue hspan => exact hmem
  | rule hkind hspan hdefine hfront hvalue =>
      exact List.mem_of_mem_filter (hfront.subset List.mem_cons_self)

end Grammar

end GrammarTable
