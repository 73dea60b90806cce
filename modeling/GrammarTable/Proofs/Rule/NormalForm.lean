import GrammarTable.Proofs.Rule.Composite
import GrammarTable.Proofs.Tree.Throughout
import GrammarTable.Settings.Dialect

/-!
# The normal form of rules

Rules are read into trees without needless nodes: a sequence or a choice has several parts,
none of which it could take in, and a rule takes in its sequence. Which kinds of nodes may
stand below which is said node by node, for all dialects and for each of them.
-/

namespace GrammarTable.Rule

open Settings Text

def Kind.leaves : List Kind :=
  [.terminal, .nonTerminal, .pattern]

/-- Which kinds the children of a node may have in any dialect, in their order. -/
def Kind.Holds : Kind → List Kind → Prop
  | .terminal, below => below = []
  | .nonTerminal, below => below = []
  | .pattern, below => below = []
  | .sequence, below => 2 ≤ below.length ∧ ∀ part ∈ below, part ∉ [Kind.sequence, .choice]
  | .choice, below => 2 ≤ below.length ∧ ∀ part ∈ below, part ≠ .choice
  | .optional, below => below.length = 1
  | .repetition, below => below.length = 1
  | .repetition1, below => below.length = 1
  | .group, below => below.length = 1
  | .exclusion, below => below.length = 2
  | .rule, below =>
      below ≠ [] ∧ (below.length = 1 → ∀ part ∈ below, part ≠ .sequence) ∧
        (2 ≤ below.length → ∀ part ∈ below, part ∉ [Kind.sequence, .choice])

/-- Which nodes a dialect has, and what else it says about the kinds of their children. -/
def Kind.Occurs : Dialect → Kind → List Kind → Prop
  | .bnf, kind, _ => kind ∈ [Kind.rule, .terminal, .nonTerminal, .sequence, .choice]
  | .w3c, kind, below =>
      (kind ∈ [Kind.optional, .repetition, .repetition1] →
        ∀ part ∈ below, part ∈ Kind.group :: Kind.leaves) ∧
      (kind = .exclusion → ∀ part ∈ below, part ∉ [Kind.sequence, .choice, .exclusion])
  | .iso, kind, below =>
      kind ∉ [Kind.pattern, .exclusion] ∧
        (kind = .repetition1 → ∀ part ∈ below, part ∉ [Kind.sequence, .choice])

/-- Whether a node may stand in a rule, with the children that it has. Only the root is a
rule, and every node with children carries the name of the rule. -/
structure Label.Fits (dialect : Dialect) (owner : String) (label : Label)
    (below : List Label) : Prop where
  holds : label.kind.Holds (below.map Label.kind)
  occurs : label.kind.Occurs dialect (below.map Label.kind)
  not_rule : ∀ part ∈ below, part.kind ≠ .rule
  name_eq : label.kind ∉ Kind.leaves → label.name = owner

structure Node.Normal (dialect : Dialect) (root : Node) : Prop where
  kind_eq : root.label.kind = .rule
  throughout : root.Throughout (Label.Fits dialect root.label.name)

/-! ## Computing it -/

instance (kind : Kind) (below : List Kind) : Decidable (kind.Holds below) := by
  cases kind <;> dsimp only [Kind.Holds] <;> infer_instance

instance (dialect : Dialect) (kind : Kind) (below : List Kind) :
    Decidable (kind.Occurs dialect below) := by
  cases dialect <;> dsimp only [Kind.Occurs] <;> infer_instance

theorem Label.fits_iff {dialect : Dialect} {owner : String} {label : Label}
    {below : List Label} :
    label.Fits dialect owner below ↔
      label.kind.Holds (below.map Label.kind) ∧
        label.kind.Occurs dialect (below.map Label.kind) ∧
        (∀ part ∈ below, part.kind ≠ .rule) ∧
        (label.kind ∉ Kind.leaves → label.name = owner) :=
  ⟨fun ⟨holds, occurs, hrule, hname⟩ => ⟨holds, occurs, hrule, hname⟩,
    fun ⟨holds, occurs, hrule, hname⟩ => ⟨holds, occurs, hrule, hname⟩⟩

instance (dialect : Dialect) (owner : String) (label : Label) (below : List Label) :
    Decidable (label.Fits dialect owner below) :=
  decidable_of_iff _ Label.fits_iff.symm

theorem Node.normal_iff {dialect : Dialect} {root : Node} :
    Normal dialect root ↔
      root.label.kind = .rule ∧ root.Throughout (Label.Fits dialect root.label.name) :=
  ⟨fun ⟨hkind, hall⟩ => ⟨hkind, hall⟩, fun ⟨hkind, hall⟩ => ⟨hkind, hall⟩⟩

instance (dialect : Dialect) (root : Node) : Decidable (root.Normal dialect) :=
  decidable_of_iff _ Node.normal_iff.symm

/-! ## Drafts in normal form -/

theorem Kind.occurs_of_mem {dialect : Dialect} {kind : Kind} (below : List Kind)
    (h : kind ∈ [Kind.rule, .terminal, .nonTerminal, .sequence, .choice]) :
    kind.Occurs dialect below := by
  cases dialect with
  | bnf => exact h
  | w3c => cases kind <;> simp_all [Kind.Occurs]
  | iso => cases kind <;> simp_all [Kind.Occurs]

namespace Draft

variable {dialect : Dialect} {owner : String} {kind : Kind} {barred : List Kind} {span : Span}
  {parts : List Draft} {draft : Draft}

@[simp] theorem node_mk (label : MarkedLabel) (children : List Draft) :
    node ⟨label, children⟩ = ⟨label.toLabel, children.map node⟩ :=
  Tree.map_mk MarkedLabel.toLabel label children

@[simp] theorem label_node (draft : Draft) : (node draft).label = draft.label.toLabel :=
  Tree.label_map MarkedLabel.toLabel draft

@[simp] theorem node_markUnique (unique : Bool) (draft : Draft) :
    node (markUnique unique draft) = node draft := by
  obtain ⟨label, children⟩ := draft
  rw [markUnique, node_mk, node_mk]

@[simp] theorem map_node_markAlternatives (alternatives : List Draft) :
    (markAlternatives alternatives).map node = alternatives.map node := by
  simp [markAlternatives, Function.comp_def]

@[simp] theorem node_composite (children : List Draft) :
    node (composite kind owner span children) = ⟨⟨kind, owner⟩, children.map node⟩ :=
  node_mk _ _

theorem node_sequence {items : List Draft} (h : 2 ≤ items.length) :
    node (sequence owner span items) = ⟨⟨.sequence, owner⟩, items.map node⟩ := by
  match items with
  | _ :: _ :: _ => exact node_composite _

theorem node_choice {alternatives : List Draft} (h : 2 ≤ alternatives.length) :
    node (choice owner span alternatives) = ⟨⟨.choice, owner⟩, alternatives.map node⟩ := by
  match alternatives with
  | _ :: _ :: _ =>
      rw [choice, node_composite, map_node_markAlternatives]
      exact nofun

theorem node_rule (name : String) (body : Draft) :
    node (rule name span body) =
      ⟨⟨.rule, name⟩,
        if body.label.kind = .sequence then body.node.children else [body.node]⟩ := by
  rw [rule, node_composite]
  by_cases hkind : body.label.kind = .sequence
  · rw [if_pos hkind, if_pos hkind]
    exact congrArg (Tree.mk _) (Tree.children_map MarkedLabel.toLabel body).symm
  · rw [if_neg hkind, if_neg hkind]
    rfl

/-- The draft may stand in a rule of that name, and it is of none of some kinds. -/
structure Stands (dialect : Dialect) (owner : String) (barred : List Kind) (draft : Draft) :
    Prop where
  throughout : draft.node.Throughout (Label.Fits dialect owner)
  kind_notMem : draft.label.kind ∉ barred

theorem Stands.mono {fewer : List Kind} (h : draft.Stands dialect owner barred)
    (hsubset : fewer ⊆ barred) : draft.Stands dialect owner fewer :=
  ⟨h.throughout, fun hmem => h.kind_notMem (hsubset hmem)⟩

/-- A node around parts that may stand in the rule and are no rules themselves. -/
theorem throughout_composite (hholds : kind.Holds (parts.map fun part => part.label.kind))
    (hoccurs : kind.Occurs dialect (parts.map fun part => part.label.kind))
    (hparts : ∀ part ∈ parts, part.Stands dialect owner [.rule]) :
    (composite kind owner span parts).node.Throughout (Label.Fits dialect owner) := by
  have hkinds : ((parts.map node).map Tree.label).map Label.kind =
      parts.map fun part => part.label.kind := by
    simp [Function.comp_def]
  rw [composite, node_mk, Tree.throughout_mk]
  refine ⟨⟨?_, ?_, ?_, fun _ => rfl⟩, ?_⟩
  · rwa [hkinds]
  · rwa [hkinds]
  · simp only [List.map_map, List.forall_mem_map, Function.comp_apply, label_node]
    exact fun part hpart hkind =>
      (hparts part hpart).kind_notMem (List.mem_singleton.mpr hkind)
  · rw [List.forall_mem_map]
    exact fun part hpart => (hparts part hpart).throughout

theorem stands_leaf {name : String} (hleaf : kind ∈ Kind.leaves)
    (hoccurs : kind.Occurs dialect []) (hbarred : kind ∉ barred) :
    (leaf kind name span).Stands dialect owner barred := by
  have hholds : kind.Holds [] := by
    cases kind <;> first | rfl | exact absurd hleaf (by decide)
  refine ⟨?_, hbarred⟩
  rw [leaf, node_mk, Tree.throughout_mk]
  exact ⟨⟨hholds, hoccurs, nofun, fun h => absurd hleaf h⟩, nofun⟩

/-- A node around one part, by brackets or by an operator. -/
theorem stands_around {part : Draft}
    (hkind : kind ∈ [Kind.group, .optional, .repetition, .repetition1])
    (hoccurs : kind.Occurs dialect [part.label.kind]) (hpart : part.Stands dialect owner [.rule])
    (hbarred : kind ∉ barred) :
    (composite kind owner span [part]).Stands dialect owner barred := by
  have hholds : kind.Holds [part.label.kind] := by
    cases kind <;> first | rfl | exact absurd hkind (by decide)
  exact ⟨throughout_composite hholds hoccurs (List.forall_mem_singleton.mpr hpart), hbarred⟩

/-- A sequence of several items. -/
theorem stands_sequence {front : List Draft} {item : Draft} (hfront : front ≠ [])
    (hparts : ∀ part ∈ front ++ [item], part.Stands dialect owner [.rule, .sequence, .choice]) :
    (composite .sequence owner span (front ++ [item])).Stands dialect owner
      [.rule, .choice] := by
  have hlength := List.length_pos_iff.mpr hfront
  refine ⟨throughout_composite ⟨?_, ?_⟩ (Kind.occurs_of_mem _ (by decide)) ?_, by
    simp [composite]⟩
  · rw [List.length_map, List.length_append, List.length_singleton]
    omega
  · rw [List.forall_mem_map]
    exact fun part hpart => ((hparts part hpart).mono (List.subset_cons_self _ _)).kind_notMem
  · exact fun part hpart => (hparts part hpart).mono (by simp)

/-- A choice of several alternatives, marked. -/
theorem stands_choice {front : List Draft} {alternative : Draft} (hfront : front ≠ [])
    (hparts : ∀ part ∈ front ++ [alternative], part.Stands dialect owner [.rule, .choice]) :
    (composite .choice owner span (markAlternatives (front ++ [alternative]))).Stands dialect
      owner [.rule, .sequence] := by
  have hlength := List.length_pos_iff.mpr hfront
  have hnode : (composite .choice owner span (markAlternatives (front ++ [alternative]))).node =
      (composite .choice owner span (front ++ [alternative])).node := by
    rw [composite, composite, node_mk, node_mk, map_node_markAlternatives]
  refine ⟨?_, by simp [composite]⟩
  rw [hnode]
  refine throughout_composite ⟨?_, ?_⟩ (Kind.occurs_of_mem _ (by decide)) ?_
  · rw [List.length_map, List.length_append, List.length_singleton]
    omega
  · rw [List.forall_mem_map]
    intro part hpart hkind
    exact (hparts part hpart).kind_notMem (by simp [hkind])
  · exact fun part hpart => (hparts part hpart).mono (by simp)

/-- A rule of one part that is no sequence, or of several items. -/
theorem normal_rule (hne : parts ≠ [])
    (hparts : ∀ part ∈ parts, part.Stands dialect owner [.rule, .sequence])
    (hseveral : 2 ≤ parts.length → ∀ part ∈ parts, part.label.kind ≠ .choice) :
    (composite .rule owner span parts).node.Normal dialect := by
  have hsequence : ∀ part ∈ parts, part.label.kind ≠ .sequence := by
    intro part hpart hkind
    exact (hparts part hpart).kind_notMem (by simp [hkind])
  refine ⟨by simp [composite], ?_⟩
  have howner : (composite .rule owner span parts).node.label.name = owner := by
    simp [composite]
  rw [howner]
  refine throughout_composite ⟨?_, ?_, ?_⟩ (Kind.occurs_of_mem _ (by decide)) ?_
  · simpa using hne
  · rw [List.forall_mem_map]
    exact fun _ => hsequence
  · rw [List.forall_mem_map, List.length_map]
    intro hlength part hpart
    simp [hsequence part hpart, hseveral hlength part hpart]
  · exact fun part hpart => (hparts part hpart).mono (by simp)

/-- A rule that has taken in its sequence, or holds its only item. -/
theorem normal_rule_of_items (hne : parts ≠ [])
    (hparts : ∀ part ∈ parts, part.Stands dialect owner [.rule, .sequence, .choice]) :
    (composite .rule owner span parts).node.Normal dialect := by
  refine normal_rule hne (fun part hpart => (hparts part hpart).mono (by simp)) ?_
  intro _ part hpart hkind
  exact (hparts part hpart).kind_notMem (by simp [hkind])

/-- A rule that holds a choice. -/
theorem normal_rule_of_alternatives {front : List Draft} {alternative : Draft} {inner : Span}
    (hfront : front ≠ [])
    (hparts : ∀ part ∈ front ++ [alternative], part.Stands dialect owner [.rule, .choice]) :
    (composite .rule owner span
      [composite .choice owner inner (markAlternatives (front ++ [alternative]))]).node.Normal
        dialect := by
  refine normal_rule (List.cons_ne_nil _ _) ?_ fun hlength => absurd hlength (by simp)
  exact List.forall_mem_singleton.mpr (stands_choice hfront hparts)

end Draft

end GrammarTable.Rule
