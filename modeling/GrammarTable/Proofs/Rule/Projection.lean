import GrammarTable.Proofs.Tree.Relabel
import GrammarTable.Proofs.Tree.Throughout
import GrammarTable.Rule.RuleSet

/-!
# Drafts without their marks

The node of a draft is the draft without its marks, node by node. Taking the marks away in
the draft itself changes nothing else, so drafts that differ in their marks only leave the
same node.
-/

namespace GrammarTable.Rule

namespace Draft

/-- The kind and the name of a draft above those of its children, in their order. -/
def projection : Draft → Node :=
  Tree.relabel MarkedLabel.toLabel

/-- The drafts differ in their marks only. -/
def Alike : Draft → Draft → Prop :=
  Tree.Related fun label other => label.toLabel = other.toLabel

theorem projection_mk (label : MarkedLabel) (children : List Draft) :
    projection ⟨label, children⟩ = ⟨⟨label.kind, label.name⟩, children.map projection⟩ :=
  Tree.relabel_mk MarkedLabel.toLabel label children

theorem node_eq_projection (draft : Draft) : draft.node = draft.projection :=
  Tree.map_eq_relabel MarkedLabel.toLabel draft

theorem alike_iff_node_eq {draft other : Draft} : Alike draft other ↔ draft.node = other.node := by
  rw [node_eq_projection, node_eq_projection]
  exact Tree.related_iff MarkedLabel.toLabel MarkedLabel.toLabel draft other

theorem node_bare (draft : Draft) : draft.bare.node = draft.node :=
  Tree.map_map MarkedLabel.bare MarkedLabel.toLabel draft

theorem bare_bare (draft : Draft) : draft.bare.bare = draft.bare :=
  Tree.map_map MarkedLabel.bare MarkedLabel.bare draft

theorem throughout_bare (draft : Draft) :
    draft.bare.Throughout fun label _ => label.isBare = true :=
  Tree.throughout_map (fun _ _ => rfl) draft

end Draft

/-- The node of a draft is its projection, which the marks have no part in, and the nodes of a
set are those of its rules in their order. -/
theorem nodes_of_drafts :
    (∀ (label : MarkedLabel) (children : List Draft), Draft.projection ⟨label, children⟩ =
      ⟨⟨label.kind, label.name⟩, children.map Draft.projection⟩) ∧
    (∀ draft : Draft, draft.node = draft.projection) ∧
    (∀ draft : Draft, Draft.Alike draft.bare draft ∧
      draft.bare.Throughout (fun label _ => label.isBare = true) ∧
      draft.bare.bare = draft.bare ∧ draft.bare.node = draft.node) ∧
    (∀ draft other : Draft, Draft.Alike draft other ↔ draft.node = other.node) ∧
    ∀ set : RuleSet, set.nodes = set.rules.map Draft.projection := by
  refine ⟨Draft.projection_mk, Draft.node_eq_projection, ?_, fun _ _ => Draft.alike_iff_node_eq, ?_⟩
  · intro draft
    exact ⟨Draft.alike_iff_node_eq.mpr draft.node_bare, draft.throughout_bare, draft.bare_bare,
      draft.node_bare⟩
  · intro set
    have hnode : Draft.node = Draft.projection := funext Draft.node_eq_projection
    rw [RuleSet.nodes, hnode]

end GrammarTable.Rule
