import GrammarTable.Proofs.Token.Moved
import GrammarTable.Proofs.Tree.Relabel
import GrammarTable.Rule.Composite
import GrammarTable.Rule.RuleSet

/-!
# Drafts at other places

A draft may be moved with the lexemes that it was read from. How drafts are put together
does not hang on their places, and neither do the nodes that they leave.
-/

namespace GrammarTable.Rule

open Text

variable {g : Nat → Nat}

def MarkedLabel.moved (g : Nat → Nat) (label : MarkedLabel) : MarkedLabel :=
  { label with span := label.span.map (Span.moved g) }

@[simp] theorem MarkedLabel.toLabel_moved (label : MarkedLabel) :
    (label.moved g).toLabel = label.toLabel := rfl

namespace Draft

def moved (g : Nat → Nat) (draft : Draft) : Draft :=
  Tree.map (MarkedLabel.moved g) draft

@[simp] theorem moved_mk (label : MarkedLabel) (children : List Draft) :
    moved g ⟨label, children⟩ = ⟨label.moved g, children.map (moved g)⟩ :=
  Tree.map_mk (MarkedLabel.moved g) label children

@[simp] theorem label_moved (draft : Draft) : (moved g draft).label = draft.label.moved g :=
  Tree.label_map (MarkedLabel.moved g) draft

@[simp] theorem children_moved (draft : Draft) :
    (moved g draft).children = draft.children.map (moved g) :=
  Tree.children_map (MarkedLabel.moved g) draft

@[simp] theorem node_moved (draft : Draft) : node (moved g draft) = node draft :=
  Tree.map_map (MarkedLabel.moved g) MarkedLabel.toLabel draft

@[simp] theorem moved_leaf (kind : Kind) (name : String) (span : Span) :
    moved g (leaf kind name span) = leaf kind name (span.moved g) :=
  moved_mk _ _

@[simp] theorem moved_composite (kind : Kind) (owner : String) (span : Span)
    (children : List Draft) :
    moved g (composite kind owner span children) =
      composite kind owner (span.moved g) (children.map (moved g)) :=
  moved_mk _ _

@[simp] theorem moved_sequence (owner : String) (span : Span) (items : List Draft) :
    moved g (sequence owner span items) =
      sequence owner (span.moved g) (items.map (moved g)) := by
  match items with
  | [] => exact moved_composite _ _ _ _
  | [item] => rfl
  | _ :: _ :: _ => exact moved_composite _ _ _ _

@[simp] theorem leadingLiteral_moved :
    ∀ draft : Draft, leadingLiteral (moved g draft) = leadingLiteral draft
  | ⟨⟨⟨kind, name⟩, span, unique⟩, []⟩ => by
      cases kind <;> simp [leadingLiteral, MarkedLabel.moved]
  | ⟨⟨⟨kind, name⟩, span, unique⟩, first :: rest⟩ => by
      have hfirst := leadingLiteral_moved first
      cases kind <;> simp [leadingLiteral, MarkedLabel.moved, hfirst]

@[simp] theorem moved_markUnique (unique : Bool) (draft : Draft) :
    moved g (markUnique unique draft) = markUnique unique (moved g draft) := by
  obtain ⟨label, children⟩ := draft
  rw [markUnique, moved_mk, moved_mk]
  rfl

@[simp] theorem map_moved_markAlternatives (alternatives : List Draft) :
    (markAlternatives alternatives).map (moved g) =
      markAlternatives (alternatives.map (moved g)) := by
  simp [markAlternatives, Function.comp_def]

@[simp] theorem moved_choice (owner : String) (span : Span) (alternatives : List Draft) :
    moved g (choice owner span alternatives) =
      choice owner (span.moved g) (alternatives.map (moved g)) := by
  match alternatives with
  | [] => exact moved_composite _ _ _ _
  | [alternative] => rfl
  | _ :: _ :: _ =>
      rw [choice, moved_composite, map_moved_markAlternatives]
      · rfl
      · exact nofun

@[simp] theorem moved_rule (name : String) (span : Span) (body : Draft) :
    moved g (rule name span body) = rule name (span.moved g) (moved g body) := by
  rw [rule, moved_composite, rule, label_moved, children_moved]
  by_cases hkind : body.label.kind = .sequence <;> simp [hkind]

end Draft

/-! ## Rule sets -/

namespace RuleSet

theorem map_name_moved (rules : List Draft) :
    (rules.map (Draft.moved g)).map (fun rule => rule.label.name) =
      rules.map fun rule => rule.label.name := by
  simp [Function.comp_def]

def moved (g : Nat → Nat) (set : RuleSet) : RuleSet where
  rules := set.rules.map (Draft.moved g)
  names_nodup := by
    rw [map_name_moved]
    exact set.names_nodup

theorem names_moved (set : RuleSet) : (set.moved g).names = set.names :=
  map_name_moved set.rules

theorem nodes_moved (set : RuleSet) : (set.moved g).nodes = set.nodes := by
  simp [nodes, moved, Function.comp_def]

theorem insert_moved (set : RuleSet) (rule : Draft) :
    (set.moved g).insert (rule.moved g) =
      ((set.insert rule).map (RuleSet.moved g)).mapError (Draft.moved g) := by
  by_cases htaken : rule.label.name ∈ set.names
  · have hmoved : (rule.moved g).label.name ∈ (set.moved g).names := by
      rwa [names_moved, Draft.label_moved, MarkedLabel.toLabel_moved]
    rw [insert, insert, dif_pos htaken, dif_pos hmoved]
    rfl
  · have hmoved : (rule.moved g).label.name ∉ (set.moved g).names := by
      rwa [names_moved, Draft.label_moved, MarkedLabel.toLabel_moved]
    rw [insert, insert, dif_neg htaken, dif_neg hmoved]
    simp [Except.map, moved]

theorem insertAll_moved (set : RuleSet) (rules : List Draft) :
    (set.moved g).insertAll (rules.map (Draft.moved g)) =
      ((set.insertAll rules).map (RuleSet.moved g)).mapError (Draft.moved g) := by
  induction rules generalizing set with
  | nil => rfl
  | cons rule rest ih =>
      rw [List.map_cons, insertAll, insertAll, insert_moved]
      cases set.insert rule with
      | error rejected => rfl
      | ok next => exact ih next

end RuleSet

end GrammarTable.Rule
