import GrammarTable.Proofs.Rule.Language
import GrammarTable.Proofs.Tree.Within

/-!
# Marks

An alternative of a choice is marked when its leading literal tells it apart from the others,
and nothing else is. Drafts that are put together from leaves keep this, since a draft is
marked only when it becomes an alternative.
-/

namespace GrammarTable.Rule.Draft

open Text

variable {literal : String} {draft node : Draft} {parts front back : List Draft} {part : Draft}

/-- The children of a node are marked as they should be: one that has a leading literal which
no other child has, if the node is a choice, and no other one. -/
def ChildrenMarked (node : Draft) : Prop :=
  ∀ front child back, node.children = front ++ child :: back →
    (child.label.unique = true ↔
      node.label.kind = .choice ∧
        ∃ literal, Leads literal child ∧ ∀ other ∈ front ++ back, ¬ Leads literal other)

/-- Drafts put together from leaves. Only a choice marks its parts. -/
inductive Assembled : Draft → Prop where
  | leaf (kind : Kind) (name : String) (span : Span) : Assembled (leaf kind name span)
  | composite {kind : Kind} {owner : String} {span : Span} {parts : List Draft}
      (hkind : kind ≠ .choice) (hparts : ∀ part ∈ parts, Assembled part) :
      Assembled (composite kind owner span parts)
  | choice {owner : String} {span : Span} {parts : List Draft}
      (hparts : ∀ part ∈ parts, Assembled part) :
      Assembled (composite .choice owner span (markAlternatives parts))

theorem Assembled.unique_eq (h : Assembled draft) : draft.label.unique = false := by
  cases h <;> rfl

section Assembled

variable {owner : String} {span : Span}

theorem assembled_sequence (h : ∀ part ∈ parts, Assembled part) :
    Assembled (sequence owner span parts) := by
  match parts with
  | [] => exact .composite (by decide) h
  | [part] => exact h part (List.mem_singleton_self part)
  | _ :: _ :: _ => exact .composite (by decide) h

theorem assembled_choice (h : ∀ part ∈ parts, Assembled part) :
    Assembled (choice owner span parts) := by
  match parts with
  | [] => exact .choice h
  | [part] => exact h part (List.mem_singleton_self part)
  | _ :: _ :: _ => exact .choice h

/-- A rule takes in the items of a sequence, which are put together as the sequence is. -/
theorem assembled_rule (h : Assembled draft) : Assembled (rule owner span draft) := by
  refine .composite (by decide) ?_
  by_cases hkind : draft.label.kind = .sequence
  · rw [if_pos hkind]
    cases h with
    | leaf kind name span => exact nofun
    | composite hkind hparts => exact hparts
    | choice hparts => exact absurd hkind nofun
  · rw [if_neg hkind]
    exact List.forall_mem_singleton.mpr h

end Assembled

/-! ## Marks do not hang on marks -/

theorem leadingLiteral_markUnique (unique : Bool) (draft : Draft) :
    leadingLiteral (markUnique unique draft) = leadingLiteral draft := by
  obtain ⟨⟨⟨kind, name⟩, span, mark⟩, children⟩ := draft
  cases kind <;> cases children <;> simp [markUnique, leadingLiteral]

theorem leads_markUnique (unique : Bool) :
    Leads literal (markUnique unique draft) ↔ Leads literal draft := by
  rw [← leadingLiteral_eq_some_iff, ← leadingLiteral_eq_some_iff, leadingLiteral_markUnique]

theorem childrenMarked_of_within_markUnique (unique : Bool)
    (h : ∀ node, node.Within draft → ChildrenMarked node) :
    ∀ node, node.Within (markUnique unique draft) → ChildrenMarked node := by
  obtain ⟨label, children⟩ := draft
  rw [Tree.forall_within_mk] at h
  exact Tree.forall_within_mk.mpr h

/-! ## Choices -/

/-- One count of a leading literal is that of the alternative itself. -/
theorem counted_once_iff :
    ((leadingLiteral part).isSome &&
        ((front ++ part :: back).map leadingLiteral).count (leadingLiteral part) == 1) = true ↔
      ∃ literal, Leads literal part ∧ ∀ other ∈ front ++ back, ¬ Leads literal other := by
  simp only [← leadingLiteral_eq_some_iff]
  cases hpart : leadingLiteral part with
  | none => simp
  | some literal =>
      have hcount : ((front ++ part :: back).map leadingLiteral).count (some literal) =
          ((front ++ back).map leadingLiteral).count (some literal) + 1 := by
        simp only [List.map_append, List.map_cons, List.count_append, List.count_cons, hpart,
          beq_self_eq_true, if_true]
        omega
      rw [hcount]
      simp [List.count_eq_zero, or_imp, forall_and]

theorem childrenMarked_choice {owner : String} {span : Span} :
    ChildrenMarked (composite .choice owner span (markAlternatives parts)) := by
  intro front child back hsplit
  have hparts : markAlternatives parts = front ++ child :: back := hsplit
  obtain ⟨before, later, rfl, rfl, hlater⟩ := List.map_eq_append_iff.mp hparts
  obtain ⟨part, behind, rfl, rfl, rfl⟩ := List.map_eq_cons_iff.mp hlater
  refine counted_once_iff.trans ?_
  simp [composite, leads_markUnique, or_imp, forall_and]

/-! ## Whole drafts -/

theorem childrenMarked_composite {kind : Kind} {owner : String} {span : Span}
    (hkind : kind ≠ .choice) (hparts : ∀ part ∈ parts, part.label.unique = false) :
    ChildrenMarked (composite kind owner span parts) := by
  intro front child back hsplit
  have hchild : child ∈ parts := by
    have hparts : parts = front ++ child :: back := hsplit
    simp [hparts]
  refine iff_of_false ?_ fun h => hkind h.1
  rw [hparts child hchild]
  exact nofun

theorem Assembled.childrenMarked (h : Assembled draft) :
    ∀ node, node.Within draft → ChildrenMarked node := by
  induction h with
  | leaf kind name span =>
      refine Tree.forall_within_mk.mpr ⟨?_, nofun⟩
      intro front child back hsplit
      exact absurd hsplit.symm (by simp)
  | @composite kind owner span parts hkind hparts ih =>
      refine Tree.forall_within_mk.mpr ⟨?_, ih⟩
      exact childrenMarked_composite hkind fun part hpart => (hparts part hpart).unique_eq
  | @choice owner span parts hparts ih =>
      refine Tree.forall_within_mk.mpr ⟨childrenMarked_choice, ?_⟩
      rw [markAlternatives, List.forall_mem_map]
      exact fun part hpart => childrenMarked_of_within_markUnique _ (ih part hpart)

end GrammarTable.Rule.Draft
