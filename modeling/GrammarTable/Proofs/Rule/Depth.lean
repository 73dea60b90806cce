import GrammarTable.Proofs.Token.Run
import GrammarTable.Proofs.Tree.Relabel
import GrammarTable.Rule.Composite
import GrammarTable.Tree.Measure

/-!
# The depth of drafts

How far drafts reach down when they are put together: a node adds one level to the deepest of
its parts, and marks add none. The room for further brackets is what a limit leaves of it.
-/

namespace GrammarTable

/-! ## Heights of several trees -/

namespace Tree

variable {α : Type}

theorem forestHeight_singleton (tree : Tree α) : forestHeight [tree] = tree.height := by
  simp [forestHeight]

theorem forestHeight_concat (front : List (Tree α)) (tree : Tree α) :
    forestHeight (front ++ [tree]) = max (forestHeight front) tree.height := by
  rw [forestHeight_append, forestHeight_singleton]

end Tree

/-! ## Heights of drafts -/

namespace Rule.Draft

open Text

variable {owner name : String} {span : Span} {kind : Kind}

theorem height_leaf : (leaf kind name span).height = 1 := by
  rw [Tree.height_eq]
  rfl

theorem height_composite (parts : List Draft) :
    (composite kind owner span parts).height = 1 + Tree.forestHeight parts :=
  Tree.height_eq _

theorem height_markUnique (unique : Bool) (draft : Draft) :
    (markUnique unique draft).height = draft.height := by
  rw [Tree.height_eq, Tree.height_eq draft]
  rfl

theorem forestHeight_markAlternatives (parts : List Draft) :
    Tree.forestHeight (markAlternatives parts) = Tree.forestHeight parts :=
  Tree.forestHeight_map fun _ _ => height_markUnique _ _

/-- A rule adds a level to its body, or none where it takes in a sequence. -/
theorem height_rule_le (body : Draft) : (rule owner span body).height ≤ 1 + body.height := by
  rw [rule, height_composite]
  by_cases hkind : body.label.kind = .sequence
  · rw [if_pos hkind, Tree.height_eq body]
    omega
  · apply Nat.le_of_eq
    rw [if_neg hkind, Tree.forestHeight_singleton]

end Rule.Draft

/-! ## Room for brackets -/

namespace Token

variable {τ : Type} {nesting : τ → Int} {limit room : Nat} {depth : Int}
  {lexeme : Lexeme τ} {lexemes : List (Lexeme τ)}

theorem NestsWithin.of_level {limit? : Option Nat}
    (h : NestsWithin nesting limit? depth (lexeme :: lexemes)) (hlevel : nesting lexeme.token = 0) :
    NestsWithin nesting limit? depth lexemes := by
  have hrest : NestsWithin nesting limit? (depth + nesting lexeme.token) lexemes := h.2
  rwa [hlevel, Int.add_zero] at hrest

/-- Where a bracket was opened there was room for it, and there is room for one less. -/
theorem NestsWithin.exists_room (h : NestsWithin nesting (some limit) (depth + 1) lexemes)
    (hroom : (limit : Int) ≤ depth + room) :
    ∃ inner, room = inner + 1 ∧ (limit : Int) ≤ depth + 1 + (inner : Nat) := by
  have hle : depth + 1 ≤ (limit : Nat) := h.depth_le limit rfl
  cases room with
  | zero => omega
  | succ inner => exact ⟨inner, rfl, by omega⟩

end Token

end GrammarTable
