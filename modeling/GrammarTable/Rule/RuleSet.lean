import GrammarTable.Rule.Draft

/-!
# Rule sets

The rules of a grammar in the order of their declaration. No two rules of a set have
the same name.
-/

namespace GrammarTable.Rule

/-- Rules in order, with names that differ. -/
structure RuleSet where
  rules : List Draft
  names_nodup : (rules.map fun rule => rule.label.name).Nodup

namespace RuleSet

def empty : RuleSet :=
  ⟨[], List.nodup_nil⟩

def names (set : RuleSet) : List String :=
  set.rules.map fun rule => rule.label.name

def size (set : RuleSet) : Nat :=
  set.rules.length

def isEmpty (set : RuleSet) : Bool :=
  set.rules.isEmpty

def find? (set : RuleSet) (name : String) : Option Draft :=
  set.rules.find? fun rule => rule.label.name == name

theorem find?_of_mem {set : RuleSet} {rule : Draft} (h : rule ∈ set.rules) :
    set.find? rule.label.name = some rule := by
  have ⟨before, after, hsplit⟩ := List.append_of_mem h
  have hnodup := set.names_nodup
  rw [hsplit, List.map_append, List.map_cons, List.nodup_append] at hnodup
  apply List.find?_eq_some_iff_append.mpr
  refine ⟨beq_self_eq_true _, before, after, hsplit, ?_⟩
  intro earlier hearlier
  have hne := hnodup.2.2 _ (List.mem_map_of_mem hearlier) _ List.mem_cons_self
  simpa using hne

/-- Append a rule. A rule whose name is taken is handed back. -/
def insert (set : RuleSet) (rule : Draft) : Except Draft RuleSet :=
  if h : rule.label.name ∈ set.names then .error rule
  else
    .ok ⟨set.rules ++ [rule], by
      rw [List.map_append, List.nodup_append]
      refine ⟨set.names_nodup, by simp, ?_⟩
      rintro name hname other hother rfl
      simp only [List.map_cons, List.map_nil, List.mem_singleton] at hother
      exact h (hother ▸ hname)⟩

/-- A rule that is accepted stands behind the others. -/
theorem rules_of_insert_eq_ok {set next : RuleSet} {rule : Draft}
    (h : set.insert rule = .ok next) :
    next.rules = set.rules ++ [rule] := by
  unfold insert at h
  split at h
  · cases h
  · cases h
    rfl

/-- A rule is handed back exactly when its name is taken. -/
theorem insert_eq_error_iff {set : RuleSet} {rule rejected : Draft} :
    set.insert rule = .error rejected ↔ rule.label.name ∈ set.names ∧ rejected = rule := by
  unfold insert
  split
  · rename_i h
    simp [h, eq_comm]
  · rename_i h
    simp [h]

/-- Append rules one after the other, up to the first whose name is taken. -/
def insertAll (set : RuleSet) : List Draft → Except Draft RuleSet
  | [] => .ok set
  | rule :: rest =>
      match set.insert rule with
      | .error rejected => .error rejected
      | .ok set => set.insertAll rest

def nodes (set : RuleSet) : List Node :=
  set.rules.map Draft.node

end RuleSet

end GrammarTable.Rule
