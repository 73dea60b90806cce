import GrammarTable.Rule.RuleSet
import Mathlib.Data.List.Induction

/-!
# Rules offered one after the other

A set may be offered further rules after it has handed one back. It then holds the first rule
of each name, in the order in which they were offered. A map with keys of its own, which keeps
its entries in the order in which the keys came in, holds the same rules under their names.
-/

namespace GrammarTable.Rule

/-! ## Runs of offers -/

/-- A rule that was offered, and what was handed back. -/
structure Offer where
  rule : Draft
  back? : Option Draft

/-- Offer rules one after the other, each to the state that the one before has left. -/
def offerAll {σ : Type} (offer : σ → Draft → Option Draft × σ) (state : σ) :
    List Draft → List Offer × σ
  | [] => ([], state)
  | rule :: rest =>
      let (back?, next) := offer state rule
      let (offers, last) := offerAll offer next rest
      (⟨rule, back?⟩ :: offers, last)

def accepted (offers : List Offer) : List Draft :=
  (offers.filter fun offer => offer.back?.isNone).map Offer.rule

section Runs

variable {σ υ : Type} {offer : σ → Draft → Option Draft × σ}
  {other : υ → Draft → Option Draft × υ}

theorem offerAll_concat (state : σ) (front : List Draft) (rule : Draft) :
    offerAll offer state (front ++ [rule]) =
      ((offerAll offer state front).1 ++
          [⟨rule, (offer (offerAll offer state front).2 rule).1⟩],
        (offer (offerAll offer state front).2 rule).2) := by
  induction front generalizing state with
  | nil => rfl
  | cons first rest ih =>
      show (_ :: (offerAll offer _ (rest ++ [rule])).1, (offerAll offer _ (rest ++ [rule])).2) = _
      rw [ih]
      rfl

theorem map_rule_offerAll (state : σ) (rules : List Draft) :
    (offerAll offer state rules).1.map Offer.rule = rules := by
  induction rules generalizing state with
  | nil => rfl
  | cons rule rest ih => exact congrArg (rule :: ·) (ih _)

/-- Two ways of keeping rules that hand back the same at each step do so all along. -/
theorem offerAll_of_step {view : σ → υ}
    (step : ∀ state rule, other (view state) rule =
      ((offer state rule).1, view (offer state rule).2)) (state : σ) (rules : List Draft) :
    offerAll other (view state) rules =
      ((offerAll offer state rules).1, view (offerAll offer state rules).2) := by
  induction rules generalizing state with
  | nil => rfl
  | cons rule rest ih =>
      rw [offerAll, step]
      dsimp only
      rw [ih]
      rfl

theorem accepted_concat (offers : List Offer) (rule : Draft) :
    accepted (offers ++ [⟨rule, none⟩]) = accepted offers ++ [rule] := by
  simp [accepted]

theorem accepted_concat_back (offers : List Offer) (rule rejected : Draft) :
    accepted (offers ++ [⟨rule, some rejected⟩]) = accepted offers := by
  simp [accepted]

end Runs

/-! ## Maps with keys -/

/-- Rules under keys, in the order in which the keys came in. -/
abbrev Index := List (String × Draft)

namespace Index

/-- File a rule: in the place of the one under the same key, or behind all others. -/
def put (index : Index) (key : String) (rule : Draft) : Index :=
  if (index.lookup key).isSome then
    index.map fun entry => if entry.1 = key then (key, rule) else entry
  else index ++ [(key, rule)]

def offer (index : Index) (rule : Draft) : Option Draft × Index :=
  if (index.lookup rule.label.name).isSome then (some rule, index)
  else (none, index.put rule.label.name rule)

end Index

/-! ## One offer to a set -/

namespace RuleSet

variable {set next : RuleSet} {rule : Draft} {name : String}

def offer (set : RuleSet) (rule : Draft) : Option Draft × RuleSet :=
  match set.insert rule with
  | .ok next => (none, next)
  | .error rejected => (some rejected, set)

def index (set : RuleSet) : Index :=
  set.rules.map fun rule => (rule.label.name, rule)

theorem exists_insert_iff :
    (∃ next, set.insert rule = .ok next) ↔
      ∀ stored ∈ set.rules, stored.label.name ≠ rule.label.name := by
  have hfree : rule.label.name ∉ set.names ↔
      ∀ stored ∈ set.rules, stored.label.name ≠ rule.label.name := by
    simp [names]
  rw [← hfree]
  constructor
  · intro haccepted htaken
    rw [insert_eq_error_iff.mpr ⟨htaken, rfl⟩] at haccepted
    cases haccepted with
    | intro next hnext => cases hnext
  · intro h
    cases hinsert : set.insert rule with
    | ok next => exact ⟨next, rfl⟩
    | error rejected => exact absurd (insert_eq_error_iff.mp hinsert).1 h

theorem offer_of_insert_ok (h : set.insert rule = .ok next) :
    set.offer rule = (none, next) := by
  rw [offer, h]

theorem offer_of_insert_error {rejected : Draft} (h : set.insert rule = .error rejected) :
    set.offer rule = (some rejected, set) := by
  rw [offer, h]

/-- An offer is refused, or it puts the rule behind all others. -/
theorem offer_cases (set : RuleSet) (rule : Draft) :
    (rule.label.name ∈ set.names ∧ set.offer rule = (some rule, set)) ∨
      ∃ next, rule.label.name ∉ set.names ∧ set.offer rule = (none, next) ∧
        next.rules = set.rules ++ [rule] := by
  cases hinsert : set.insert rule with
  | error rejected =>
      have ⟨htaken, hsame⟩ := insert_eq_error_iff.mp hinsert
      subst hsame
      exact .inl ⟨htaken, offer_of_insert_error hinsert⟩
  | ok next =>
      have hfree : rule.label.name ∉ set.names := by
        intro htaken
        exact nomatch hinsert.symm.trans (insert_eq_error_iff.mpr ⟨htaken, rfl⟩)
      exact .inr ⟨next, hfree, offer_of_insert_ok hinsert, rules_of_insert_eq_ok hinsert⟩

theorem lookup_index (set : RuleSet) (name : String) :
    set.index.lookup name = set.find? name := by
  unfold index find?
  induction set.rules with
  | nil => rfl
  | cons rule rest ih =>
      rw [List.map_cons, List.lookup_cons, List.find?_cons, ih, Bool.beq_comm]

theorem find?_eq_none_iff : set.find? name = none ↔ name ∉ set.names := by
  simp [find?, names]

theorem offer_index (set : RuleSet) (rule : Draft) :
    set.index.offer rule = ((set.offer rule).1, (set.offer rule).2.index) := by
  rcases set.offer_cases rule with ⟨htaken, hoffer⟩ | ⟨next, hfree, hoffer, hrules⟩
  · have hfound : (set.index.lookup rule.label.name).isSome = true := by
      rw [lookup_index, Option.isSome_iff_ne_none]
      exact fun hnone => find?_eq_none_iff.mp hnone htaken
    rw [hoffer, Index.offer, if_pos hfound]
  · have hnone : set.index.lookup rule.label.name = none := by
      rw [lookup_index, find?_eq_none_iff.mpr hfree]
    rw [hoffer, Index.offer, Index.put, hnone]
    simp [index, hrules]

/-! ## Runs of offers to a set -/

/-- What a set holds after rules were offered to it, and what a map with keys would hold. -/
structure Keeps (offered : List Draft) (offers : List Offer) (set : RuleSet) : Prop where
  offers_eq : offers.map Offer.rule = offered
  names_nodup : set.names.Nodup
  filed : ∀ rule ∈ set.rules, set.find? rule.label.name = some rule
  find?_eq : ∀ name, set.find? name = offered.find? fun rule => rule.label.name == name
  rules_eq : set.rules = accepted offers
  names_eq : set.names = (accepted offers).map fun rule => rule.label.name
  size_eq : set.size = (accepted offers).length
  isEmpty_eq : set.isEmpty = (accepted offers).isEmpty
  nodes_eq : set.nodes = (accepted offers).map Draft.node
  index_eq : offerAll Index.offer [] offered = (offers, set.index)

theorem rules_offerAll (offered : List Draft) :
    (offerAll offer empty offered).2.rules = accepted (offerAll offer empty offered).1 := by
  induction offered using List.reverseRecOn with
  | nil => rfl
  | append_singleton front rule ih =>
      rw [offerAll_concat]
      rcases offer_cases (offerAll offer empty front).2 rule with
        ⟨htaken, hoffer⟩ | ⟨next, hfree, hoffer, hrules⟩
      · rw [hoffer, accepted_concat_back, ih]
      · rw [hoffer, accepted_concat, hrules, ih]

/-- A name leads to the first rule of that name that was ever offered. -/
theorem find?_offerAll (offered : List Draft) (name : String) :
    (offerAll offer empty offered).2.find? name =
      offered.find? fun rule => rule.label.name == name := by
  induction offered using List.reverseRecOn with
  | nil => rfl
  | append_singleton front rule ih =>
      rw [offerAll_concat, List.find?_append, ← ih]
      rcases offer_cases (offerAll offer empty front).2 rule with
        ⟨htaken, hoffer⟩ | ⟨next, hfree, hoffer, hrules⟩
      · rw [hoffer]
        by_cases hname : rule.label.name = name
        · have hfound : (find? (offerAll offer empty front).2 name).isSome = true := by
            rw [Option.isSome_iff_ne_none, ← hname]
            exact fun hnone => find?_eq_none_iff.mp hnone htaken
          exact (Option.or_of_isSome hfound).symm
        · simp [hname]
      · rw [hoffer, find?, hrules, List.find?_append]
        rfl

theorem keeps_offerAll (offered : List Draft) :
    Keeps offered (offerAll offer empty offered).1 (offerAll offer empty offered).2 where
  offers_eq := map_rule_offerAll empty offered
  names_nodup := RuleSet.names_nodup _
  filed _ hrule := find?_of_mem hrule
  find?_eq := find?_offerAll offered
  rules_eq := rules_offerAll offered
  names_eq := congrArg (List.map fun rule : Draft => rule.label.name) (rules_offerAll offered)
  size_eq := congrArg List.length (rules_offerAll offered)
  isEmpty_eq := congrArg List.isEmpty (rules_offerAll offered)
  nodes_eq := congrArg (List.map Draft.node) (rules_offerAll offered)
  index_eq := offerAll_of_step offer_index empty offered

/-- After any rules were offered to the empty set it holds the first of each name in the order
in which they came, and so does a map with keys. A further rule is put behind all others
exactly when no rule of the set has its name, and otherwise comes back as it was and leaves the
set as it was. -/
theorem keeps_first_of_each_name (offered : List Draft) :
    let (offers, set) := offerAll offer empty offered
    Keeps offered offers set ∧
      ∀ rule,
        ((∃ next, set.insert rule = .ok next) ↔
          ∀ stored ∈ set.rules, stored.label.name ≠ rule.label.name) ∧
        match set.insert rule with
        | .ok next =>
            next.rules = set.rules ++ [rule] ∧
              offerAll offer empty (offered ++ [rule]) = (offers ++ [⟨rule, none⟩], next)
        | .error rejected =>
            rejected = rule ∧
              offerAll offer empty (offered ++ [rule]) =
                (offers ++ [⟨rule, some rejected⟩], set) := by
  refine ⟨keeps_offerAll offered, ?_⟩
  intro rule
  refine ⟨exists_insert_iff, ?_⟩
  rw [offerAll_concat]
  split
  case h_1 next hinsert =>
    rw [offer_of_insert_ok hinsert]
    exact ⟨rules_of_insert_eq_ok hinsert, rfl⟩
  case h_2 rejected hinsert =>
    rw [offer_of_insert_error hinsert]
    exact ⟨(insert_eq_error_iff.mp hinsert).2, rfl⟩

/-- The second rule of a name comes back, and the rules around it stay in order. -/
example :
    let rule (name : String) : Draft := ⟨{ kind := .rule, name }, []⟩
    let (offers, set) := offerAll offer empty [rule "zeta", rule "alpha", rule "zeta", rule "mid"]
    set.names = ["zeta", "alpha", "mid"] ∧
      offers.map (fun offer => offer.back?.isSome) = [false, false, true, false] := by
  decide

end RuleSet

end GrammarTable.Rule
