import GrammarTable.Grammar.Read

/-!
# Collected rules

Rules are collected in order, up to the first whose name is taken. So a text is read exactly
when it has rules and their names differ, and the set holds the rules as they stand there.
-/

namespace GrammarTable

/-- The rule behind some others is the first that takes the name of an earlier one. -/
structure Rule.FirstRepeat (rules before : List Rule.Draft) (rule : Rule.Draft) : Prop where
  isPrefix : before ++ [rule] <+: rules
  nodup : (before.map fun earlier => earlier.label.name).Nodup
  taken : rule.label.name ∈ before.map fun earlier => earlier.label.name

theorem Rule.FirstRepeat.mem {rules before : List Rule.Draft} {rule : Rule.Draft}
    (h : Rule.FirstRepeat rules before rule) : rule ∈ rules :=
  h.isPrefix.subset (List.mem_append_right before List.mem_cons_self)

namespace Rule.RuleSet

variable {set next : RuleSet} {rules : List Draft} {rule : Draft}

theorem eq_of_rules (h : set.rules = next.rules) : set = next := by
  obtain ⟨rules, hnodup⟩ := set
  obtain ⟨others, hother⟩ := next
  obtain rfl : rules = others := h
  rfl

theorem insertAll_append (set : RuleSet) (front back : List Draft) :
    set.insertAll (front ++ back) =
      match set.insertAll front with
      | .error rejected => .error rejected
      | .ok middle => middle.insertAll back := by
  induction front generalizing set with
  | nil => rfl
  | cons rule rest ih =>
      rw [List.cons_append, insertAll, insertAll]
      cases set.insert rule with
      | error rejected => rfl
      | ok middle => exact ih middle

theorem insertAll_eq_ok_iff : set.insertAll rules = .ok next ↔ next.rules = set.rules ++ rules := by
  induction rules generalizing set with
  | nil =>
      rw [List.append_nil, insertAll]
      exact ⟨fun h => by rw [Except.ok.inj h], fun h => by rw [eq_of_rules h]⟩
  | cons rule rest ih =>
      rw [insertAll]
      cases hinsert : set.insert rule with
      | error rejected =>
          obtain ⟨htaken, -⟩ := insert_eq_error_iff.mp hinsert
          refine ⟨nofun, fun h => ?_⟩
          -- The names of the whole set would not differ.
          have hnodup := next.names_nodup
          rw [h, List.map_append, List.map_cons, List.nodup_append] at hnodup
          exact absurd rfl (hnodup.2.2 _ htaken _ List.mem_cons_self)
      | ok middle =>
          rw [ih, rules_of_insert_eq_ok hinsert, List.append_assoc, List.singleton_append]

/-- The rule handed back is the first whose name is taken, in the set or by a rule before. -/
theorem insertAll_eq_error_iff :
    set.insertAll rules = .error rule ↔
      ∃ before after, rules = before ++ rule :: after ∧
        ∃ middle, set.insertAll before = .ok middle ∧ rule.label.name ∈ middle.names := by
  constructor
  · intro h
    induction rules generalizing set with
    | nil => exact nomatch h
    | cons first rest ih =>
        rw [insertAll] at h
        cases hinsert : set.insert first with
        | error rejected =>
            rw [hinsert] at h
            obtain rfl := Except.error.inj h
            obtain ⟨htaken, rfl⟩ := insert_eq_error_iff.mp hinsert
            exact ⟨[], rest, rfl, set, rfl, htaken⟩
        | ok next =>
            rw [hinsert] at h
            obtain ⟨before, after, rfl, middle, hmiddle, htaken⟩ := ih h
            refine ⟨first :: before, after, rfl, middle, ?_, htaken⟩
            rw [insertAll, hinsert]
            exact hmiddle
  · rintro ⟨before, after, rfl, middle, hmiddle, htaken⟩
    rw [insertAll_append, hmiddle]
    simp only [insertAll, insert_eq_error_iff.mpr ⟨htaken, rfl⟩]

/-- With nothing in the set, it is the first rule that takes the name of an earlier one. -/
theorem empty_insertAll_eq_error_iff :
    empty.insertAll rules = .error rule ↔ ∃ before, FirstRepeat rules before rule := by
  rw [insertAll_eq_error_iff]
  apply exists_congr
  intro before
  constructor
  · rintro ⟨after, hsplit, middle, hmiddle, htaken⟩
    have hrules : middle.rules = before := insertAll_eq_ok_iff.mp hmiddle
    subst hrules
    exact ⟨⟨after, by simp [hsplit]⟩, middle.names_nodup, htaken⟩
  · rintro ⟨⟨after, hsplit⟩, hnodup, htaken⟩
    exact ⟨after, by simp [← hsplit], ⟨before, hnodup⟩, insertAll_eq_ok_iff.mpr rfl, htaken⟩

/-- Rules whose names differ, and are not in the set, go behind it. -/
theorem exists_insertAll_eq_ok (set : RuleSet)
    (hnodup : (rules.map fun rule => rule.label.name).Nodup)
    (hfree : ∀ rule ∈ rules, rule.label.name ∉ set.names) :
    ∃ next, set.insertAll rules = .ok next ∧ next.rules = set.rules ++ rules := by
  have hnames : ((set.rules ++ rules).map fun rule => rule.label.name).Nodup := by
    rw [List.map_append, List.nodup_append]
    refine ⟨set.names_nodup, hnodup, ?_⟩
    rintro name hname other hother rfl
    obtain ⟨rule, hrule, rfl⟩ := List.mem_map.mp hother
    exact hfree rule hrule hname
  exact ⟨⟨set.rules ++ rules, hnames⟩, insertAll_eq_ok_iff.mpr rfl, rfl⟩

/-- The rules of a set are collected again, whatever is collected behind them. -/
theorem insertAll_rules_append (set : RuleSet) (rules : List Draft) :
    empty.insertAll (set.rules ++ rules) = set.insertAll rules := by
  have hset : empty.insertAll set.rules = .ok set := insertAll_eq_ok_iff.mpr rfl
  rw [insertAll_append, hset]

end Rule.RuleSet

namespace Grammar

open Rule Settings Text

variable {rules : List Draft} {set : RuleSet} {dialect : Dialect}

theorem collect_eq_ok_iff : collect rules = .ok set ↔ set.rules = rules ∧ rules ≠ [] := by
  unfold collect
  cases rules with
  | nil => simp
  | cons rule rest =>
      have hall : RuleSet.empty.insertAll (rule :: rest) = .ok set ↔ set.rules = rule :: rest :=
        RuleSet.insertAll_eq_ok_iff
      rw [← hall]
      cases RuleSet.empty.insertAll (rule :: rest) <;> simp

/-- Behind the rules of a set others are collected as if the set were inserted into. -/
theorem collect_append (hne : set.rules ≠ []) (rules : List Draft) :
    collect (set.rules ++ rules) =
      match set.insertAll rules with
      | .ok next => .ok next
      | .error rule =>
          .error ⟨(rule.label.span.map Span.start).getD 0, .duplicate rule.label.name⟩ := by
  have hempty : (set.rules ++ rules).isEmpty = false := by simp [hne]
  rw [collect, hempty, RuleSet.insertAll_rules_append]
  rfl

/-- Without rules there is no set, nor when a rule takes the name of an earlier one. -/
theorem collect_eq_error_iff {finding : Finding} :
    collect rules = .error finding ↔
      rules = [] ∧ finding = ⟨0, .noRules⟩ ∨
      ∃ before rule, FirstRepeat rules before rule ∧
        finding = ⟨(rule.label.span.map Span.start).getD 0, .duplicate rule.label.name⟩ := by
  cases rules with
  | nil =>
      have hnone : ∀ before rule, ¬ FirstRepeat [] before rule :=
        fun before rule h => List.not_mem_nil h.mem
      simp [collect, hnone, eq_comm]
  | cons first rest =>
      have hcollect : collect (first :: rest) = .error finding ↔
          ∃ rule, RuleSet.empty.insertAll (first :: rest) = .error rule ∧
            finding = ⟨(rule.label.span.map Span.start).getD 0, .duplicate rule.label.name⟩ := by
        unfold collect
        cases RuleSet.empty.insertAll (first :: rest) <;> simp [eq_comm]
      simp only [hcollect, RuleSet.empty_insertAll_eq_error_iff]
      constructor
      · rintro ⟨rule, ⟨before, hfirst⟩, hfinding⟩
        exact .inr ⟨before, rule, hfirst, hfinding⟩
      · rintro (⟨hnil, -⟩ | ⟨before, rule, hfirst, hfinding⟩)
        · exact nomatch hnil
        · exact ⟨rule, ⟨before, hfirst⟩, hfinding⟩

theorem find_eq_error_iff {text : List Char} {finding : Finding} :
    find dialect text = .error finding ↔
      draftsOf dialect text = .error finding ∨
        ∃ rules, draftsOf dialect text = .ok rules ∧ collect rules = .error finding := by
  unfold find
  cases draftsOf dialect text <;> simp

theorem find_eq_ok_iff {text : List Char} :
    find dialect text = .ok set ↔ draftsOf dialect text = .ok set.rules ∧ set.rules ≠ [] := by
  unfold find
  cases draftsOf dialect text with
  | error finding => simp
  | ok found =>
      simp only [collect_eq_ok_iff, Except.ok.injEq]
      constructor
      · rintro ⟨rfl, hne⟩
        exact ⟨rfl, hne⟩
      · rintro ⟨rfl, hne⟩
        exact ⟨rfl, hne⟩

theorem read_eq_ok_iff_find {source : String} :
    read dialect source = .ok set ↔ find dialect source.toList = .ok set := by
  unfold read
  cases find dialect source.toList <;> simp

/-- A text is read as the set of its rules. -/
theorem read_eq_ok_iff_draftsOf {source : String} :
    read dialect source = .ok set ↔
      draftsOf dialect source.toList = .ok set.rules ∧ set.rules ≠ [] :=
  read_eq_ok_iff_find.trans find_eq_ok_iff

/-- The rules of a text are read if their names differ. -/
theorem exists_read_of_draftsOf {source : String}
    (h : draftsOf dialect source.toList = .ok rules) (hne : rules ≠ [])
    (hnames : (rules.map fun rule => rule.label.name).Nodup) :
    ∃ set : RuleSet, read dialect source = .ok set ∧ set.rules = rules :=
  ⟨⟨rules, hnames⟩, read_eq_ok_iff_draftsOf.mpr ⟨h, hne⟩, rfl⟩

theorem read_eq_error_iff {source : String} {rejection : Rejection} :
    read dialect source = .error rejection ↔
      ∃ offset, find dialect source.toList = .error ⟨offset, rejection.complaint⟩ ∧
        rejection = ⟨dialect, Position.ofOffset source.toList offset, rejection.complaint⟩ := by
  unfold read
  cases find dialect source.toList with
  | ok set => simp
  | error finding =>
      obtain ⟨offset, complaint⟩ := finding
      simp only [Except.error.injEq, Finding.mk.injEq]
      constructor
      · rintro rfl
        exact ⟨offset, ⟨rfl, rfl⟩, rfl⟩
      · rintro ⟨_, ⟨rfl, rfl⟩, hrejection⟩
        exact hrejection.symm

theorem read_of_find_error {source : String} {offset : Nat} {complaint : Complaint}
    (h : find dialect source.toList = .error ⟨offset, complaint⟩) :
    read dialect source =
      .error ⟨dialect, Position.ofOffset source.toList offset, complaint⟩ :=
  read_eq_error_iff.mpr ⟨offset, h, rfl⟩

end Grammar

end GrammarTable
