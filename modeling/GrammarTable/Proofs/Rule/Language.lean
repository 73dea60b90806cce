import GrammarTable.Proofs.Tree.Fold
import GrammarTable.Rule.Composite
import Mathlib.Computability.Language

/-!
# What drafts match

The texts that a draft matches when it is known which texts the rules and the patterns stand
for. Some drafts have a leading literal that does not hang on this, and all that they match
starts with it.
-/

namespace GrammarTable.Rule

/-- The texts that rules and patterns stand for, each by its name. -/
structure Meaning where
  reference : String → Language Char
  pattern : String → Language Char

namespace Draft

def language (meaning : Meaning) : Draft → Language Char :=
  Tree.fold fun label _ parts =>
    match label.kind with
    | .terminal => {label.name.toList}
    | .nonTerminal => meaning.reference label.name
    | .pattern => meaning.pattern label.name
    | .rule => parts.prod
    | .sequence => parts.prod
    | .group => parts.prod
    | .choice => parts.sum
    | .optional => 1 + parts.prod
    | .repetition => KStar.kstar parts.prod
    | .repetition1 => parts.prod * KStar.kstar parts.prod
    | .exclusion => parts.headD 0 \ parts.tail.sum

/-- A draft has a leading literal when it is a literal, or when it is a sequence, a group or a
repetition of at least once and its first part has one. -/
inductive Leads (literal : String) : Draft → Prop where
  | terminal {label : MarkedLabel} {children : List Draft} (hkind : label.kind = .terminal)
      (hname : label.name = literal) : Leads literal ⟨label, children⟩
  | first {label : MarkedLabel} {part : Draft} {rest : List Draft}
      (hkind : label.kind ∈ [Kind.sequence, .group, .repetition1]) (hpart : Leads literal part) :
      Leads literal ⟨label, part :: rest⟩

variable {literal : String} {meaning : Meaning} {draft : Draft} {word : List Char}

theorem leadingLiteral_eq_some_iff : leadingLiteral draft = some literal ↔ Leads literal draft := by
  constructor
  · intro h
    fun_induction leadingLiteral draft with
    | case1 label children hkind => exact .terminal hkind (Option.some.inj h)
    | case2 label first rest hkind ih => exact .first (by simp [hkind]) (ih h)
    | case3 label first rest hkind ih => exact .first (by simp [hkind]) (ih h)
    | case4 label first rest hkind ih => exact .first (by simp [hkind]) (ih h)
    | case5 => exact nomatch h
  · intro h
    induction h with
    | terminal hkind hname => simp [leadingLiteral, hkind, hname]
    | first hkind hpart ih =>
        simp only [List.mem_cons, List.not_mem_nil, or_false] at hkind
        rcases hkind with hkind | hkind | hkind <;> simp [leadingLiteral, hkind, ih]

/-- What starts with something of a language in which all starts with a literal does so too. -/
theorem prefix_of_mem_mul {first later : Language Char} {lead : List Char}
    (hfirst : ∀ word ∈ first, lead <+: word) (h : word ∈ first * later) : lead <+: word := by
  obtain ⟨front, hfront, back, -, rfl⟩ := Language.mem_mul.mp h
  exact (hfirst front hfront).trans (List.prefix_append front back)

/-- What a draft with a leading literal matches starts with it. -/
theorem Leads.prefix_of_mem (h : Leads literal draft) :
    ∀ word ∈ language meaning draft, literal.toList <+: word := by
  induction h with
  | @terminal label children hkind hname =>
      intro word hword
      rw [language, Tree.fold_mk, hkind, hname] at hword
      obtain rfl : word = literal.toList := hword
      exact List.prefix_rfl
  | @first label part rest hkind hpart ih =>
      intro word hword
      have hparts : ∀ word ∈ ((part :: rest).map (language meaning)).prod,
          literal.toList <+: word := by
        intro word hword
        rw [List.map_cons, List.prod_cons] at hword
        exact prefix_of_mem_mul ih hword
      rw [language, Tree.fold_mk] at hword
      simp only [List.mem_cons, List.not_mem_nil, or_false] at hkind
      rcases hkind with hkind | hkind | hkind
      · rw [hkind] at hword
        exact hparts word hword
      · rw [hkind] at hword
        exact hparts word hword
      · rw [hkind] at hword
        exact prefix_of_mem_mul hparts hword

end Draft

end GrammarTable.Rule
