import GrammarTable.Proofs.Token.Run
import Mathlib.Data.List.Chain

/-!
# Readers that find derivations

In each notation the rules read are the only ones that are made of the lexemes and that meet
as the notation wants it. So what is read of lexemes can be put together, and taken apart,
rule by rule.
-/

namespace GrammarTable.Token

variable {τ σ δ : Type}

/-- A reader finds rules exactly when they are made of the lexemes, one behind the other, each
rule meets the next one as it should and brackets nest within the limit. -/
structure Reader.Derives (reader : Reader τ σ (List δ)) (lexemesOf : δ → List (Lexeme τ))
    (meets : δ → δ → Prop) (nesting : τ → Int) (limit? : Option Nat) : Prop where
  read_eq_ok_iff : ∀ {lexemes : List (Lexeme τ)} {rules : List δ},
    reader.read lexemes = .ok rules ↔
      rules.flatMap lexemesOf = lexemes ∧ rules.IsChain meets ∧
        NestsWithin nesting limit? 0 lexemes
  /-- A rule closes all brackets that it opens. -/
  depthBehind_eq : ∀ (rule : δ) (depth : Int), depthBehind nesting depth (lexemesOf rule) = depth

namespace Reader.Derives

variable {reader : Reader τ σ (List δ)} {lexemesOf : δ → List (Lexeme τ)}
  {meets : δ → δ → Prop} {nesting : τ → Int} {limit? : Option Nat}
  {front back : List (Lexeme τ)} {rules others : List δ}
  (derives : reader.Derives lexemesOf meets nesting limit?)
include derives

theorem depthBehind_flatMap (rules : List δ) (depth : Int) :
    depthBehind nesting depth (rules.flatMap lexemesOf) = depth := by
  induction rules with
  | nil => rfl
  | cons rule rest ih =>
      rw [List.flatMap_cons, depthBehind_append, derives.depthBehind_eq, ih]

/-- Behind each other, lexemes are read as they are alone, where the rules meet as they
should. -/
theorem read_append (hfront : reader.read front = .ok rules)
    (hback : reader.read back = .ok others)
    (hmeets : ∀ rule ∈ rules.getLast?, ∀ other ∈ others.head?, meets rule other) :
    reader.read (front ++ back) = .ok (rules ++ others) := by
  obtain ⟨rfl, hchain, hfits⟩ := derives.read_eq_ok_iff.mp hfront
  obtain ⟨rfl, hchain', hfits'⟩ := derives.read_eq_ok_iff.mp hback
  refine derives.read_eq_ok_iff.mpr ⟨List.flatMap_append, ?_, nestsWithin_append.mpr ⟨hfits, ?_⟩⟩
  · exact List.isChain_append.mpr ⟨hchain, hchain', hmeets⟩
  · rwa [derives.depthBehind_flatMap]

/-- The lexemes of one rule are read as that rule. -/
theorem read_of_mem (h : reader.read front = .ok rules) {rule : δ} (hmem : rule ∈ rules) :
    reader.read (lexemesOf rule) = .ok [rule] := by
  obtain ⟨before, after, rfl⟩ := List.append_of_mem hmem
  obtain ⟨rfl, -, hfits⟩ := derives.read_eq_ok_iff.mp h
  refine derives.read_eq_ok_iff.mpr ⟨List.flatMap_singleton .., .singleton rule, ?_⟩
  rw [List.flatMap_append, nestsWithin_append, derives.depthBehind_flatMap, List.flatMap_cons,
    nestsWithin_append] at hfits
  exact hfits.2.1

/-- The first lexeme of the first rule is the first of all. -/
theorem mem_head?_of_read (h : reader.read front = .ok rules) {rule : δ}
    (hrule : rule ∈ rules.head?) {first : Lexeme τ} (hfirst : first ∈ (lexemesOf rule).head?) :
    first ∈ front.head? := by
  obtain ⟨later, rfl⟩ := List.head?_eq_some_iff.mp hrule
  obtain ⟨rfl, -, -⟩ := derives.read_eq_ok_iff.mp h
  rw [List.flatMap_cons, List.head?_append, Option.mem_def.mp hfirst]
  rfl

/-- The last lexeme of the last rule is the last of all. -/
theorem mem_getLast?_of_read (h : reader.read front = .ok rules) {rule : δ}
    (hrule : rule ∈ rules.getLast?) {last : Lexeme τ}
    (hlast : last ∈ (lexemesOf rule).getLast?) : last ∈ front.getLast? := by
  obtain ⟨earlier, rfl⟩ := List.getLast?_eq_some_iff.mp hrule
  obtain ⟨rfl, -, -⟩ := derives.read_eq_ok_iff.mp h
  rw [List.flatMap_append, List.flatMap_singleton, List.getLast?_append,
    Option.mem_def.mp hlast]
  rfl

end Reader.Derives

/-! ## Lexemes without brackets -/

section Level

variable {nesting : τ → Int} {limit? : Option Nat} {depth : Int} {lexemes : List (Lexeme τ)}

theorem depthBehind_of_level (h : ∀ lexeme ∈ lexemes, nesting lexeme.token = 0) :
    depthBehind nesting depth lexemes = depth := by
  induction lexemes with
  | nil => rfl
  | cons lexeme rest ih =>
      rw [depthBehind, h lexeme List.mem_cons_self, Int.add_zero]
      exact ih fun other hother => h other (List.mem_cons_of_mem lexeme hother)

theorem nestsWithin_of_level (h : ∀ lexeme ∈ lexemes, nesting lexeme.token = 0)
    (hdepth : ∀ limit ∈ limit?, depth ≤ (limit : Nat)) :
    NestsWithin nesting limit? depth lexemes := by
  induction lexemes with
  | nil => exact hdepth
  | cons lexeme rest ih =>
      refine ⟨hdepth, ?_⟩
      rw [h lexeme List.mem_cons_self, Int.add_zero]
      exact ih fun other hother => h other (List.mem_cons_of_mem lexeme hother)

end Level

/-! ## Where lexemes end -/

def EndsAt (lexemes : List (Lexeme τ)) (stop : Nat) : Prop :=
  ∃ last ∈ lexemes.getLast?, last.span.stop = stop

theorem EndsAt.append {back : List (Lexeme τ)} {stop : Nat} (h : EndsAt back stop)
    (front : List (Lexeme τ)) : EndsAt (front ++ back) stop := by
  obtain ⟨last, hlast, hstop⟩ := h
  refine ⟨last, ?_, hstop⟩
  rw [List.getLast?_append, Option.mem_def.mp hlast]
  rfl

theorem endsAt_append_singleton (front : List (Lexeme τ)) (last : Lexeme τ) :
    EndsAt (front ++ [last]) last.span.stop :=
  ⟨last, List.getLast?_concat, rfl⟩

end GrammarTable.Token
