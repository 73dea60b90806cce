import GrammarTable.Proofs.Grammar.Script
import GrammarTable.Proofs.Rule.Filled

/-!
# The extent of a rule

Which lexemes of a text belong to a rule shows in its span: in it stand the lexemes that the
rule was derived from, and no others.
-/

namespace GrammarTable

open Rule Text Token

/-! ## The lexemes in a span -/

namespace Token

variable {τ : Type} {low high start stop : Nat} {front inner back : List (Lexeme τ)}

def lexemesIn (span : Span) (lexemes : List (Lexeme τ)) : List (Lexeme τ) :=
  lexemes.filter fun lexeme => span.start ≤ lexeme.span.start ∧ lexeme.span.stop ≤ span.stop

theorem lexemesIn_append (span : Span) (front back : List (Lexeme τ)) :
    lexemesIn span (front ++ back) = lexemesIn span front ++ lexemesIn span back :=
  List.filter_append front back

theorem lexemesIn_eq_nil {span : Span} {lexemes : List (Lexeme τ)}
    (h : ∀ lexeme ∈ lexemes, lexeme.span.start < span.start ∨ span.stop < lexeme.span.stop) :
    lexemesIn span lexemes = [] := by
  apply List.filter_eq_nil_iff.mpr
  intro lexeme hlexeme
  have := h lexeme hlexeme
  rw [decide_eq_true_iff]
  omega

/-- In the span from the start of one lexeme to the end of another stand the lexemes from the
one to the other. -/
theorem lexemesIn_eq (h : Laid low high ((front ++ (inner ++ back)).map Lexeme.span))
    (hstart : StartsAt inner start) (hstop : EndsAt inner stop) :
    lexemesIn ⟨start, stop⟩ (front ++ (inner ++ back)) = inner := by
  rw [List.map_append] at h
  have ⟨_, _, hinner, hback⟩ := laid_of_startsAt h.of_append hstart hstop
  have hfront : Laid low start (front.map Lexeme.span) := by
    have ⟨first, hfirst, hsame⟩ := hstart
    have ⟨later, hlater⟩ := List.head?_eq_some_iff.mp hfirst
    rw [hlater] at h
    exact hsame ▸ h.split.1
  have hbefore : lexemesIn ⟨start, stop⟩ front = [] := by
    apply lexemesIn_eq_nil
    intro lexeme hlexeme
    have hmem : lexeme.span ∈ front.map Lexeme.span := List.mem_map_of_mem hlexeme
    exact .inl (Nat.lt_of_lt_of_le (hfront.pos _ hmem) (hfront.within _ hmem).2)
  have hbehind : lexemesIn ⟨start, stop⟩ back = [] := by
    apply lexemesIn_eq_nil
    intro lexeme hlexeme
    have hmem : lexeme.span ∈ back.map Lexeme.span := List.mem_map_of_mem hlexeme
    exact .inr (Nat.lt_of_le_of_lt (hback.within _ hmem).1 (hback.pos _ hmem))
  have hin : lexemesIn ⟨start, stop⟩ inner = inner := by
    apply List.filter_eq_self.mpr
    intro lexeme hlexeme
    exact decide_eq_true (hinner.within _ (List.mem_map_of_mem hlexeme))
  rw [lexemesIn_append, lexemesIn_append, hbefore, hin, hbehind, List.append_nil,
    List.nil_append]

end Token

/-! ## Rules of a text -/

namespace Grammar

/-- A rule of a text has a derivation whose lexemes stand in the span of the rule. -/
theorem Script.exists_written {τ σ δ : Type} (script : Script τ σ δ) {text : List Char}
    {found : List Draft} (h : script.rulesOf text = .ok found) :
    ∃ lexemes, script.scheme.lexicon.lexemes text = .ok lexemes ∧
      ∀ rule ∈ found, ∃ written span, rule = script.draft written ∧
        rule.label.span = some span ∧ lexemesIn span lexemes = script.lexemesOf written ∧
        NestsWithin script.nesting script.limit? 0 (script.lexemesOf written) := by
  have ⟨lexemes, hlexemes, rules, hrules, hfound⟩ := drafts_eq_ok_iff.mp h
  refine ⟨lexemes, hlexemes, ?_⟩
  rw [← hfound, List.forall_mem_map]
  intro written hwritten
  have ⟨first, hfirst, last, hlast, hspan⟩ := script.span_draft written
  have ⟨_, _, hfits⟩ := script.derives.read_eq_ok_iff.mp
    (script.derives.read_of_mem hrules hwritten)
  have ⟨hyield, _, _⟩ := script.derives.read_eq_ok_iff.mp hrules
  have ⟨before, after, hsplit⟩ := List.append_of_mem hwritten
  have hlaid := (Lexicon.lexes_of_lexemesFrom hlexemes).laid
  rw [← hyield, hsplit, List.flatMap_append, List.flatMap_cons] at hlaid ⊢
  exact ⟨written, _, rfl, hspan, lexemesIn_eq hlaid ⟨first, hfirst, rfl⟩ ⟨last, hlast, rfl⟩, hfits⟩

end Grammar

end GrammarTable
