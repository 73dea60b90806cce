import GrammarTable.Proofs.Bnf.Moved
import GrammarTable.Proofs.Grammar.Scheme
import GrammarTable.Proofs.Iso.Moved
import GrammarTable.Proofs.W3c.Moved

/-!
# What a grammar says

The rules of a grammar, or the complaint about it, hang on its lexemes and not on the bytes
where they stand. Only the position of a complaint does.
-/

namespace GrammarTable.Grammar

open Rule Settings Text Token

def verdictOn (found : Except Finding RuleSet) : Except Complaint (List Node) :=
  (found.map RuleSet.nodes).mapError Finding.complaint

/-- What a text says in a dialect: the nodes of its rules, or the complaint about it. -/
def verdict (dialect : Dialect) (text : List Char) : Except Complaint (List Node) :=
  verdictOn (find dialect text)

/-! ## Moving everything -/

variable {g : Nat → Nat}

theorem complaint_ofFailure_moved {τ : Type} (stop other : Nat) (failure : Failure τ) :
    (Finding.ofFailure stop (failure.moved g)).complaint =
      (Finding.ofFailure other failure).complaint := by
  obtain ⟨cause, rest⟩ := failure
  cases cause <;> cases rest <;> rfl

theorem verdictOn_collect_moved (rules : List Draft) :
    verdictOn (collect (rules.map (Draft.moved g))) = verdictOn (collect rules) := by
  have hempty : (RuleSet.empty).moved g = RuleSet.empty := rfl
  have hinsert := RuleSet.insertAll_moved (g := g) .empty rules
  rw [hempty] at hinsert
  by_cases hrules : rules.isEmpty
  · simp [collect, hrules]
  · simp only [collect, List.isEmpty_map, hrules, hinsert]
    cases RuleSet.empty.insertAll rules with
    | ok set =>
        simp [verdictOn, Except.map, RuleSet.nodes_moved]
    | error rule =>
        simp [verdictOn, Except.map]

/-- The same lexemes give the same drafts, up to their places, or the same complaint. -/
theorem drafts_eq_of_bare {τ σ δ : Type} {lexicon : Lexicon τ} {reader : Reader τ σ (List δ)}
    {draft : δ → Draft} {state : σ → σ} {declaration : δ → δ}
    (moves : reader.Moves (fun _ => 0) state (List.map declaration))
    (drafted : ∀ rule, draft (declaration rule) = (draft rule).moved fun _ => 0)
    {text other : List Char} {lexemes others : List (Lexeme τ)}
    (htext : lexicon.lexemes text = .ok lexemes) (hother : lexicon.lexemes other = .ok others)
    (h : lexemes.map Lexeme.bare = others.map Lexeme.bare) :
    ((drafts lexicon reader draft text).map (List.map (Draft.moved fun _ => 0))).mapError
        Finding.complaint =
      ((drafts lexicon reader draft other).map (List.map (Draft.moved fun _ => 0))).mapError
        Finding.complaint := by
  have hread := moves.read_eq lexemes
  rw [map_moved_eq_of_bare h 0, moves.read_eq others] at hread
  have hdrafts : ∀ rules : List δ,
      (rules.map draft).map (Draft.moved fun _ => 0) = (rules.map declaration).map draft := by
    intro rules
    simp [drafted]
  simp only [drafts, htext, hother]
  cases hfirst : reader.read lexemes with
  | error failure =>
      cases hsecond : reader.read others with
      | error later =>
          simp only [hfirst, hsecond, Except.map, mapError_error, Except.error.injEq] at hread ⊢
          rw [← complaint_ofFailure_moved (g := fun _ => 0) 0, ← hread,
            complaint_ofFailure_moved]
      | ok rules => simp [hfirst, hsecond, Except.map] at hread
  | ok found =>
      cases hsecond : reader.read others with
      | error later => simp [hfirst, hsecond, Except.map] at hread
      | ok rules =>
          simp only [hfirst, hsecond, Except.map, mapError_ok, Except.ok.injEq] at hread ⊢
          rw [hdrafts, hdrafts, hread]

theorem draftsOf_eq_of_bare {dialect : Dialect} {text other : List Char}
    {lexemes others : List (Lexeme (Sign dialect))}
    (htext : (lexicon dialect).lexemes text = .ok lexemes)
    (hother : (lexicon dialect).lexemes other = .ok others)
    (h : lexemes.map Lexeme.bare = others.map Lexeme.bare) :
    ((draftsOf dialect text).map (List.map (Draft.moved fun _ => 0))).mapError
        Finding.complaint =
      ((draftsOf dialect other).map (List.map (Draft.moved fun _ => 0))).mapError
        Finding.complaint := by
  cases dialect with
  | bnf => exact drafts_eq_of_bare Bnf.moves Bnf.Declaration.draft_moved htext hother h
  | w3c => exact drafts_eq_of_bare W3c.moves W3c.Declaration.draft_moved htext hother h
  | iso => exact drafts_eq_of_bare Iso.moves Iso.Declaration.draft_moved htext hother h

/-- Texts with the same lexemes say the same. -/
theorem verdict_eq_of_bare {dialect : Dialect} {text other : List Char}
    {lexemes others : List (Lexeme (Sign dialect))}
    (htext : (lexicon dialect).lexemes text = .ok lexemes)
    (hother : (lexicon dialect).lexemes other = .ok others)
    (h : lexemes.map Lexeme.bare = others.map Lexeme.bare) :
    verdict dialect text = verdict dialect other := by
  have hdrafts := draftsOf_eq_of_bare htext hother h
  rw [verdict, verdict, find, find]
  cases hfirst : draftsOf dialect text with
  | error finding =>
      cases hsecond : draftsOf dialect other with
      | error later =>
          simp only [hfirst, hsecond, Except.map, mapError_error, Except.error.injEq]
            at hdrafts
          simp [verdictOn, Except.map, hdrafts]
      | ok rules => simp [hfirst, hsecond, Except.map] at hdrafts
  | ok found =>
      cases hsecond : draftsOf dialect other with
      | error later => simp [hfirst, hsecond, Except.map] at hdrafts
      | ok rules =>
          simp only [hfirst, hsecond, Except.map, mapError_ok, Except.ok.injEq] at hdrafts
          rw [← verdictOn_collect_moved (g := fun _ => 0) found, hdrafts,
            verdictOn_collect_moved]

/-! ## What is read -/

theorem verdict_eq_ok_iff {dialect : Dialect} {source : String} {nodes : List Node} :
    verdict dialect source.toList = .ok nodes ↔
      ∃ set, read dialect source = .ok set ∧ set.nodes = nodes := by
  unfold verdict verdictOn read
  cases find dialect source.toList with
  | ok set => simp [Except.map]
  | error finding => simp [Except.map]

theorem verdict_eq_error_iff {dialect : Dialect} {source : String} {complaint : Complaint} :
    verdict dialect source.toList = .error complaint ↔
      ∃ position, read dialect source = .error ⟨dialect, position, complaint⟩ := by
  unfold verdict verdictOn read
  cases find dialect source.toList with
  | ok set => simp [Except.map]
  | error finding => simp [Except.map]

theorem exists_lexemes_of_drafts {τ σ δ : Type} {lexicon : Lexicon τ}
    {reader : Reader τ σ (List δ)} {draft : δ → Draft} {text : List Char} {rules : List Draft}
    (h : drafts lexicon reader draft text = .ok rules) :
    ∃ lexemes, lexicon.lexemes text = .ok lexemes := by
  rw [drafts] at h
  cases hlexemes : lexicon.lexemes text with
  | ok lexemes => exact ⟨lexemes, rfl⟩
  | error fault =>
      rw [hlexemes] at h
      exact nomatch h

/-- A grammar that is read has lexemes. -/
theorem exists_lexemes_of_read {dialect : Dialect} {source : String} {set : RuleSet}
    (h : read dialect source = .ok set) :
    ∃ lexemes, (lexicon dialect).lexemes source.toList = .ok lexemes := by
  have hdrafts : ∃ rules, draftsOf dialect source.toList = .ok rules := by
    rw [read, find] at h
    cases hrules : draftsOf dialect source.toList with
    | ok rules => exact ⟨rules, rfl⟩
    | error finding =>
        rw [hrules] at h
        exact nomatch h
  obtain ⟨rules, hrules⟩ := hdrafts
  cases dialect with
  | bnf => exact exists_lexemes_of_drafts hrules
  | w3c => exact exists_lexemes_of_drafts hrules
  | iso => exact exists_lexemes_of_drafts hrules

end GrammarTable.Grammar
