import GrammarTable.Proofs.Plain.Writing

/-!
# The phrases of productions

Each notation has phrases for the items of an alternative and for the alternatives of a rule.
They grow at the end, part by part, as the rows of a production do. So there is a phrase for
whatever is written, with the drafts of its parts.
-/

namespace GrammarTable.Plain

open Rule Text Token

variable {τ ι φ ψ : Type}

/-- How phrases of a kind are made of lexemes, and which drafts they stand for. -/
structure Phrasing (τ φ : Type) where
  lexemes : φ → List (Lexeme τ)
  /-- The drafts of the parts, in front of others. -/
  draftsOnto : φ → List Draft → List Draft
  start : φ → Nat
  stop : φ → Nat

namespace Phrasing

variable {items : Phrasing τ ι} {terms : Phrasing τ φ} {bodies : Phrasing τ ψ}
  {manner : Manner τ} {owner : String}

/-- The phrase has these words and these parts, and stands nowhere. -/
structure Says (terms : Phrasing τ φ) (words : List (Word τ)) (parts : List Draft)
    (phrase : φ) : Prop where
  lexemes : terms.lexemes phrase = words.map Word.lexeme
  draftsOnto : ∀ later, terms.draftsOnto phrase later = parts ++ later
  start : terms.start phrase = 0
  stop : terms.stop phrase = 0

/-- Phrases are parts in a row, with a joint between two. -/
structure RowsOf (terms : Phrasing τ φ) (items : Phrasing τ ι) (joints : List (List (Word τ))) :
    Prop where
  exists_one : ∀ item, ∃ phrase, terms.lexemes phrase = items.lexemes item ∧
    (∀ later, terms.draftsOnto phrase later = items.draftsOnto item later) ∧
    terms.start phrase = items.start item ∧ terms.stop phrase = items.stop item
  exists_snoc : ∀ before, ∀ joint ∈ joints, ∀ item, ∃ phrase,
    terms.lexemes phrase =
      terms.lexemes before ++ (joint.map Word.lexeme ++ items.lexemes item) ∧
    (∀ later, terms.draftsOnto phrase later =
      terms.draftsOnto before (items.draftsOnto item later)) ∧
    terms.start phrase = terms.start before ∧ terms.stop phrase = items.stop item

theorem RowsOf.exists_says {α : Type} {each : α → List (Word τ) → Prop} {draft : α → Draft}
    {joints : List (List (Word τ))} (rows : terms.RowsOf items joints)
    (heach : ∀ a words, each a words → ∃ item, items.Says words [draft a] item)
    {row : Row α} {words : List (Word τ)} (h : Row.Written each joints row words) :
    ∃ phrase, terms.Says words (row.toList.map draft) phrase := by
  induction h with
  | one hlast =>
      obtain ⟨item, hitem⟩ := heach _ _ hlast
      obtain ⟨phrase, hlexemes, hdrafts, hstart, hstop⟩ := rows.exists_one item
      exact ⟨phrase, hlexemes.trans hitem.lexemes,
        fun later => (hdrafts later).trans (hitem.draftsOnto later),
        hstart.trans hitem.start, hstop.trans hitem.stop⟩
  | @snoc front last _ joint _ hfront hjoint hlast ih =>
      obtain ⟨before, hbefore⟩ := ih
      obtain ⟨item, hitem⟩ := heach _ _ hlast
      obtain ⟨phrase, hlexemes, hdrafts, hstart, hstop⟩ := rows.exists_snoc before joint hjoint item
      refine ⟨phrase, ?_, ?_, hstart.trans hbefore.start, hstop.trans hitem.stop⟩
      · rw [hlexemes, hbefore.lexemes, hitem.lexemes, List.map_append, List.map_append]
      · intro later
        rw [hdrafts, hbefore.draftsOnto, hitem.draftsOnto, Row.toList, List.map_append,
          List.append_assoc]
        rfl

def sequenced (terms : Phrasing τ φ) (owner : String) : Phrasing τ φ where
  lexemes := terms.lexemes
  draftsOnto phrase later :=
    Draft.sequence owner ⟨terms.start phrase, terms.stop phrase⟩ (terms.draftsOnto phrase []) ::
      later
  start := terms.start
  stop := terms.stop

theorem Says.sequenced {words : List (Word τ)} {row : Row Item} {phrase : φ}
    (h : terms.Says words (row.toList.map Item.draft) phrase) (owner : String) :
    (terms.sequenced owner).Says words [alternativeDraft owner row] phrase where
  lexemes := h.lexemes
  draftsOnto later := by
    simp only [Phrasing.sequenced, h.start, h.stop, h.draftsOnto, List.append_nil]
    rfl
  start := h.start
  stop := h.stop

theorem Says.rule_eq {words : List (Word τ)} {production : Production} {body : ψ} {stop : Nat}
    (h : bodies.Says words
      (production.alternatives.toList.map (alternativeDraft production.name.text)) body)
    (hstop : stop = 0) :
    Draft.rule production.name.text ⟨0, stop⟩
        (Draft.choice production.name.text ⟨bodies.start body, bodies.stop body⟩
          (bodies.draftsOnto body [])) =
      production.draft := by
  rw [hstop, h.start, h.stop, h.draftsOnto, List.append_nil]
  rfl

structure Covers (manner : Manner τ) (owner : String) (items : Phrasing τ ι)
    (terms : Phrasing τ φ) (bodies : Phrasing τ ψ) : Prop where
  exists_item : ∀ item words, Item.Written manner item words →
    ∃ phrase, items.Says words [item.draft] phrase
  terms_of_items : terms.RowsOf items manner.joints
  bodies_of_terms : bodies.RowsOf (terms.sequenced owner) [[manner.bar]]

theorem Covers.exists_body (covers : Covers manner owner items terms bodies)
    {alternatives : Row (Row Item)} {words : List (Word τ)}
    (h : Body.Written manner alternatives words) :
    ∃ body, bodies.Says words (alternatives.toList.map (alternativeDraft owner)) body := by
  refine covers.bodies_of_terms.exists_says ?_ h
  intro row words hwritten
  obtain ⟨phrase, hsays⟩ := covers.terms_of_items.exists_says covers.exists_item hwritten
  exact ⟨phrase, hsays.sequenced owner⟩

end Phrasing

end GrammarTable.Plain
