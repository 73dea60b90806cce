import GrammarTable.Grammar.Read
import GrammarTable.Proofs.Rule.Moved
import GrammarTable.Proofs.Token.Derived
import GrammarTable.Proofs.Token.Excerpt
import GrammarTable.Proofs.Token.Word

/-!
# Scripts

What the ways of writing a grammar have in common: a tidy scheme, a reader that finds
derivations wherever the lexemes stand, and rules that reach from their first lexeme to their
last. In a script two texts can be joined, and each rule of a text is a text of its own.
-/

namespace GrammarTable.Grammar

open Rule Settings Text Token

variable {τ σ δ : Type}

/-- A way of writing grammars. -/
structure Script (τ σ δ : Type) where
  scheme : Scheme τ
  reader : Reader τ σ (List δ)
  draft : δ → Draft
  lexemesOf : δ → List (Lexeme τ)
  meets : δ → δ → Prop
  nesting : τ → Int
  limit? : Option Nat
  state : (Nat → Nat) → σ → σ
  moved : (Nat → Nat) → δ → δ
  /-- Which token may end a text when which token starts the next one. -/
  joins : τ → τ → Prop
  tidy : scheme.Tidy
  derives : reader.Derives lexemesOf meets nesting limit?
  moves : ∀ g, reader.Moves g (state g) (List.map (moved g))
  draft_moved : ∀ g rule, draft (moved g rule) = (draft rule).moved g
  span_draft : ∀ rule, ∃ first ∈ (lexemesOf rule).head?, ∃ last ∈ (lexemesOf rule).getLast?,
    (draft rule).label.span = some ⟨first.span.start, last.span.stop⟩
  meets_moved : ∀ g rule other,
    (∀ last ∈ (lexemesOf rule).getLast?, ∀ first ∈ (lexemesOf other).head?,
      joins last.token first.token) → meets rule (moved g other)

/-- A text has rules when it has lexemes and these have a derivation. -/
theorem drafts_eq_ok_iff {lexicon : Lexicon τ} {reader : Reader τ σ (List δ)}
    {draft : δ → Draft} {text : List Char} {found : List Draft} :
    drafts lexicon reader draft text = .ok found ↔
      ∃ lexemes, lexicon.lexemes text = .ok lexemes ∧
        ∃ rules, reader.read lexemes = .ok rules ∧ rules.map draft = found := by
  unfold drafts
  cases lexicon.lexemes text with
  | error fault => simp
  | ok lexemes =>
      cases hread : reader.read lexemes <;> simp [hread]

/-- What holds of all rules of each notation holds of the rules of a text. -/
theorem forall_of_draftsOf {p : Dialect → Draft → Prop}
    (hbnf : ∀ rule : Bnf.Declaration, p .bnf rule.draft)
    (hw3c : ∀ rule : W3c.Declaration, p .w3c rule.draft)
    (hiso : ∀ rule : Iso.Declaration, p .iso rule.draft) {dialect : Dialect} {text : List Char}
    {found : List Draft} (h : draftsOf dialect text = .ok found) :
    ∀ rule ∈ found, p dialect rule := by
  cases dialect with
  | bnf =>
      obtain ⟨_, -, rules, -, rfl⟩ := drafts_eq_ok_iff.mp h
      exact List.forall_mem_map.mpr fun rule _ => hbnf rule
  | w3c =>
      obtain ⟨_, -, rules, -, rfl⟩ := drafts_eq_ok_iff.mp h
      exact List.forall_mem_map.mpr fun rule _ => hw3c rule
  | iso =>
      obtain ⟨_, -, rules, -, rfl⟩ := drafts_eq_ok_iff.mp h
      exact List.forall_mem_map.mpr fun rule _ => hiso rule

namespace Script

variable (script : Script τ σ δ) {text front back : List Char} {found others : List Draft}

def rulesOf : List Char → Except Finding (List Draft) :=
  drafts script.scheme.lexicon script.reader script.draft

variable {script}

/-- Rules are read wherever their lexemes stand. -/
theorem read_moved_iff {g : Nat → Nat} {lexemes : List (Lexeme τ)} {rules : List δ} :
    script.reader.read (lexemes.map (Lexeme.moved g)) = .ok rules ↔
      ∃ own, script.reader.read lexemes = .ok own ∧ own.map (script.moved g) = rules := by
  rw [(script.moves g).read_eq]
  cases script.reader.read lexemes <;> simp [Except.map]

theorem map_draft_moved (g : Nat → Nat) (rules : List δ) :
    (rules.map (script.moved g)).map script.draft =
      (rules.map script.draft).map (Draft.moved g) := by
  simp [script.draft_moved]

/-- A text that is put behind another one and a line feed adds its rules, each as far from
its place as the text is. -/
theorem rulesOf_join {lexemes behind : List (Lexeme τ)}
    (hlexemes : script.scheme.lexicon.lexemes front = .ok lexemes)
    (hbehind : script.scheme.lexicon.lexemes back = .ok behind)
    (hjoins : ∀ last ∈ lexemes.getLast?, ∀ first ∈ behind.head?,
      script.joins last.token first.token)
    (hfront : script.rulesOf front = .ok found) (hback : script.rulesOf back = .ok others) :
    script.rulesOf (front ++ '\n' :: back) =
      .ok (found ++ others.map (Draft.moved (· + (byteLength front + 1)))) := by
  obtain ⟨_, hsame, rules, hrules, rfl⟩ := drafts_eq_ok_iff.mp hfront
  obtain rfl := Except.ok.inj (hlexemes.symm.trans hsame)
  obtain ⟨_, hsame', later, hlater, rfl⟩ := drafts_eq_ok_iff.mp hback
  obtain rfl := Except.ok.inj (hbehind.symm.trans hsame')
  have hmoved : script.reader.read (behind.map (Lexeme.moved (· + (byteLength front + 1)))) =
      .ok (later.map (script.moved (· + (byteLength front + 1)))) :=
    read_moved_iff.mpr ⟨later, hlater, rfl⟩
  have hread := script.derives.read_append hrules hmoved ?_
  · refine drafts_eq_ok_iff.mpr ⟨_, script.tidy.lexemes_join hlexemes hbehind, _, hread, ?_⟩
    rw [List.map_append, map_draft_moved]
  · intro rule hrule other hother
    rw [List.head?_map] at hother
    obtain ⟨next, hnext, rfl⟩ := Option.map_eq_some_iff.mp hother
    refine script.meets_moved _ _ _ fun last hlast first hfirst => hjoins last ?_ first ?_
    · exact script.derives.mem_getLast?_of_read hrules hrule hlast
    · exact script.derives.mem_head?_of_read hlater hnext hfirst

/-- What stands at the span of a rule is that rule alone, as far from its own start as the
rule is from the start of the text. -/
theorem exists_rulesOf_slice (h : script.rulesOf text = .ok found) {rule : Draft}
    (hmem : rule ∈ found) :
    ∃ span, rule.label.span = some span ∧ ∃ part, Slice text span part ∧
      ∃ alone, script.rulesOf part = .ok [alone] ∧ rule = alone.moved (· + span.start) := by
  obtain ⟨lexemes, hlexemes, rules, hrules, rfl⟩ := drafts_eq_ok_iff.mp h
  obtain ⟨written, hwritten, rfl⟩ := List.mem_map.mp hmem
  have halone := script.derives.read_of_mem hrules hwritten
  obtain ⟨before, after, rfl⟩ := List.append_of_mem hwritten
  obtain ⟨rfl, -, -⟩ := script.derives.read_eq_ok_iff.mp hrules
  obtain ⟨first, hfirst, last, hlast, hspan⟩ := script.span_draft written
  rw [List.flatMap_append, List.flatMap_cons] at hlexemes
  obtain ⟨part, own, hslice, hown, hmoved⟩ := script.tidy.exists_excerpt hlexemes hfirst hlast
  rw [← hmoved] at halone
  obtain ⟨read, hread, hsame⟩ := read_moved_iff.mp halone
  obtain ⟨inner, rfl, hinner⟩ := List.map_eq_singleton_iff.mp hsame
  refine ⟨_, hspan, part, hslice, script.draft inner,
    drafts_eq_ok_iff.mpr ⟨own, hown, [inner], hread, rfl⟩, ?_⟩
  rw [← hinner, script.draft_moved]

/-- Words with blanks between them are the rules that they are read as, wherever these stand. -/
theorem exists_rulesOf_spaced (script : Script τ σ δ) {lead : List Char}
    {written : List (Written τ)} {rules : List δ} (hspaced : Spaced lead written)
    (hwhole : ∀ one ∈ written, script.scheme.lexicon.Whole one.word)
    (hread : script.reader.read (written.map fun one => one.word.lexeme) = .ok rules) :
    ∃ found, script.rulesOf (lead ++ Written.textOf written) = .ok found ∧
      found.map (Draft.moved fun _ => 0) = rules.map script.draft := by
  have hlaid := Scheme.laidOut_of_spaced hspaced hwhole
  have hlexemes := script.tidy.lexemesFrom_laidOut hlaid 0
  rw [← map_moved_lexemesAt (0 + byteLength lead)] at hread
  obtain ⟨own, hown, rfl⟩ := read_moved_iff.mp hread
  refine ⟨own.map script.draft, drafts_eq_ok_iff.mpr ⟨_, hlexemes, own, hown, rfl⟩, ?_⟩
  rw [map_draft_moved]

end Script

end GrammarTable.Grammar
