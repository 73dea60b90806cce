import GrammarTable.Proofs.Bnf.Leaves
import GrammarTable.Proofs.Grammar.Joined
import GrammarTable.Proofs.Iso.Leaves
import GrammarTable.Proofs.Iso.Script
import GrammarTable.Proofs.Token.Relined
import GrammarTable.Proofs.W3c.Leaves

/-!
# Where the rules of a grammar stand

Each node of what is read knows the bytes that it was read from, and these lie in the bytes
of the node above it. From left to right the leaves are the names, literals, patterns and
labels of the text, but for those in front of the sign of definition.
-/

namespace GrammarTable.Grammar

open Rule Settings Text Token

/-! ## Scripts -/

section Scripts

variable {τ σ δ : Type} {script : Script τ σ δ} {value : τ → Option Label}
  {headOf bodyOf : δ → List (Lexeme τ)} {text : List Char} {lexemes : List (Lexeme τ)}
  {low high : Nat}

/-- The lexemes of a rule are those of its head and those that its children stand over. -/
structure Script.Leaves (script : Script τ σ δ) (value : τ → Option Label)
    (headOf bodyOf : δ → List (Lexeme τ)) : Prop where
  lexemes_eq : ∀ rule, script.lexemesOf rule = headOf rule ++ bodyOf rule
  fills : ∀ rule, Fills value (bodyOf rule) (script.draft rule).children
  children_ne_nil : ∀ rule, (script.draft rule).children ≠ []

theorem Script.exists_slice (script : Script τ σ δ)
    (h : script.scheme.lexicon.lexemes text = .ok lexemes) {inner : List (Lexeme τ)}
    (hinner : inner <:+: lexemes) :
    ∀ first ∈ inner.head?, ∀ last ∈ inner.getLast?,
      ∃ part, Slice text ⟨first.span.start, last.span.stop⟩ part := by
  intro first hfirst last hlast
  obtain ⟨front, back, rfl⟩ := hinner
  rw [List.append_assoc] at h
  obtain ⟨part, -, hslice, -⟩ := script.tidy.exists_excerpt h hfirst hlast
  exact ⟨part, hslice⟩

/-- The rules of a text lie one behind the other. -/
theorem Script.laid_rules (script : Script τ σ δ) {rules : List δ}
    (h : Laid low high ((rules.flatMap script.lexemesOf).map Lexeme.span)) :
    ∃ spans, rules.map (fun rule => (script.draft rule).label.span) = spans.map some ∧
      Laid low high spans := by
  induction rules generalizing low with
  | nil => exact ⟨[], rfl, h⟩
  | cons rule rest ih =>
      obtain ⟨first, hfirst, last, hlast, hspan⟩ := script.span_draft rule
      rw [List.flatMap_cons] at h
      obtain ⟨hlow, hpos, -, hrest⟩ :=
        laid_of_startsAt h ⟨first, hfirst, rfl⟩ ⟨last, hlast, rfl⟩
      obtain ⟨spans, hspans, hlater⟩ := ih hrest
      refine ⟨⟨first.span.start, last.span.stop⟩ :: spans, ?_, hlow, hpos, hlater⟩
      rw [List.map_cons, List.map_cons, hspan, hspans]

theorem Script.Leaves.throughout (leaves : script.Leaves value headOf bodyOf) {rules : List δ}
    (h : script.scheme.lexicon.lexemes text = .ok (rules.flatMap script.lexemesOf)) :
    ∀ rule ∈ rules, (script.draft rule).Throughout (MarkedLabel.Spanned text) := by
  intro rule hrule
  obtain ⟨before, after, rfl⟩ := List.append_of_mem hrule
  have hlaid := (Lexicon.lexes_of_lexemesFrom h).laid
  rw [List.flatMap_append, List.flatMap_cons] at h hlaid
  rw [List.map_append] at hlaid
  obtain ⟨first, hfirst, last, hlast, hspan⟩ := script.span_draft rule
  have hstart : StartsAt (script.lexemesOf rule) first.span.start := ⟨first, hfirst, rfl⟩
  have hstop : EndsAt (script.lexemesOf rule) last.span.stop := ⟨last, hlast, rfl⟩
  obtain ⟨-, -, hown, -⟩ := laid_of_startsAt hlaid.of_append hstart hstop
  rw [leaves.lexemes_eq] at h hstart hstop hown
  refine (leaves.fills rule).throughout_rule hspan hstart hstop hown fun inner hinner => ?_
  refine script.exists_slice h (hinner.trans ?_)
  exact ⟨before.flatMap script.lexemesOf, after.flatMap script.lexemesOf, List.append_assoc _ _ _⟩

end Scripts

/-! ## The signs of a dialect -/

def defineSign : (dialect : Dialect) → Sign dialect
  | .bnf => Bnf.Sign.define
  | .w3c => W3c.Sign.define
  | .iso => Iso.Sign.define

def isNumber : (dialect : Dialect) → Sign dialect → Bool
  | .bnf, _ => false
  | .w3c, sign => W3c.Sign.isLabel sign
  | .iso, _ => false

def valueOf : (dialect : Dialect) → Sign dialect → Option Label
  | .bnf => Bnf.Sign.value
  | .w3c => W3c.Sign.value
  | .iso => Iso.Sign.value

/-- The name of a leaf, from the piece of text that it was read from: a literal without its
quotes, a name of BNF without its brackets and the blanks inside them, else the piece. -/
def leafName : Dialect → Kind → String → String
  | _, .terminal, piece => String.ofList (between piece.toList)
  | .bnf, .nonTerminal, piece => trim (String.ofList (between piece.toList))
  | _, _, piece => piece

def leafOf (dialect : Dialect) (lexeme : Lexeme (Sign dialect)) : Option MarkedLabel :=
  (valueOf dialect lexeme.token).map fun label =>
    { kind := label.kind, name := leafName dialect label.kind lexeme.text,
      span := some lexeme.span }

def Named {τ : Type} (value : τ → Option Label) (name : Kind → String → String)
    (entry : Entry τ) : Prop :=
  ∀ piece, ∀ token ∈ entry.token? piece, ∀ label ∈ value token,
    label.name = name label.kind (String.ofList piece)

theorem named (dialect : Dialect) :
    ∀ entry ∈ (scheme dialect).tokens, Named (valueOf dialect) (leafName dialect) entry := by
  cases dialect with
  | bnf =>
      show ∀ entry ∈ Bnf.scheme.tokens, Named Bnf.Sign.value (leafName .bnf) entry
      simp [Named, Bnf.scheme, Bnf.lexicon, Entry.sign, Entry.enclosing, Bnf.Sign.value, leafName]
  | w3c =>
      show ∀ entry ∈ W3c.scheme.tokens, Named W3c.Sign.value (leafName .w3c) entry
      simp [Named, W3c.scheme, W3c.lexicon, Entry.sign, Entry.carrying, Entry.enclosing,
        W3c.Sign.value, leafName]
  | iso =>
      show ∀ entry ∈ Iso.scheme.tokens, Named Iso.Sign.value (leafName .iso) entry
      simp [Named, Iso.scheme, Iso.lexicon, Entry.sign, Entry.carrying, Entry.enclosing,
        Iso.Sign.value, leafName]

theorem leafOf_eq_of_lexes {dialect : Dialect} {offset : Nat} {cs : List Char}
    {lexemes : List (Lexeme (Sign dialect))}
    (h : (scheme dialect).lexicon.Lexes offset cs lexemes) :
    ∀ lexeme ∈ lexemes, leaf? (valueOf dialect) lexeme = leafOf dialect lexeme := by
  intro lexeme hlexeme
  obtain ⟨entry, hentry, -, htoken⟩ := Scheme.exists_entry_of_lexes h lexeme hlexeme
  have hname := named dialect entry hentry _ _ htoken
  rw [String.ofList_toList] at hname
  unfold leaf? leafOf
  cases hvalue : valueOf dialect lexeme.token with
  | none => rfl
  | some label => simp [← hname label hvalue]

/-! ## Passages -/

/-- The lexemes of one rule: up to the sign of definition, and behind it. -/
structure Passage (τ : Type) where
  head : List (Lexeme τ)
  body : List (Lexeme τ)

def Passage.lexemes {τ : Type} (passage : Passage τ) : List (Lexeme τ) :=
  passage.head ++ passage.body

/-- A rule is read from a passage. The name in the head is that of the rule, behind a number
or not, and the leaves of the rule are those of the body. -/
structure Passage.Makes (dialect : Dialect) (passage : Passage (Sign dialect)) (rule : Draft) :
    Prop where
  head_eq : ∃ (number? : Option (Lexeme (Sign dialect))) (name define : Lexeme (Sign dialect)),
    passage.head = number?.toList ++ [name, define] ∧
      (∀ number ∈ number?, isNumber dialect number.token = true) ∧
      leafOf dialect name =
        some { kind := .nonTerminal, name := rule.label.name, span := some name.span } ∧
      define.token = defineSign dialect
  body_ne : ∀ lexeme ∈ passage.body, lexeme.token ≠ defineSign dialect
  span_eq : ∃ first ∈ passage.head.head?, ∃ last ∈ passage.body.getLast?,
    rule.label.span = some ⟨first.span.start, last.span.stop⟩
  leaves_eq : rule.leaves.map MarkedLabel.unmarked = passage.body.filterMap (leafOf dialect)

/-- What the rules of a text say about its bytes. -/
structure Faithful (dialect : Dialect) (text : List Char)
    (lexemes : List (Lexeme (Sign dialect))) (rules : List Draft) : Prop where
  pieces : ∀ lexeme ∈ lexemes, Slice text lexeme.span lexeme.text.toList
  nodes : ∀ rule ∈ rules, rule.Throughout (MarkedLabel.Spanned text)
  in_order : ∃ spans : List Span,
    rules.map (fun rule => rule.label.span) = spans.map some ∧
      spans.IsChain fun first second => first.stop ≤ second.start
  passages : ∃ passages, lexemes = passages.flatMap Passage.lexemes ∧
    List.Forall₂ (Passage.Makes dialect) passages rules

theorem slice_of_lexes {τ : Type} {lexicon : Lexicon τ} {offset : Nat} {cs : List Char}
    {lexemes : List (Lexeme τ)} (h : lexicon.Lexes offset cs lexemes) :
    ∀ lexeme ∈ lexemes, ∃ before behind, cs = before ++ (lexeme.text.toList ++ behind) ∧
      offset + byteLength before = lexeme.span.start ∧
      offset + byteLength (before ++ lexeme.text.toList) = lexeme.span.stop := by
  induction h with
  | nil offset => exact nofun
  | @skip offset c front rest lexemes hcut later ih =>
      intro lexeme hlexeme
      obtain ⟨before, behind, rfl, hstart, hstop⟩ := ih lexeme hlexeme
      refine ⟨c :: front ++ before, behind, (List.append_assoc _ _ _).symm, ?_, ?_⟩
      · rw [← hstart, byteLength_append, Nat.add_assoc]
      · rw [← hstop, List.append_assoc, byteLength_append (c :: front), Nat.add_assoc]
  | @token offset c front rest lexemes token hcut later ih =>
      intro lexeme hlexeme
      rcases List.mem_cons.mp hlexeme with rfl | hlexeme
      · exact ⟨[], rest, by simp, rfl, by simp⟩
      · obtain ⟨before, behind, rfl, hstart, hstop⟩ := ih lexeme hlexeme
        refine ⟨c :: front ++ before, behind, (List.append_assoc _ _ _).symm, ?_, ?_⟩
        · rw [← hstart, byteLength_append, Nat.add_assoc]
        · rw [← hstop, List.append_assoc, byteLength_append (c :: front), Nat.add_assoc]

theorem slice_of_lexemes {τ : Type} {lexicon : Lexicon τ} {text : List Char}
    {lexemes : List (Lexeme τ)} (h : lexicon.lexemes text = .ok lexemes) :
    ∀ lexeme ∈ lexemes, Slice text lexeme.span lexeme.text.toList := by
  intro lexeme hlexeme
  simpa [Slice] using slice_of_lexes (Lexicon.lexes_of_lexemesFrom h) lexeme hlexeme

/-! ## The scripts of the dialects -/

section Dialects

variable {dialect : Dialect} {σ δ : Type} {script : Script (Sign dialect) σ δ}
  {headOf bodyOf : δ → List (Lexeme (Sign dialect))} {text : List Char} {found : List Draft}

/-- How the lexemes of a rule fall into those of its head and those of its body. -/
structure Script.Heads (script : Script (Sign dialect) σ δ)
    (headOf bodyOf : δ → List (Lexeme (Sign dialect))) : Prop where
  leaves : script.Leaves (valueOf dialect) headOf bodyOf
  head_eq : ∀ rule, ∃ (number? : Option (Lexeme (Sign dialect)))
    (name define : Lexeme (Sign dialect)),
    headOf rule = number?.toList ++ [name, define] ∧
      (∀ number ∈ number?, isNumber dialect number.token = true) ∧
      valueOf dialect name.token = some ⟨.nonTerminal, (script.draft rule).label.name⟩ ∧
      define.token = defineSign dialect
  body_ne : ∀ rule, ∀ lexeme ∈ bodyOf rule, lexeme.token ≠ defineSign dialect

theorem Script.Heads.makes (heads : script.Heads headOf bodyOf) {rule : δ}
    (hleaf : ∀ lexeme ∈ script.lexemesOf rule,
      leaf? (valueOf dialect) lexeme = leafOf dialect lexeme) :
    Passage.Makes dialect ⟨headOf rule, bodyOf rule⟩ (script.draft rule) := by
  have hfills := heads.leaves.fills rule
  have hchildren := heads.leaves.children_ne_nil rule
  rw [heads.leaves.lexemes_eq] at hleaf
  obtain ⟨number?, name, define, hhead, hnumber, hname, hdefine⟩ := heads.head_eq rule
  refine ⟨⟨number?, name, define, hhead, hnumber, ?_, hdefine⟩, heads.body_ne rule, ?_, ?_⟩
  · have hmem : name ∈ headOf rule ++ bodyOf rule := by simp [hhead]
    rw [← hleaf name hmem, leaf?, hname]
    rfl
  · obtain ⟨first, hfirst, last, hlast, hspan⟩ := script.span_draft rule
    rw [heads.leaves.lexemes_eq] at hfirst hlast
    have hne : headOf rule ≠ [] := by simp [hhead]
    rw [List.head?_append_of_ne_nil _ hne] at hfirst
    rw [List.getLast?_append_of_ne_nil _ (hfills.ne_nil hchildren)] at hlast
    exact ⟨first, hfirst, last, hlast, hspan⟩
  · rw [Tree.leaves_of_ne_nil hchildren, hfills.leaves_eq]
    exact List.filterMap_congr fun lexeme hlexeme => hleaf lexeme (List.mem_append_right _ hlexeme)

theorem Script.Heads.faithful (heads : script.Heads headOf bodyOf)
    (hscheme : script.scheme = Grammar.scheme dialect) (h : script.rulesOf text = .ok found) :
    ∃ lexemes, (lexicon dialect).lexemes text = .ok lexemes ∧
      Faithful dialect text lexemes found := by
  obtain ⟨lexemes, hlexemes, rules, hrules, rfl⟩ := drafts_eq_ok_iff.mp h
  obtain ⟨rfl, -, -⟩ := script.derives.read_eq_ok_iff.mp hrules
  have hlexes := Lexicon.lexes_of_lexemesFrom hlexemes
  refine ⟨rules.flatMap script.lexemesOf, ?_, ⟨slice_of_lexemes hlexemes, ?_, ?_, ?_⟩⟩
  · rw [lexicon_eq, ← hscheme]
    exact hlexemes
  · rw [List.forall_mem_map]
    exact heads.leaves.throughout hlexemes
  · obtain ⟨spans, hspans, hlaid⟩ := script.laid_rules hlexes.laid
    exact ⟨spans, by rw [List.map_map]; exact hspans, hlaid.isChain⟩
  · refine ⟨rules.map fun rule => ⟨headOf rule, bodyOf rule⟩, ?_, ?_⟩
    · rw [List.flatMap_map, funext heads.leaves.lexemes_eq]
      rfl
    · rw [List.forall₂_map_left_iff, List.forall₂_map_right_iff, List.forall₂_same]
      intro rule hrule
      rw [hscheme] at hlexes
      refine heads.makes fun lexeme hlexeme => leafOf_eq_of_lexes hlexes lexeme ?_
      exact List.mem_flatMap.mpr ⟨rule, hrule, hlexeme⟩

end Dialects

theorem heads_bnf : @Script.Heads .bnf _ _ Bnf.script Bnf.Declaration.headLexemes
    fun declaration => declaration.body.lexemes where
  leaves := ⟨Bnf.Declaration.lexemes_eq, Bnf.Declaration.fills, Bnf.Declaration.children_ne_nil⟩
  head_eq _ := ⟨none, _, _, rfl, nofun, rfl, rfl⟩
  body_ne declaration := declaration.body.ne_define

theorem heads_w3c : @Script.Heads .w3c _ _ W3c.script W3c.Declaration.headLexemes
    fun declaration => declaration.body.lexemes where
  leaves := ⟨W3c.Declaration.lexemes_eq, W3c.Declaration.fills, W3c.Declaration.children_ne_nil⟩
  head_eq declaration := by
    refine ⟨declaration.label?.map fun label => label.as (.label label.token), _, _, rfl, ?_, rfl,
      rfl⟩
    intro number hnumber
    obtain ⟨label, -, rfl⟩ := Option.map_eq_some_iff.mp hnumber
    rfl
  body_ne declaration := declaration.body.ne_define

theorem heads_iso : @Script.Heads .iso _ _ Iso.script Iso.Declaration.headLexemes
    Iso.Declaration.bodyLexemes where
  leaves := ⟨Iso.Declaration.lexemes_eq, Iso.Declaration.fills, Iso.Declaration.children_ne_nil⟩
  head_eq _ := ⟨none, _, _, rfl, nofun, rfl, rfl⟩
  body_ne declaration := by
    refine List.forall_mem_append.mpr ⟨declaration.body.ne_define, ?_⟩
    exact List.forall_mem_singleton.mpr nofun

/-- Spans are faithful, and no lexeme is lost or found twice. -/
theorem faithful_of_read {dialect : Dialect} {source : String} {set : RuleSet}
    (h : read dialect source = .ok set) :
    ∃ lexemes, (lexicon dialect).lexemes source.toList = .ok lexemes ∧
      Faithful dialect source.toList lexemes set.rules := by
  obtain ⟨hrules, -⟩ := read_eq_ok_iff_draftsOf.mp h
  cases dialect with
  | bnf => exact heads_bnf.faithful rfl hrules
  | w3c => exact heads_w3c.faithful rfl hrules
  | iso => exact heads_iso.faithful rfl hrules

/-- In `[1] a ::= b [2]` the first label numbers the rule, the second is a leaf. -/
theorem faithful_numbered :
    read .w3c "[1] a ::= b [2]" = .ok numberedSet ∧
      ∃ lexemes, (lexicon .w3c).lexemes "[1] a ::= b [2]".toList = .ok lexemes ∧
        Faithful .w3c "[1] a ::= b [2]".toList lexemes numberedSet.rules :=
  ⟨read_numbered, faithful_of_read read_numbered⟩

end GrammarTable.Grammar
