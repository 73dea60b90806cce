import GrammarTable.Proofs.Grammar.Origin
import GrammarTable.Proofs.Text.Trimmed
import GrammarTable.Proofs.Token.Word

/-!
# Names written back

The name of a node, written in the notation of its dialect, is one lexeme again, with the token
that the name comes from. Trimming leaves nothing of a name of BNF that is made of blanks, and
nothing cannot be written between angle brackets: this is the one name that does not come back.
-/

namespace GrammarTable

open Rule Settings Text Token

/-! ## Pieces of tokens -/

namespace Token

variable {τ : Type} {scheme : Scheme τ} {offset : Nat} {cs : List Char}
  {lexemes : List (Lexeme τ)}

/-- The text of a lexeme is that lexeme as a whole. -/
theorem Scheme.Tidy.whole_of_lexes (tidy : scheme.Tidy)
    (h : scheme.lexicon.Lexes offset cs lexemes) :
    ∀ lexeme ∈ lexemes, scheme.lexicon.Whole ⟨lexeme.token, lexeme.text.toList⟩ := by
  induction h with
  | nil offset => exact nofun
  | skip hcut later ih => exact ih
  | @token offset c front rest lexemes token hcut later ih =>
      intro lexeme hlexeme
      cases List.mem_cons.mp hlexeme with
      | inl hfirst =>
          have halone : scheme.lexicon.cut c (front ++ []) = .ok ⟨front.length, some token⟩ :=
            tidy.cut_append hcut nofun
          rw [List.append_nil] at halone
          rw [hfirst, String.toList_ofList]
          exact Lexicon.whole_of_cut halone
      | inr hlater => exact ih lexeme hlater

theorem between_enclosed (opening closing : Char) (body : List Char) :
    between (opening :: (body ++ [closing])) = body := by
  simp [between]

end Token

/-! ## Names of BNF -/

namespace Bnf

/-- A name is what trimming leaves of the text between the brackets. -/
theorem name_of_piece : ∀ entry ∈ scheme.tokens, ∀ piece, entry.shape.Piece piece →
    ∀ token ∈ entry.token? piece, ∀ name, token.value = some ⟨.nonTerminal, name⟩ →
      token = .name name ∧ name.toList = trimChars (between piece) ∧
        ∀ c ∈ between piece, isNameChar c = true := by
  have hname : ∀ piece, (Shape.enclosed '<' isNameChar '>' 1).Piece piece →
      ∀ c ∈ between piece, isNameChar c = true := by
    intro piece hpiece
    have ⟨body, hbody, hinside, _⟩ := hpiece
    rw [hbody, between_enclosed]
    exact hinside
  have htrim : ∀ piece, (trim (String.ofList (between piece))).toList = trimChars (between piece) :=
    fun piece => by simp [trim]
  simpa [scheme, lexicon, Entry.sign, Entry.enclosing, Sign.value, htrim] using hname

/-- Between angle brackets any name can stand but the empty one. -/
theorem whole_name_iff {name : String} (htrimmed : trimChars name.toList = name.toList)
    (hinside : ∀ c ∈ name.toList, isNameChar c = true) :
    scheme.lexicon.Whole (.enclosed '<' '>' .name name) ↔ name ≠ "" := by
  constructor
  · intro hwhole hempty
    rw [hempty] at hwhole
    have hstuck : scheme.lexicon.lexemes ['<', '>'] = .error (0, .unexpectedCharacter '<') :=
      Lexicon.lexemesFrom_of_error 0 rfl
    exact nomatch hstuck.symm.trans hwhole
  · intro hne
    have owns : scheme.Owns (.enclosing (.enclosed '<' isNameChar '>' 1) fun text =>
        .name (Text.trim text)) '<' := .of_filter rfl nofun
    apply owns.whole_enclosed hinside _ rfl
    · rw [trim, htrimmed, String.ofList_toList]
    · apply List.length_pos_iff.mpr
      intro hnil
      exact hne (String.toList_eq_nil_iff.mp hnil)

end Bnf

/-! ## Literals -/

namespace Grammar

variable {dialect : Dialect}

def literalSign : (dialect : Dialect) → String → Sign dialect
  | .bnf => Bnf.Sign.literal
  | .w3c => W3c.Sign.literal
  | .iso => Iso.Sign.literal

/-- Which characters may stand between quotes, beside the quotes. -/
def mayBeQuoted : Dialect → Char → Bool
  | .bnf => isInline
  | .w3c => fun _ => true
  | .iso => isInline

def quotedEntry (dialect : Dialect) (quote : Char) : Entry (Sign dialect) :=
  .enclosing (.quoted quote (mayBeQuoted dialect)) (literalSign dialect)

theorem owns_quote {quote : Char} (hquote : quote = '"' ∨ quote = '\'') :
    (scheme dialect).Owns (quotedEntry dialect quote) quote := by
  cases hquote with
  | inl hdouble =>
      rw [hdouble]
      cases dialect with
      | bnf => exact .of_filter rfl (by decide)
      | w3c => exact .of_filter rfl (by decide)
      | iso => exact .of_filter rfl (by decide)
  | inr hsingle =>
      rw [hsingle]
      cases dialect with
      | bnf => exact .of_filter rfl (by decide)
      | w3c => exact .of_filter rfl (by decide)
      | iso => exact .of_filter rfl (by decide)

theorem whole_literal {text : String} {quote : Char} (hquote : quote = '"' ∨ quote = '\'')
    (hfree : quote ∉ text.toList) (hinside : ∀ c ∈ text.toList, mayBeQuoted dialect c = true) :
    (scheme dialect).lexicon.Whole (.enclosed quote quote (literalSign dialect) text) :=
  (owns_quote hquote).whole_quoted hfree hinside

structure Quotable (dialect : Dialect) (text : String) : Prop where
  exists_quote : ∃ quote, (quote = '"' ∨ quote = '\'') ∧ quote ∉ text.toList
  inside : ∀ c ∈ text.toList, mayBeQuoted dialect c = true

theorem quotable_between (dialect : Dialect) {quote : Char} (hquote : quote = '"' ∨ quote = '\'')
    (piece : List Char) (h : (Shape.quoted quote (mayBeQuoted dialect)).Piece piece) :
    Quotable dialect (String.ofList (between piece)) := by
  have ⟨body, hbody, hquoted, _⟩ := h
  have hboth : ∀ c ∈ body, c ≠ quote ∧ mayBeQuoted dialect c = true := by
    intro c hc
    simpa using hquoted c hc
  rw [hbody, between_enclosed]
  constructor
  · refine ⟨quote, hquote, ?_⟩
    rw [String.toList_ofList]
    exact fun hmem => (hboth quote hmem).1 rfl
  · rw [String.toList_ofList]
    exact fun c hc => (hboth c hc).2

theorem quotable_of_piece (dialect : Dialect) : ∀ entry ∈ (scheme dialect).tokens, ∀ piece,
    entry.shape.Piece piece → ∀ token ∈ entry.token? piece, ∀ text,
      valueOf dialect token = some ⟨.terminal, text⟩ →
        token = literalSign dialect text ∧ Quotable dialect text := by
  have hdouble := quotable_between dialect (.inl rfl)
  have hsingle := quotable_between dialect (.inr rfl)
  cases dialect with
  | bnf =>
      show ∀ entry ∈ Bnf.scheme.tokens, ∀ piece, entry.shape.Piece piece →
        ∀ token ∈ entry.token? piece, ∀ text, Bnf.Sign.value token = some ⟨.terminal, text⟩ →
          token = Bnf.Sign.literal text ∧ Quotable .bnf text
      simpa [Bnf.scheme, Bnf.lexicon, Entry.sign, Entry.enclosing, Bnf.Sign.value,
        mayBeQuoted] using And.intro hdouble hsingle
  | w3c =>
      show ∀ entry ∈ W3c.scheme.tokens, ∀ piece, entry.shape.Piece piece →
        ∀ token ∈ entry.token? piece, ∀ text, W3c.Sign.value token = some ⟨.terminal, text⟩ →
          token = W3c.Sign.literal text ∧ Quotable .w3c text
      simpa [W3c.scheme, W3c.lexicon, Entry.sign, Entry.carrying, Entry.enclosing,
        W3c.Sign.value, mayBeQuoted] using And.intro hdouble hsingle
  | iso =>
      show ∀ entry ∈ Iso.scheme.tokens, ∀ piece, entry.shape.Piece piece →
        ∀ token ∈ entry.token? piece, ∀ text, Iso.Sign.value token = some ⟨.terminal, text⟩ →
          token = Iso.Sign.literal text ∧ Quotable .iso text
      simpa [Iso.scheme, Iso.lexicon, Entry.sign, Entry.carrying, Entry.enclosing,
        Iso.Sign.value, mayBeQuoted] using And.intro hdouble hsingle

/-! ## Names written back -/

/-- How the name of a node is written: a literal between quotes that it does not hold, a name of
BNF between angle brackets, and any other name or pattern as it is. -/
inductive Spells (dialect : Dialect) (name : String) : Kind → List Char → Prop where
  | quoted {quote : Char} (hquote : quote = '"' ∨ quote = '\'') (hfree : quote ∉ name.toList) :
      Spells dialect name .terminal (quote :: (name.toList ++ [quote]))
  | bracketed {kind : Kind} (hkind : kind = .rule ∨ kind = .nonTerminal)
      (hdialect : dialect = .bnf) :
      Spells dialect name kind ('<' :: (name.toList ++ ['>']))
  | bare {kind : Kind} (hkind : kind = .rule ∨ kind = .nonTerminal) (hdialect : dialect ≠ .bnf) :
      Spells dialect name kind name.toList
  | pattern : Spells dialect name .pattern name.toList

/-- A name can be written, and what is written is one lexeme with the token again, unless the
name is made of blanks only and nothing is left of it. -/
structure Respelled (dialect : Dialect) (kind : Kind) (name : String)
    (origin : Lexeme (Sign dialect)) : Prop where
  exists_spelling : ∃ text, Spells dialect name kind text
  whole_iff : ∀ text, Spells dialect name kind text →
    ((lexicon dialect).Whole ⟨origin.token, text⟩ ↔ kind = .terminal ∨ name ≠ "")
  blank : kind ≠ .terminal → name = "" →
    dialect = .bnf ∧ ∀ c ∈ between origin.text.toList, isBlank c = true

section Lexed

variable {offset : Nat} {cs : List Char} {lexemes : List (Lexeme (Sign dialect))}
  {origin : Lexeme (Sign dialect)} {name : String}

theorem respelled_literal (h : (scheme dialect).lexicon.Lexes offset cs lexemes)
    (hmem : origin ∈ lexemes) (hvalue : valueOf dialect origin.token = some ⟨.terminal, name⟩) :
    Respelled dialect .terminal name origin := by
  have ⟨entry, hentry, hpiece, htoken⟩ := Scheme.exists_entry_of_lexes h origin hmem
  have ⟨hsign, hquotable⟩ := quotable_of_piece dialect entry hentry _ hpiece _ htoken _ hvalue
  constructor
  · have ⟨quote, hquote, hfree⟩ := hquotable.exists_quote
    exact ⟨_, .quoted hquote hfree⟩
  · intro text hspells
    cases hspells with
    | quoted hquote hfree =>
        have hwhole := whole_literal hquote hfree hquotable.inside
        rw [← lexicon_eq] at hwhole
        rw [hsign]
        exact iff_of_true hwhole (.inl rfl)
    | bracketed hkind hdialect => simp at hkind
    | bare hkind hdialect => simp at hkind
  · exact fun hkind => absurd rfl hkind

theorem leafName_eq_self {kind : Kind} (hkind : kind ≠ .terminal)
    (hname : dialect = .bnf → kind ≠ .nonTerminal) (piece : String) :
    leafName dialect kind piece = piece := by
  cases dialect <;> cases kind <;> simp_all [leafName]

/-- Where a name is the text of its lexeme, it is that lexeme again. -/
theorem respelled_bare {kind : Kind} (h : (scheme dialect).lexicon.Lexes offset cs lexemes)
    (hmem : origin ∈ lexemes) (hvalue : valueOf dialect origin.token = some ⟨kind, name⟩)
    (hkind : kind = .pattern ∨ dialect ≠ .bnf ∧ kind = .nonTerminal) :
    Respelled dialect kind name origin := by
  have ⟨entry, hentry, _, htoken⟩ := Scheme.exists_entry_of_lexes h origin hmem
  have hterminal : kind ≠ .terminal := by
    intro heq
    simp [heq] at hkind
  have hbnf : dialect = .bnf → kind ≠ .nonTerminal := by
    intro hdialect heq
    simp [hdialect, heq] at hkind
  have hname : name = origin.text := by
    have hleaf : name = leafName dialect kind (String.ofList origin.text.toList) :=
      named dialect entry hentry _ _ htoken _ hvalue
    rw [hleaf, leafName_eq_self hterminal hbnf, String.ofList_toList]
  have hwhole : (lexicon dialect).Whole ⟨origin.token, name.toList⟩ := by
    rw [lexicon_eq, hname]
    exact (tidy dialect).whole_of_lexes h origin hmem
  have hne : name ≠ "" := by
    have ⟨c, front, hcons, _⟩ := Lexicon.cut_of_whole hwhole
    intro hempty
    rw [hempty] at hcons
    exact nomatch hcons
  constructor
  · cases hkind with
    | inl hpattern =>
        rw [hpattern]
        exact ⟨_, .pattern⟩
    | inr hother => exact ⟨_, .bare (.inr hother.2) hother.1⟩
  · intro text hspells
    cases hspells with
    | quoted hquote hfree => exact absurd rfl hterminal
    | bracketed hnamed hdialect =>
        have hrule : kind ≠ .rule := by
          intro heq
          simp [heq] at hkind
        simp [hrule, hbnf hdialect] at hnamed
    | bare hnamed hdialect => exact iff_of_true hwhole (.inr hne)
    | pattern => exact iff_of_true hwhole (.inr hne)
  · exact fun _ hempty => absurd hempty hne

end Lexed

/-- A name of BNF is the lexeme between its brackets, unless it is empty. -/
theorem respelled_bracketed {offset : Nat} {cs : List Char} {lexemes : List (Lexeme Bnf.Sign)}
    {origin : Lexeme Bnf.Sign} {name : String} (h : Bnf.scheme.lexicon.Lexes offset cs lexemes)
    (hmem : origin ∈ lexemes) (hvalue : origin.token.value = some ⟨.nonTerminal, name⟩) :
    Respelled .bnf .nonTerminal name origin := by
  have ⟨entry, hentry, hpiece, htoken⟩ := Scheme.exists_entry_of_lexes h origin hmem
  have ⟨hsign, hname, hinside⟩ := Bnf.name_of_piece entry hentry _ hpiece _ htoken _ hvalue
  constructor
  · exact ⟨_, .bracketed (.inr rfl) rfl⟩
  · intro text hspells
    cases hspells with
    | bracketed hkind hdialect =>
        have htrimmed : trimChars name.toList = name.toList := by
          rw [hname, trimChars_trimChars]
        have hchars : ∀ c ∈ name.toList, Bnf.isNameChar c = true := by
          rw [hname]
          exact fun c hc => hinside c (mem_of_mem_trimChars hc)
        have hwhole : Bnf.scheme.lexicon.Whole (.enclosed '<' '>' .name name) ↔ name ≠ "" :=
          Bnf.whole_name_iff htrimmed hchars
        rw [hsign]
        exact hwhole.trans ⟨.inr, fun h => h.resolve_left nofun⟩
    | bare hkind hdialect => exact absurd rfl hdialect
  · intro _ hempty
    rw [hempty] at hname
    exact ⟨rfl, trimChars_eq_nil_iff.mp hname.symm⟩

/-! ## Rules and references -/

theorem spells_rule_iff {name : String} {text : List Char} :
    Spells dialect name .rule text ↔ Spells dialect name .nonTerminal text := by
  constructor
  · intro h
    cases h with
    | bracketed hkind hdialect => exact .bracketed (.inr rfl) hdialect
    | bare hkind hdialect => exact .bare (.inr rfl) hdialect
  · intro h
    cases h with
    | bracketed hkind hdialect => exact .bracketed (.inl rfl) hdialect
    | bare hkind hdialect => exact .bare (.inl rfl) hdialect

/-- A rule is named as a reference to it is. -/
theorem Respelled.rule {name : String} {origin : Lexeme (Sign dialect)}
    (h : Respelled dialect .nonTerminal name origin) : Respelled dialect .rule name origin := by
  constructor
  · have ⟨text, htext⟩ := h.exists_spelling
    exact ⟨text, spells_rule_iff.mpr htext⟩
  · intro text htext
    simpa using h.whole_iff text (spells_rule_iff.mp htext)
  · exact fun _ => h.blank nofun

theorem respelled_reference {offset : Nat} {cs : List Char}
    {lexemes : List (Lexeme (Sign dialect))} {origin : Lexeme (Sign dialect)} {name : String}
    (h : (scheme dialect).lexicon.Lexes offset cs lexemes) (hmem : origin ∈ lexemes)
    (hvalue : valueOf dialect origin.token = some ⟨.nonTerminal, name⟩) :
    Respelled dialect .nonTerminal name origin := by
  cases dialect with
  | bnf => exact respelled_bracketed h hmem hvalue
  | w3c => exact respelled_bare h hmem hvalue (.inr ⟨nofun, rfl⟩)
  | iso => exact respelled_bare h hmem hvalue (.inr ⟨nofun, rfl⟩)

theorem NamedBy.respelled {offset : Nat} {cs : List Char}
    {lexemes : List (Lexeme (Sign dialect))} {node : Draft} {origin : Lexeme (Sign dialect)}
    (h : (scheme dialect).lexicon.Lexes offset cs lexemes)
    (hnamed : NamedBy dialect lexemes node origin) :
    Respelled dialect node.label.kind node.label.name origin := by
  have hmem : origin ∈ lexemes := hnamed.mem
  cases hnamed with
  | rule hkind hspan hdefine hfront hvalue =>
      rw [hkind]
      exact (respelled_reference h hmem hvalue).rule
  | leaf hkind _ hvalue hspan =>
      have hlabel : valueOf dialect origin.token = some ⟨node.label.kind, node.label.name⟩ :=
        hvalue
      have hleaves : node.label.kind = .terminal ∨ node.label.kind = .nonTerminal ∨
          node.label.kind = .pattern := by
        simpa [Kind.leaves] using hkind
      rcases hleaves with heq | heq | heq
      · rw [heq] at hlabel ⊢
        exact respelled_literal h hmem hlabel
      · rw [heq] at hlabel ⊢
        exact respelled_reference h hmem hlabel
      · rw [heq] at hlabel ⊢
        exact respelled_bare h hmem hlabel (.inl rfl)

/-- Every name of a grammar, written back in its notation, is the one lexeme that it comes from,
but for names of BNF that are made of blanks. -/
theorem names_respelled {source : String} {set : RuleSet} (h : read dialect source = .ok set) :
    ∃ lexemes, (lexicon dialect).lexemes source.toList = .ok lexemes ∧
      ∀ rule ∈ set.rules, ∀ node : Draft, node.Within rule → node.label.kind ∈ namedKinds →
        ∃ origin, NamedBy dialect lexemes node origin ∧
          Respelled dialect node.label.kind node.label.name origin := by
  have ⟨hdrafts, _⟩ := read_eq_ok_iff_draftsOf.mp h
  have ⟨lexemes, hlexemes, horigin⟩ := exists_origin_of_draftsOf hdrafts
  refine ⟨lexemes, lexicon_eq dialect ▸ hlexemes, ?_⟩
  intro rule hrule node hnode hkind
  have ⟨origin, hnamed⟩ := horigin rule hrule node hnode hkind
  exact ⟨origin, hnamed, hnamed.respelled (Lexicon.lexes_of_lexemesFrom hlexemes)⟩

/-- Names, a literal and operators stand in `a ::= (b | 'c')* - d e`. -/
theorem names_respelled_starred :
    read .w3c "a ::= (b | 'c')* - d e" = .ok starredSet ∧
      ∃ lexemes, (lexicon .w3c).lexemes "a ::= (b | 'c')* - d e".toList = .ok lexemes ∧
        ∀ rule ∈ starredSet.rules, ∀ node : Draft, node.Within rule →
          node.label.kind ∈ namedKinds →
            ∃ origin, NamedBy .w3c lexemes node origin ∧
              Respelled .w3c node.label.kind node.label.name origin :=
  ⟨read_starred, names_respelled read_starred⟩

/-- The rule of `< > ::= 'x'`. Of its name trimming leaves nothing. -/
def blankSet : RuleSet where
  rules := [.composite .rule "" ⟨0, 11⟩ [.leaf .terminal "x" ⟨8, 11⟩]]
  names_nodup := by decide

/-- A name of blanks is accepted, and the empty name that is left of it is no lexeme. -/
theorem blank_name_lost :
    read .bnf "< > ::= 'x'" = .ok blankSet ∧ blankSet.names = [""] ∧
      ∀ token, ¬ (lexicon .bnf).Whole ⟨token, "<>".toList⟩ := by
  have hlexemes : Bnf.lexicon.lexemes "< > ::= 'x'".toList =
      .ok [⟨.name "", "< >", ⟨0, 3⟩⟩, ⟨.define, "::=", ⟨4, 7⟩⟩,
        ⟨.literal "x", "'x'", ⟨8, 11⟩⟩] := by
    decide +kernel
  have hdrafts : draftsOf .bnf "< > ::= 'x'".toList = .ok blankSet.rules :=
    drafts_eq_ok_iff.mpr ⟨_, hlexemes, _, rfl, rfl⟩
  refine ⟨read_eq_ok_iff_draftsOf.mpr ⟨hdrafts, List.cons_ne_nil _ _⟩, rfl, ?_⟩
  intro token hwhole
  have hstuck : Bnf.lexicon.lexemes "<>".toList = .error (0, .unexpectedCharacter '<') := by
    decide +kernel
  exact nomatch hstuck.symm.trans hwhole

end Grammar

end GrammarTable
