import GrammarTable.Proofs.Grammar.Script
import GrammarTable.Proofs.Plain.Production
import GrammarTable.Proofs.Token.Layout
import GrammarTable.Proofs.Token.Word

/-!
# Writing productions

A manner says which words stand for the parts of productions. A text is written in a
manner when it has these words in order, with blanks between them. All productions can
be written so, and where the manner suits a script, the text is read as they say.
-/

namespace GrammarTable.Plain

open Grammar Rule Text Token

variable {τ σ δ : Type}

/-! ## Manners -/

/-- The words for the parts of productions. -/
structure Manner (τ : Type) where
  name : String → Word τ
  /-- A literal between two quotes of one kind. -/
  literal : Char → String → Word τ
  define : Word τ
  bar : Word τ
  /-- What may stand between two items. -/
  joints : List (List (Word τ))
  /-- What stands at the end of a rule. -/
  ending : List (Word τ)

def Manner.signs (manner : Manner τ) : List (Word τ) :=
  manner.define :: manner.bar :: (manner.joints.flatten ++ manner.ending)

variable {manner : Manner τ}

inductive Item.Written (manner : Manner τ) : Item → List (Word τ) → Prop where
  | reference (name : Name) : Written manner (.reference name) [manner.name name.text]
  | literal (quoted : Literal) {quote : Char} (hquote : quote = '"' ∨ quote = '\'')
      (hfree : quote ∉ quoted.text.toList) :
      Written manner (.literal quoted) [manner.literal quote quoted.text]

/-- Things in order, each written as it may be, with a joint between two. -/
inductive Row.Written {α : Type} (each : α → List (Word τ) → Prop)
    (joints : List (List (Word τ))) : Row α → List (Word τ) → Prop where
  | one {last : α} {words : List (Word τ)} (hlast : each last words) :
      Written each joints (.one last) words
  | snoc {before : Row α} {last : α} {front joint words : List (Word τ)}
      (hbefore : Written each joints before front) (hjoint : joint ∈ joints)
      (hlast : each last words) :
      Written each joints (.snoc before last) (front ++ (joint ++ words))

def Alternative.Written (manner : Manner τ) : Row Item → List (Word τ) → Prop :=
  Row.Written (Item.Written manner) manner.joints

def Body.Written (manner : Manner τ) : Row (Row Item) → List (Word τ) → Prop :=
  Row.Written (Alternative.Written manner) [[manner.bar]]

def Production.Written (manner : Manner τ) (production : Production)
    (words : List (Word τ)) : Prop :=
  ∃ body, Body.Written manner production.alternatives body ∧
    words = manner.name production.name.text :: manner.define :: (body ++ manner.ending)

def Productions.Written (manner : Manner τ) (productions : Productions) (text : List Char) : Prop :=
  ∃ lines lead written, List.Forall₂ (Production.Written manner) productions.list lines ∧
    lines.flatten = written.map Token.Written.word ∧ Spaced lead written ∧
    text = lead ++ Token.Written.textOf written

/-! ## Names and literals as words -/

section Whole

variable {scheme : Scheme τ} {token : String → τ}

/-- A name is one lexeme where words may hold hyphens. -/
theorem Name.whole (tidy : scheme.Tidy) {more : Char → Bool}
    (hentry : .carrying (.word isWordStart more) token ∈ scheme.lexicon.entries)
    (hmore : ∀ c, (isWordPart c || c == '-') = true → more c = true)
    (hcomment : ∀ comment ∈ scheme.comment?, isWordStart comment.opener.1 = false) (name : Name) :
    scheme.lexicon.Whole (.bare token name.text) := by
  obtain ⟨c, rest, htext, hstart, hrest⟩ := name.exists_eq_cons
  have hother : ∀ comment ∈ scheme.comment?, comment.opener.1 ≠ c := by
    rintro comment hmem rfl
    exact absurd (hstart.symm.trans (hcomment comment hmem)) (by decide)
  exact (tidy.owns hentry rfl hstart hother).whole_bare htext hstart fun d hd =>
    hmore d (hrest d hd)

/-- A literal is one lexeme where quotes may hold anything on one line. -/
theorem Literal.whole {inside : Char → Bool}
    (double : scheme.Owns (.enclosing (.quoted '"' inside) token) '"')
    (single : scheme.Owns (.enclosing (.quoted '\'' inside) token) '\'')
    (hinside : ∀ c, isInline c = true → inside c = true) (quoted : Literal) {quote : Char}
    (hquote : quote = '"' ∨ quote = '\'') (hfree : quote ∉ quoted.text.toList) :
    scheme.lexicon.Whole (.enclosed quote quote token quoted.text) := by
  have hall : ∀ c ∈ quoted.text.toList, inside c = true :=
    fun c hc => hinside c (quoted.inline c hc)
  rcases hquote with rfl | rfl
  · exact double.whole_quoted hfree hall
  · exact single.whole_quoted hfree hall

end Whole

/-! ## Productions can be written -/

theorem Item.exists_written (manner : Manner τ) (item : Item) :
    ∃ words, Item.Written manner item words := by
  cases item with
  | reference name => exact ⟨_, .reference name⟩
  | literal quoted =>
      rcases quoted.quotable with hfree | hfree
      · exact ⟨_, .literal quoted (.inl rfl) hfree⟩
      · exact ⟨_, .literal quoted (.inr rfl) hfree⟩

theorem Row.exists_written {α : Type} {each : α → List (Word τ) → Prop}
    {joint : List (Word τ)} {joints : List (List (Word τ))} (heach : ∀ a, ∃ words, each a words)
    (hjoint : joint ∈ joints) (row : Row α) : ∃ words, Row.Written each joints row words := by
  induction row with
  | one last =>
      obtain ⟨words, hwords⟩ := heach last
      exact ⟨words, .one hwords⟩
  | snoc before last ih =>
      obtain ⟨front, hfront⟩ := ih
      obtain ⟨words, hwords⟩ := heach last
      exact ⟨_, .snoc hfront hjoint hwords⟩

theorem Production.exists_written {joint : List (Word τ)} (hjoint : joint ∈ manner.joints)
    (production : Production) : ∃ words, Production.Written manner production words := by
  have halternative : ∀ items, ∃ words, Alternative.Written manner items words :=
    Row.exists_written (Item.exists_written manner) hjoint
  obtain ⟨body, hbody⟩ : ∃ body, Body.Written manner production.alternatives body :=
    Row.exists_written halternative (List.mem_singleton_self _) production.alternatives
  exact ⟨_, body, hbody, rfl⟩

def blanked (word : Word τ) : Token.Written τ :=
  ⟨word.token, word.text, [' ']⟩

theorem spaced_map_blanked (words : List (Word τ)) : Spaced [] (words.map blanked) := by
  refine spaced_of_forall (List.forall_mem_nil _) (List.forall_mem_map.mpr fun word _ => ?_)
  exact ⟨List.cons_ne_nil _ _, List.forall_mem_singleton.mpr (by decide)⟩

theorem Productions.exists_written {joint : List (Word τ)} (hjoint : joint ∈ manner.joints)
    (productions : Productions) : ∃ text, productions.Written manner text := by
  choose words hwords using Production.exists_written hjoint
  have hlines : List.Forall₂ (Production.Written manner) productions.list
      (productions.list.map words) := by
    refine List.forall₂_map_right_iff.mpr (List.forall₂_same.mpr ?_)
    exact fun production _ => hwords production
  refine ⟨_, _, [], _, hlines, ?_, spaced_map_blanked (productions.list.map words).flatten, rfl⟩
  rw [List.map_map]
  exact (List.map_id _).symm

/-! ## The words of a rule -/

structure Manner.All (manner : Manner τ) (P : Word τ → Prop) : Prop where
  name : ∀ name : Name, P (manner.name name.text)
  literal : ∀ (quoted : Literal) (quote : Char), quote = '"' ∨ quote = '\'' →
    quote ∉ quoted.text.toList → P (manner.literal quote quoted.text)
  sign : ∀ word ∈ manner.signs, P word

section Words

variable {P : Word τ → Prop}

theorem Item.Written.forall_mem (all : manner.All P) {item : Item} {words : List (Word τ)}
    (h : Item.Written manner item words) : ∀ word ∈ words, P word := by
  cases h with
  | reference name => exact List.forall_mem_singleton.mpr (all.name name)
  | literal quoted hquote hfree =>
      exact List.forall_mem_singleton.mpr (all.literal quoted _ hquote hfree)

theorem Row.Written.forall_mem {α : Type} {each : α → List (Word τ) → Prop}
    {joints : List (List (Word τ))} {row : Row α} {words : List (Word τ)}
    (h : Row.Written each joints row words)
    (heach : ∀ a words, each a words → ∀ word ∈ words, P word)
    (hjoints : ∀ word ∈ joints.flatten, P word) : ∀ word ∈ words, P word := by
  induction h with
  | one hlast => exact heach _ _ hlast
  | @snoc before last front joint words hbefore hjoint hlast ih =>
      have hbetween : ∀ word ∈ joint, P word :=
        fun word hword => hjoints word (List.mem_flatten.mpr ⟨joint, hjoint, hword⟩)
      exact List.forall_mem_append.mpr
        ⟨ih, List.forall_mem_append.mpr ⟨hbetween, heach last words hlast⟩⟩

theorem Production.Written.forall_mem (all : manner.All P) {production : Production}
    {words : List (Word τ)} (h : Production.Written manner production words) :
    ∀ word ∈ words, P word := by
  obtain ⟨body, hbody, rfl⟩ := h
  obtain ⟨hdefine, hsigns⟩ := List.forall_mem_cons.mp all.sign
  obtain ⟨hbar, hsigns⟩ := List.forall_mem_cons.mp hsigns
  obtain ⟨hjoints, hending⟩ := List.forall_mem_append.mp hsigns
  have hitems : ∀ items words, Alternative.Written manner items words → ∀ word ∈ words, P word :=
    fun _ _ hitems => Row.Written.forall_mem hitems (fun _ _ => Item.Written.forall_mem all) hjoints
  have hbody := Row.Written.forall_mem hbody hitems (List.forall_mem_singleton.mpr hbar)
  refine List.forall_mem_cons.mpr ⟨all.name production.name, List.forall_mem_cons.mpr ⟨hdefine, ?_⟩⟩
  exact List.forall_mem_append.mpr ⟨hbody, hending⟩

theorem forall_mem_lines (all : manner.All P) {list : List Production}
    {lines : List (List (Word τ))} (h : List.Forall₂ (Production.Written manner) list lines) :
    ∀ word ∈ lines.flatten, P word := by
  induction h with
  | nil => exact nofun
  | cons hrule hrest ih =>
      rw [List.flatten_cons]
      exact List.forall_mem_append.mpr ⟨hrule.forall_mem all, ih⟩

end Words

/-! ## Reading what is written -/

def Fits (script : Script τ σ δ) (word : Word τ) : Prop :=
  script.scheme.lexicon.Whole word ∧ script.nesting word.token = 0

/-- A manner whose words are words of a script, and whose rules are rules of it. -/
structure Manner.Suits (manner : Manner τ) (script : Script τ σ δ) :
    Prop where
  fits : manner.All (Fits script)
  /-- No plain rule claims a lexeme of the rule behind it. -/
  exists_rule : ∀ {production : Production} {words : List (Word τ)},
    Production.Written manner production words →
    ∃ written, script.lexemesOf written = words.map Word.lexeme ∧
      script.draft written = production.draft ∧ ∀ other, script.meets written other

namespace Manner.Suits

variable {script : Script τ σ δ} (suits : manner.Suits script)
include suits

theorem exists_rules {list : List Production}
    {lines : List (List (Word τ))}
    (h : List.Forall₂ (Production.Written manner) list lines) :
    ∃ found : List δ, found.flatMap script.lexemesOf = lines.flatten.map Word.lexeme ∧
      found.map script.draft = list.map Production.draft ∧
      ∀ rule ∈ found, ∀ other, script.meets rule other := by
  induction h with
  | nil => exact ⟨[], rfl, rfl, nofun⟩
  | cons hrule hrest ih =>
      obtain ⟨first, hfirst, hdraft, hmeets⟩ := suits.exists_rule hrule
      obtain ⟨later, hlater, hdrafts, hrest⟩ := ih
      refine ⟨first :: later, ?_, ?_, List.forall_mem_cons.mpr ⟨hmeets, hrest⟩⟩
      · rw [List.flatMap_cons, List.flatten_cons, List.map_append, hfirst, hlater]
      · rw [List.map_cons, List.map_cons, hdraft, hdrafts]

/-- A text that productions are written as has their rules, wherever they stand. -/
theorem exists_rulesOf {productions : Productions} {text : List Char}
    (h : productions.Written manner text) :
    ∃ found, script.rulesOf text = .ok found ∧
      found.map (Draft.moved fun _ => 0) = productions.list.map Production.draft := by
  obtain ⟨lines, lead, written, hlines, hwords, hspaced, rfl⟩ := h
  have hfits : ∀ one ∈ written, Fits script one.word := by
    intro one hone
    refine forall_mem_lines suits.fits hlines one.word ?_
    rw [hwords]
    exact List.mem_map_of_mem hone
  -- The rules are known for lexemes that stand nowhere.
  obtain ⟨rules, hyield, hdrafts, hmeets⟩ := suits.exists_rules hlines
  have hread : script.reader.read (written.map fun one => one.word.lexeme) = .ok rules := by
    rw [script.derives.read_eq_ok_iff]
    refine ⟨?_, ?_, nestsWithin_of_level ?_ ?_⟩
    · rw [hyield, hwords, List.map_map]
      rfl
    · refine List.isChain_iff_forall_rel_of_append_cons_cons.mpr ?_
      rintro rule other front back rfl
      exact hmeets rule (List.mem_append_right _ List.mem_cons_self) other
    · exact List.forall_mem_map.mpr fun one hone => (hfits one hone).2
    · exact fun limit _ => Int.natCast_nonneg limit
  obtain ⟨found, hfound, hmoved⟩ :=
    script.exists_rulesOf_spaced hspaced (fun one hone => (hfits one hone).1) hread
  exact ⟨found, hfound, hmoved.trans hdrafts⟩

end Manner.Suits

end GrammarTable.Plain
