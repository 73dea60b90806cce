import GrammarTable.Proofs.Grammar.Leaves
import GrammarTable.Proofs.Token.Partition

/-!
# Grammars as rows of longest pieces

The lexicons of the three notations are clear. So a source is cut in one way into longest
pieces. If they make up the whole source its lexemes are those of the pieces that stand for
tokens; else the source is refused at the first place where no piece is allowed.
-/

namespace GrammarTable

open Rule Settings Text Token

/-! ## Clear notations -/

namespace Bnf

theorem clear : lexicon.Clear where
  nonempty := by decide
  opener := by decide
  closer := by decide

end Bnf

namespace Iso

theorem clear : lexicon.Clear where
  nonempty := by decide
  opener := by decide
  closer := by decide

end Iso

namespace W3c

theorem clear : lexicon.Clear where
  nonempty := by decide
  opener := by decide
  closer := by decide

/-- Only the entry for digits in square brackets says that a piece is a label. -/
theorem shape_of_label {entry : Entry Sign} {piece : List Char} {text : String}
    (hentry : entry ∈ lexicon.entries) (h : entry.token? piece = some (.label text)) :
    entry.shape = .enclosed '[' Char.isDigit ']' 1 ∧ text = String.ofList piece := by
  simp only [lexicon, List.mem_cons, List.not_mem_nil, or_false] at hentry
  rcases hentry with rfl | rfl | rfl | rfl | rfl | rfl | rfl | rfl | rfl | rfl | rfl | rfl | rfl |
    rfl | rfl <;> simp_all [Entry.skip, Entry.sign, Entry.carrying, Entry.enclosing]

/-- The pieces that are labels are digits in square brackets, and all those are. -/
theorem denotes_label_iff (piece : List Char) (text : String) :
    lexicon.Denotes piece (some (.label text)) ↔
      text = String.ofList piece ∧ ∃ digits, digits ≠ [] ∧ (∀ c ∈ digits, c.isDigit = true) ∧
        piece = '[' :: (digits ++ [']']) := by
  constructor
  · intro h
    generalize htoken : some (Sign.label text) = token? at h
    cases h with
    | block => exact nomatch htoken
    | @first before after entry hentries hpiece hbefore =>
        have hentry : entry ∈ lexicon.entries := by simp [hentries]
        obtain ⟨hshape, htext⟩ := shape_of_label hentry htoken.symm
        rw [hshape] at hpiece
        obtain ⟨digits, rfl, hdigits, hleast, -⟩ := hpiece
        exact ⟨htext, digits, List.length_pos_iff.mp hleast, hdigits, rfl⟩
  · rintro ⟨rfl, digits, hne, hdigits, rfl⟩
    have hpiece : (Shape.enclosed '[' Char.isDigit ']' 1).Piece ('[' :: (digits ++ [']'])) :=
      ⟨digits, rfl, hdigits, List.length_pos_iff.mpr hne, by decide⟩
    -- The entry for other characters in square brackets comes later.
    have hstarts : ∀ other ∈ lexicon.entries.take 12, other.shape.starts '[' = false := by decide
    have hentries : lexicon.entries = lexicon.entries.take 12 ++
        .carrying (.enclosed '[' Char.isDigit ']' 1) .label :: lexicon.entries.drop 13 := rfl
    refine Lexicon.Denotes.first hentries hpiece ?_
    intro other hother hshape
    have hfirst := Shape.starts_of_piece hshape
    rw [hstarts other hother] at hfirst
    exact nomatch hfirst

end W3c

namespace Grammar

variable {dialect : Dialect} {source : String}

theorem clear (dialect : Dialect) : (lexicon dialect).Clear := by
  cases dialect with
  | bnf => exact Bnf.clear
  | w3c => exact W3c.clear
  | iso => exact Iso.clear

/-! ## Refusal -/

def complaintOf : LexicalFault → Complaint
  | .unexpectedCharacter c => .unexpectedCharacter c
  | .unterminatedComment opener => .unterminatedComment opener

theorem drafts_of_lexemes_error {τ σ δ : Type} {lexicon : Lexicon τ}
    {reader : Reader τ σ (List δ)} {draft : δ → Draft} {text : List Char} {offset : Nat}
    {fault : LexicalFault} (h : lexicon.lexemes text = .error (offset, fault)) :
    drafts lexicon reader draft text = .error ⟨offset, complaintOf fault⟩ := by
  rw [drafts, h]
  cases fault <;> rfl

theorem draftsOf_of_lexemes_error {text : List Char} {offset : Nat} {fault : LexicalFault}
    (h : (lexicon dialect).lexemes text = .error (offset, fault)) :
    draftsOf dialect text = .error ⟨offset, complaintOf fault⟩ := by
  cases dialect with
  | bnf => exact drafts_of_lexemes_error h
  | w3c => exact drafts_of_lexemes_error h
  | iso => exact drafts_of_lexemes_error h

theorem read_of_lexemes_error {offset : Nat} {fault : LexicalFault}
    (h : (lexicon dialect).lexemes source.toList = .error (offset, fault)) :
    read dialect source =
      .error ⟨dialect, Position.ofOffset source.toList offset, complaintOf fault⟩ := by
  apply read_of_find_error
  rw [find, draftsOf_of_lexemes_error h]

/-! ## Partition -/

/-- What becomes of a source that is cut into pieces. -/
def Reported (dialect : Dialect) (source : String) (fragments : List (Fragment (Sign dialect)))
    (left : List Char) : Option LexicalFault → Prop
  | none =>
      left = [] ∧
        (lexicon dialect).lexemes source.toList = .ok (Fragment.lexemesAt 0 fragments) ∧
        Laid 0 (byteLength source.toList) ((Fragment.lexemesAt 0 fragments).map Lexeme.span) ∧
        ∀ lexeme ∈ Fragment.lexemesAt 0 fragments,
          Slice source.toList lexeme.span lexeme.text.toList
  | some fault =>
      (lexicon dialect).Stuck left fault ∧
        (lexicon dialect).lexemes source.toList =
          .error (byteLength (Fragment.textOf fragments), fault) ∧
        read dialect source =
          .error ⟨dialect, Position.after (Fragment.textOf fragments), complaintOf fault⟩

theorem reported_of_cuts {fragments : List (Fragment (Sign dialect))} {left : List Char}
    {fault? : Option LexicalFault}
    (h : (lexicon dialect).Cuts source.toList fragments left fault?) :
    Reported dialect source fragments left fault? := by
  have hlexemes := (clear dialect).lexemes_eq h
  rcases h.left_cases with ⟨rfl, rfl⟩ | ⟨fault, rfl, hstuck⟩
  · have hlexes := Lexicon.lexes_of_lexemesFrom hlexemes
    exact ⟨rfl, hlexemes, by simpa using hlexes.laid, slice_of_lexemes hlexemes⟩
  · rw [Fragment.outcome, Nat.zero_add] at hlexemes
    refine ⟨hstuck, hlexemes, ?_⟩
    rw [read_of_lexemes_error hlexemes, h.text_eq, Position.ofOffset_append]

/-- A source is cut in one way into the longest pieces, which make it up with what is left, and
the lexemes are those of the pieces. In W3C EBNF digits in square brackets are labels. -/
theorem lexemes_partition :
    (∀ (dialect : Dialect) (source : String), ∃ fragments left fault?,
      (∀ others behind other?, (lexicon dialect).Cuts source.toList others behind other? ↔
        others = fragments ∧ behind = left ∧ other? = fault?) ∧
      source.toList = Fragment.textOf fragments ++ left ∧
      (∀ fragment ∈ fragments, fragment.text ≠ []) ∧
      Reported dialect source fragments left fault?) ∧
    (∀ c, (complaintOf (.unexpectedCharacter c)).words =
      "unexpected character '" ++ escape c ++ "'") ∧
    (∀ opener, (complaintOf (.unterminatedComment opener)).words =
      "unterminated comment '" ++ opener ++ "'") ∧
    ∀ (piece : List Char) (text : String),
      W3c.lexicon.Denotes piece (some (.label text)) ↔
        text = String.ofList piece ∧ ∃ digits, digits ≠ [] ∧ (∀ c ∈ digits, c.isDigit = true) ∧
          piece = '[' :: (digits ++ [']']) := by
  refine ⟨fun dialect source => ?_, fun _ => rfl, fun _ => rfl, W3c.denotes_label_iff⟩
  obtain ⟨fragments, left, fault?, hcuts, -⟩ := (clear dialect).exists_cuts 0 source.toList
  refine ⟨fragments, left, fault?, ?_, hcuts.text_eq, (clear dialect).text_ne_nil hcuts,
    reported_of_cuts hcuts⟩
  intro others behind other?
  constructor
  · exact (clear dialect).cuts_unique hcuts
  · rintro ⟨rfl, rfl, rfl⟩
    exact hcuts

/-- The star that opens a block comment does not close it. -/
example : Iso.lexicon.lexemes "(*)".toList = .error (0, .unterminatedComment "(*") := by cbv

end Grammar

end GrammarTable
