import GrammarTable.Grammar.Read
import GrammarTable.Proofs.Token.Layout

/-!
# The schemes of the notations

Which entries of each lexicon are comments and which are tokens. All three lexicons are tidy:
what a piece is shows at its first character, but for the labels and the patterns of W3C
EBNF, which end at the same closing bracket.
-/

namespace GrammarTable

open Text Token

theorem Text.toNat_lt_of_isWordStart {c : Char} (h : isWordStart c = true) : c.toNat < 128 :=
  Nat.lt_of_le_of_lt (toNat_of_isWordPart (isWordPart_of_isWordStart h)).2 (by decide)

theorem Token.toNat_lt_of_isSpacing {c : Char} (h : isSpacing c = true) : c.toNat < 128 := by
  simp only [isSpacing, Bool.or_eq_true, beq_iff_eq] at h
  rcases h with (((rfl | rfl) | rfl) | rfl) | rfl <;> decide

namespace Bnf

/-- A semicolon opens a comment. -/
def scheme : Scheme Sign where
  lineLead? := some ";".toList
  comment? := none
  tokens := lexicon.entries.drop 2

theorem lexicon_eq : lexicon = scheme.lexicon := rfl

theorem ascii : ∀ entry ∈ scheme.lexicon.entries, ∀ c,
    entry.shape.starts c = true → c.toNat < 128 := by
  refine Scheme.ascii_of_first? (by decide) ?_
  intro entry hentry c hstarts
  obtain rfl : entry = .skip (.run isSpacing) := List.mem_singleton.mp hentry
  exact toNat_lt_of_isSpacing hstarts

theorem tidy : scheme.Tidy where
  apart _ hentry _ hother _ :=
    Scheme.apart_of_ascii ']' ascii (by decide +kernel) hentry hother
  speaks := by simp [scheme, lexicon, Entry.sign, Entry.enclosing]
  ends := by decide
  last := by decide
  line_lead := by decide
  comment_opener := by decide
  comment_closer := by decide

end Bnf

namespace Iso

/-- Two slashes open a comment, and so does a parenthesis with a star behind it. -/
def scheme : Scheme Sign where
  lineLead? := some "//".toList
  comment? := some ⟨('(', '*'), ('*', ')')⟩
  tokens := lexicon.entries.drop 2

theorem lexicon_eq : lexicon = scheme.lexicon := rfl

theorem ascii : ∀ entry ∈ scheme.lexicon.entries, ∀ c,
    entry.shape.starts c = true → c.toNat < 128 := by
  refine Scheme.ascii_of_first? (by decide) ?_
  intro entry hentry c hstarts
  rcases List.mem_cons.mp hentry with rfl | hword
  · exact toNat_lt_of_isSpacing hstarts
  · obtain rfl := List.mem_singleton.mp hword
    exact toNat_lt_of_isWordStart hstarts

theorem tidy : scheme.Tidy where
  apart _ hentry _ hother _ :=
    Scheme.apart_of_ascii ']' ascii (by decide +kernel) hentry hother
  speaks := by simp [scheme, lexicon, Entry.sign, Entry.carrying, Entry.enclosing]
  ends := by decide
  last := by decide
  line_lead := by decide
  comment_opener := by decide
  comment_closer := by decide

end Iso

namespace W3c

/-- Only a slash with a star behind it opens a comment. -/
def scheme : Scheme Sign where
  lineLead? := none
  comment? := some ⟨('/', '*'), ('*', '/')⟩
  tokens := lexicon.entries.drop 1

theorem lexicon_eq : lexicon = scheme.lexicon := rfl

theorem ascii : ∀ entry ∈ scheme.lexicon.entries, ∀ c,
    entry.shape.starts c = true → c.toNat < 128 := by
  refine Scheme.ascii_of_first? (by decide) ?_
  intro entry hentry c hstarts
  rcases List.mem_cons.mp hentry with rfl | hword
  · exact toNat_lt_of_isSpacing hstarts
  · obtain rfl := List.mem_singleton.mp hword
    exact toNat_lt_of_isWordStart hstarts

theorem tidy : scheme.Tidy where
  apart _ hentry _ hother _ :=
    Scheme.apart_of_ascii ']' ascii (by decide +kernel) hentry hother
  speaks := by simp [scheme, lexicon, Entry.sign, Entry.carrying, Entry.enclosing]
  ends := by decide
  last := by decide
  line_lead := by decide
  comment_opener := by decide
  comment_closer := by decide

end W3c

/-! ## Dialects -/

namespace Grammar

open Settings

def Sign : Dialect → Type
  | .bnf => Bnf.Sign
  | .w3c => W3c.Sign
  | .iso => Iso.Sign

def lexicon : (dialect : Dialect) → Lexicon (Sign dialect)
  | .bnf => Bnf.lexicon
  | .w3c => W3c.lexicon
  | .iso => Iso.lexicon

/-- The comments and the tokens of a dialect. -/
def scheme : (dialect : Dialect) → Scheme (Sign dialect)
  | .bnf => Bnf.scheme
  | .w3c => W3c.scheme
  | .iso => Iso.scheme

theorem lexicon_eq (dialect : Dialect) : lexicon dialect = (scheme dialect).lexicon := by
  cases dialect <;> rfl

theorem tidy (dialect : Dialect) : (scheme dialect).Tidy := by
  cases dialect with
  | bnf => exact Bnf.tidy
  | w3c => exact W3c.tidy
  | iso => exact Iso.tidy

end Grammar

end GrammarTable
