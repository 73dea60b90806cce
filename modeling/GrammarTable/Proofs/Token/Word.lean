import GrammarTable.Proofs.Token.Layout
import GrammarTable.Proofs.Token.Moved

/-!
# Words

A word is a token and how it is written. Words that are lexemes as a whole can be written one
after the other with blanks between them. Where a character belongs to one entry only, the
pieces of that entry which start with it are such words.
-/

namespace GrammarTable.Token

open Text

variable {τ : Type}

structure Word (τ : Type) where
  token : τ
  text : List Char

namespace Word

def bare (token : String → τ) (text : String) : Word τ :=
  ⟨token text, text.toList⟩

def enclosed (opening closing : Char) (token : String → τ) (text : String) : Word τ :=
  ⟨token text, opening :: (text.toList ++ [closing])⟩

def lexeme (word : Word τ) : Lexeme τ :=
  ⟨word.token, String.ofList word.text, ⟨0, 0⟩⟩

end Word

/-! ## Words in a row -/

def Written.word (written : Written τ) : Word τ :=
  ⟨written.token, written.text⟩

/-- The word is one lexeme as a whole. -/
def Lexicon.Whole (lexicon : Lexicon τ) (word : Word τ) : Prop :=
  lexicon.lexemes word.text =
    .ok [⟨word.token, String.ofList word.text, ⟨0, byteLength word.text⟩⟩]

/-- Blanks stand in front of words and behind them, and at least one between two. -/
def Spaced (lead : List Char) : List (Written τ) → Prop
  | [] => ∀ c ∈ lead, isSpacing c = true
  | written :: rest =>
      (∀ c ∈ lead, isSpacing c = true) ∧ (rest ≠ [] → written.gap ≠ []) ∧
        Spaced written.gap rest

theorem spaced_of_forall {lead : List Char} {written : List (Written τ)}
    (hlead : ∀ c ∈ lead, isSpacing c = true)
    (h : ∀ one ∈ written, one.gap ≠ [] ∧ ∀ c ∈ one.gap, isSpacing c = true) :
    Spaced lead written := by
  induction written generalizing lead with
  | nil => exact hlead
  | cons first rest ih =>
      obtain ⟨⟨hne, hgap⟩, hrest⟩ := List.forall_mem_cons.mp h
      exact ⟨hlead, fun _ => hne, ih hgap hrest⟩

theorem map_moved_lexemesAt (offset : Nat) (written : List (Written τ)) :
    (Written.lexemesAt offset written).map (Lexeme.moved fun _ => 0) =
      written.map fun written => written.word.lexeme := by
  induction written generalizing offset with
  | nil => rfl
  | cons first rest ih => exact congrArg (_ :: ·) (ih _)

namespace Scheme

variable {scheme : Scheme τ}

theorem laidOut_of_spaced {lead : List Char} {written : List (Written τ)}
    (h : Spaced lead written) (hwhole : ∀ one ∈ written, scheme.lexicon.Whole one.word) :
    scheme.LaidOut lead written := by
  induction written generalizing lead with
  | nil => exact .closed (gap_of_blanks h)
  | cons first rest ih =>
      obtain ⟨hlead, hgap, hrest⟩ := h
      refine ⟨gap_of_blanks hlead, hwhole first List.mem_cons_self, hgap, ?_⟩
      exact ih hrest fun one hone => hwhole one (List.mem_cons_of_mem first hone)

/-! ## Words of one entry -/

/-- What starts with the character is a piece of the entry, and no comment. -/
structure Owns (scheme : Scheme τ) (entry : Entry τ) (c : Char) : Prop where
  mem : entry ∈ scheme.lexicon.entries
  only : ∀ other ∈ scheme.lexicon.entries, other.shape.starts c = true → other = entry
  no_comment : ∀ comment ∈ scheme.comment?, comment.opener.1 ≠ c

variable {entry : Entry τ} {c : Char} {front : List Char} {token : τ}

theorem Owns.of_filter
    (h : scheme.lexicon.entries.filter (fun entry => entry.shape.starts c) = [entry])
    (hcomment : ∀ comment ∈ scheme.comment?, comment.opener.1 ≠ c) : scheme.Owns entry c where
  mem := (List.mem_filter.mp (h ▸ List.mem_singleton_self entry)).1
  only other hother hstarts := by
    have hmem : other ∈ scheme.lexicon.entries.filter fun entry => entry.shape.starts c :=
      List.mem_filter.mpr ⟨hother, hstarts⟩
    rw [h] at hmem
    exact List.mem_singleton.mp hmem
  no_comment := hcomment

/-- An entry whose pieces are not closed shares no first character. -/
theorem Tidy.owns (tidy : scheme.Tidy) (hentry : entry ∈ scheme.lexicon.entries)
    (hclosing : entry.shape.closing? = none) (hstarts : entry.shape.starts c = true)
    (hcomment : ∀ comment ∈ scheme.comment?, comment.opener.1 ≠ c) : scheme.Owns entry c where
  mem := hentry
  only _ hother hshared := tidy.eq_of_starts hentry hother hclosing hstarts hshared
  no_comment := hcomment

namespace Owns

theorem whole (owns : scheme.Owns entry c) (hpiece : entry.shape.Piece (c :: front))
    (htoken : entry.token? (c :: front) = some token) :
    scheme.lexicon.Whole ⟨token, c :: front⟩ := by
  have hcut : entry.shape.cut? (c :: front) = some (front.length + 1) := by
    have halone : entry.shape.cut? (c :: front ++ []) = some (c :: front).length :=
      Shape.cut?_append hpiece nofun
    rwa [List.append_nil] at halone
  have hlongest := Lexicon.longest?_of_only owns.mem hcut fun other hother hcuts => by
    obtain ⟨length, hlength⟩ := Option.ne_none_iff_exists'.mp hcuts
    exact owns.only other hother (Shape.starts_of_cut? hlength)
  have hcomment : ∀ comment ∈ scheme.lexicon.comment?, ∀ d ∈ front.head?,
      (c, d) ≠ comment.opener := by
    intro comment hmem d _ hopener
    exact owns.no_comment comment hmem (congrArg Prod.fst hopener).symm
  refine Lexicon.whole_of_cut ?_
  rw [Lexicon.cut_eq_cutEntry hcomment, Lexicon.cutEntry_of_longest? hlongest, List.take_length,
    htoken]

theorem whole_bare {first more : Char → Bool} {token : String → τ} {text : String}
    (owns : scheme.Owns (.carrying (.word first more) token) c)
    (htext : text.toList = c :: front) (hfirst : first c = true)
    (hmore : ∀ d ∈ front, more d = true) : scheme.lexicon.Whole (.bare token text) := by
  rw [Word.bare, htext]
  refine owns.whole ⟨c, front, rfl, hfirst, hmore⟩ ?_
  rw [← htext]
  exact congrArg (fun piece => some (token piece)) String.ofList_toList

theorem whole_enclosed {inside : Char → Bool} {closing : Char} {least : Nat} {token : String → τ}
    {make : String → τ} {text : String}
    (owns : scheme.Owns (.enclosing (.enclosed c inside closing least) make) c)
    (hinside : ∀ d ∈ text.toList, inside d = true) (hleast : least ≤ text.toList.length)
    (hclosing : inside closing = false) (hmake : make text = token text) :
    scheme.lexicon.Whole (.enclosed c closing token text) := by
  refine owns.whole ⟨text.toList, rfl, hinside, hleast, hclosing⟩ ?_
  have hbetween : between (c :: (text.toList ++ [closing])) = text.toList := by
    simp [between]
  rw [← hmake]
  exact congrArg (fun piece => some (make piece)) (by rw [hbetween, String.ofList_toList])

theorem whole_quoted {inside : Char → Bool} {token : String → τ} {text : String}
    (owns : scheme.Owns (.enclosing (.quoted c inside) token) c) (hfree : c ∉ text.toList)
    (hinside : ∀ d ∈ text.toList, inside d = true) :
    scheme.lexicon.Whole (.enclosed c c token text) := by
  refine owns.whole_enclosed ?_ (Nat.zero_le _) (by simp) rfl
  intro d hd
  have hother : d ≠ c := fun heq => hfree (heq ▸ hd)
  simp [hother, hinside d hd]

end Owns

end Scheme

end GrammarTable.Token
