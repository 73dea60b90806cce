import GrammarTable.Proofs.Text.Relined
import GrammarTable.Proofs.Token.Layout
import GrammarTable.Proofs.Token.Moved

/-!
# Lexemes of texts with other line ends

Line ends show in blanks, in comments and, where a notation allows it, inside lexemes. Where
no lexeme holds a carriage return, the text with other line ends has the same lexemes.
-/

namespace GrammarTable.Token

open Text

variable {τ : Type} {scheme : Scheme τ} {offset : Nat} {cs : List Char}
  {lexemes : List (Lexeme τ)}

namespace Scheme

/-- The entry that a token's piece was cut off by. -/
theorem exists_entry_of_cut {c : Char} {front rest : List Char} {token : τ}
    (h : scheme.lexicon.cut c (front ++ rest) = .ok ⟨front.length, some token⟩) :
    ∃ entry ∈ scheme.tokens, entry.shape.Piece (c :: front) ∧
      entry.token? (c :: front) = some token := by
  rcases Lexicon.cut_cases h with ⟨_, _, _, _, _, hnone, _⟩ | ⟨-, entry, hlongest, htoken⟩
  · exact nomatch hnone
  · obtain ⟨hentry, hcut⟩ := Lexicon.of_longest? hlongest
    rw [List.take_left] at htoken
    have hpiece : entry.shape.Piece (c :: front) ∧
        ∀ d ∈ rest.head?, entry.shape.continues d = false :=
      Shape.piece_of_cut?_append hcut
    exact ⟨entry, token_entry hentry htoken, hpiece.1, htoken⟩

theorem exists_entry_of_lexes (h : scheme.lexicon.Lexes offset cs lexemes) :
    ∀ lexeme ∈ lexemes, ∃ entry ∈ scheme.tokens, entry.shape.Piece lexeme.text.toList ∧
      entry.token? lexeme.text.toList = some lexeme.token := by
  induction h with
  | nil offset => exact nofun
  | skip hcut later ih => exact ih
  | token hcut later ih =>
      intro lexeme hmem
      rcases List.mem_cons.mp hmem with rfl | hmem
      · simpa only [String.toList_ofList] using exists_entry_of_cut hcut
      · exact ih lexeme hmem

namespace Tidy

variable (tidy : scheme.Tidy)
include tidy

section Skips

variable {c : Char} {front rest ds : List Char}

theorem exists_relined_of_blanks (hblanks : ∀ d ∈ front, isSpacing d = true)
    (hrest : ∀ d ∈ rest.head?, isSpacing d = false) (hrelined : Relined (front ++ rest) ds)
    (start : Nat) :
    ∃ back stop, Relined rest back ∧
      scheme.lexicon.lexemesFrom start ds = scheme.lexicon.lexemesFrom stop back := by
  have hdrop := hrelined.dropWhile (p := isSpacing) (by decide) (by decide)
  rw [dropWhile_append_of_head hblanks hrest] at hdrop
  exact ⟨_, _, hdrop, tidy.lexemesFrom_dropWhile start ds⟩

theorem exists_relined_of_line {lead body : List Char} (hlead : lead ∈ scheme.lineLead?)
    (hbody : '\n' ∉ body) (hrest : ∀ d ∈ rest.head?, d = '\n')
    (hrelined : Relined (lead ++ body ++ rest) ds) (start : Nat) :
    ∃ back stop, Relined rest back ∧
      scheme.lexicon.lexemesFrom start ds = scheme.lexicon.lexemesFrom stop back := by
  have hback : (body ++ rest).dropWhile (· != '\n') = rest := by
    refine dropWhile_append_of_head ?_ fun d hd => by simp [hrest d hd]
    intro d hd
    exact bne_iff_ne.mpr fun heq => hbody (heq ▸ hd)
  -- The lead is in both texts, and what follows it up to the end of the line is skipped.
  have hinline := (tidy.line_lead _ hlead).2
  have hreturn : '\r' ∉ lead := fun hmem => nomatch hinline '\r' hmem
  have hlast : lead.getLast? ≠ some '\n' :=
    fun hend => nomatch hinline '\n' (List.mem_of_getLast? hend)
  rw [List.append_assoc] at hrelined
  obtain ⟨tail, rfl, htail⟩ := hrelined.split hreturn hlast
  have hskipped : '\n' ∉ tail.takeWhile (· != '\n') :=
    fun hmem => nomatch List.mem_takeWhile_imp hmem
  have hend : ∀ d ∈ (tail.dropWhile (· != '\n')).head?, d = '\n' := by
    intro d hd
    simpa using of_mem_head?_dropWhile hd
  have hline := tidy.lexemesFrom_line start hlead hskipped hend
  rw [List.append_assoc, List.takeWhile_append_dropWhile] at hline
  exact ⟨_, _, hback ▸ htail.dropWhile_line, hline⟩

theorem exists_relined_of_block {comment : BlockComment} {body : List Char}
    (hcomment : comment ∈ scheme.comment?)
    (hbody : ¬ [comment.closer.1, comment.closer.2] <:+: body)
    (hrelined : Relined (comment.opener.1 :: comment.opener.2 ::
      (body ++ comment.closer.1 :: comment.closer.2 :: rest)) ds) (start : Nat) :
    ∃ back stop, Relined rest back ∧
      scheme.lexicon.lexemesFrom start ds = scheme.lexicon.lexemesFrom stop back := by
  obtain ⟨hne, hfirst, hsecond⟩ := tidy.comment_closer comment hcomment
  obtain ⟨hopener, -, hstar⟩ := tidy.comment_opener comment hcomment
  have hreturn : '\r' ∉ [comment.opener.1, comment.opener.2] := by
    intro hmem
    rcases List.mem_cons.mp hmem with heq | hmem
    · rw [← heq] at hopener
      exact nomatch hopener
    · rw [← List.mem_singleton.mp hmem] at hstar
      exact hstar (mem_gapStarts_of_isSpacing (by decide))
  have hlast : [comment.opener.1, comment.opener.2].getLast? ≠ some '\n' := by
    intro hend
    have heq : comment.opener.2 = '\n' := Option.some.inj hend
    rw [heq] at hstar
    exact hstar (mem_gapStarts_of_isSpacing (by decide))
  have hopened : Relined ([comment.opener.1, comment.opener.2] ++
      (body ++ comment.closer.1 :: comment.closer.2 :: rest)) ds := hrelined
  obtain ⟨tail, rfl, htail⟩ := hopened.split hreturn hlast
  simp only [isInline, Bool.and_eq_true, bne_iff_ne] at hfirst hsecond
  obtain ⟨inner, back, rfl, hinner, hback⟩ :=
    htail.split_pair hne hfirst.1 hsecond.1 hsecond.2 hbody
  exact ⟨back, _, hback, tidy.lexemesFrom_block hcomment hinner⟩

/-- What is skipped is skipped with other line ends as well. -/
theorem exists_relined_of_skip
    (hcut : scheme.lexicon.cut c (front ++ rest) = .ok ⟨front.length, none⟩)
    (hrelined : Relined (c :: front ++ rest) ds) (start : Nat) :
    ∃ back stop, Relined rest back ∧
      scheme.lexicon.lexemesFrom start ds = scheme.lexicon.lexemesFrom stop back := by
  rcases tidy.skipped_cases hcut with ⟨hblanks, hend⟩ | ⟨lead, hlead, body, hpiece, hbody, hend⟩ |
    ⟨comment, hcomment, body, hpiece, hbody⟩
  · exact tidy.exists_relined_of_blanks hblanks hend hrelined start
  · rw [hpiece] at hrelined
    exact tidy.exists_relined_of_line hlead hbody hend hrelined start
  · rw [hpiece] at hrelined
    refine tidy.exists_relined_of_block hcomment hbody ?_ start
    simpa using hrelined

end Skips

/-- The lexemes of a text are those of the text with other line ends, where none of them
holds a carriage return. -/
theorem exists_lexemes_of_relined (h : scheme.lexicon.Lexes offset cs lexemes)
    (hreturns : ∀ lexeme ∈ lexemes, '\r' ∉ lexeme.text.toList) {ds : List Char}
    (hrelined : Relined cs ds) (start : Nat) :
    ∃ others, scheme.lexicon.lexemesFrom start ds = .ok others ∧
      others.map Lexeme.bare = lexemes.map Lexeme.bare := by
  induction h generalizing ds start with
  | nil offset =>
      obtain rfl := hrelined.eq_nil
      exact ⟨[], Lexicon.lexemesFrom_nil, rfl⟩
  | skip hcut later ih =>
      obtain ⟨back, stop, hback, hskip⟩ := tidy.exists_relined_of_skip hcut hrelined start
      rw [hskip]
      exact ih hreturns hback stop
  | @token _ c front rest lexemes token hcut later ih =>
      have hreturn : '\r' ∉ c :: front := by
        simpa using hreturns _ List.mem_cons_self
      have hlast : (c :: front).getLast? ≠ some '\n' := by
        intro hend
        obtain ⟨entry, hentry, hpiece, -⟩ := exists_entry_of_cut hcut
        have hfeed := tidy.last entry hentry
        rw [Shape.mayEnd_of_getLast? hpiece hend] at hfeed
        exact nomatch hfeed
      obtain ⟨back, rfl, hback⟩ := hrelined.split hreturn hlast
      have hhead : ∀ d ∈ back.head?, d ∈ scheme.gapStarts ∨ d ∈ rest.head? := by
        intro d hd
        refine (hback.head hd).imp_left ?_
        rintro rfl
        exact mem_gapStarts_of_isSpacing (by decide)
      have htoken := Lexicon.lexemesFrom_of_token start (tidy.cut_append hcut hhead)
      obtain ⟨others, hothers, hbare⟩ :=
        ih (fun lexeme hmem => hreturns lexeme (List.mem_cons_of_mem _ hmem)) hback
          (start + byteLength (c :: front))
      refine ⟨_, htoken.trans (congrArg (Except.map _) hothers), ?_⟩
      exact congrArg (_ :: ·) hbare

end Tidy

end Scheme

end GrammarTable.Token
