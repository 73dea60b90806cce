import GrammarTable.Proofs.Token.Layout
import GrammarTable.Proofs.Token.Moved

/-!
# Lexemes of joined texts and of excerpts

How a text is cut into pieces does not hang on what stands behind it, as long as that starts
on a new line or as the rest of the text did. So two texts with a line feed between them have
the lexemes of both, and what stands from the start of one lexeme to the end of another has
the lexemes in between.
-/

namespace GrammarTable

/-- What stands in a text at a span. The span starts and stops between two characters. -/
def Text.Slice (text : List Char) (span : Text.Span) (part : List Char) : Prop :=
  ∃ before behind, text = before ++ (part ++ behind) ∧ Text.byteLength before = span.start ∧
    Text.byteLength (before ++ part) = span.stop

namespace Token

open Text

variable {τ : Type}

/-! ## Other offsets -/

theorem Lexicon.Lexes.moved {lexicon : Lexicon τ} {offset : Nat} {cs : List Char}
    {lexemes : List (Lexeme τ)} (h : lexicon.Lexes offset cs lexemes) (g : Nat → Nat)
    (start : Nat) (hg : ∀ n, g (offset + n) = start + n) :
    lexicon.Lexes start cs (lexemes.map (Lexeme.moved g)) := by
  induction h generalizing start with
  | nil offset => exact .nil start
  | skip hcut later ih =>
      refine .skip hcut (ih _ fun n => ?_)
      rw [Nat.add_assoc, hg, Nat.add_assoc]
  | @token offset c front rest lexemes token hcut later ih =>
      have hstart : g offset = start := hg 0
      have hlater := ih (start + byteLength (c :: front)) fun n => by
        rw [Nat.add_assoc, hg, Nat.add_assoc]
      rw [List.map_cons, Lexeme.moved, Span.moved, hstart, hg]
      exact .token hcut hlater

namespace Scheme

variable {scheme : Scheme τ} {offset : Nat} {cs : List Char} {lexemes : List (Lexeme τ)}

namespace Tidy

variable (tidy : scheme.Tidy)
include tidy

/-! ## Pieces in front of other texts -/

/-- A piece that is skipped is skipped in front of a text that starts on a new line or as the
text behind the piece does. -/
theorem lexemesFrom_skipped {c : Char} {front rest back : List Char}
    (h : scheme.lexicon.cut c (front ++ rest) = .ok ⟨front.length, none⟩)
    (hback : ∀ d ∈ back.head?, d = '\n' ∨ d ∈ rest.head?) (start : Nat) :
    scheme.lexicon.lexemesFrom start (c :: front ++ back) =
      scheme.lexicon.lexemesFrom (start + byteLength (c :: front)) back := by
  rcases tidy.skipped_cases h with ⟨hblanks, -⟩ | ⟨lead, hlead, body, hpiece, hbody, hend⟩ |
    ⟨comment, hcomment, body, hpiece, hbody⟩
  · exact tidy.lexemesFrom_gap (gap_of_blanks hblanks) start back
  · rw [hpiece]
    exact tidy.lexemesFrom_line start hlead hbody fun d hd => (hback d hd).elim id (hend d)
  · rw [hpiece]
    have hblock : scheme.lexicon.lexemesFrom start (comment.opener.1 :: comment.opener.2 ::
        (body ++ comment.closer.1 :: comment.closer.2 :: back)) = _ :=
      tidy.lexemesFrom_block hcomment hbody
    simpa using hblock

/-! ## Joined texts -/

/-- In front of a new line a text has the lexemes that it has alone. -/
theorem lexemesFrom_append (h : scheme.lexicon.Lexes offset cs lexemes) {back : List Char}
    (hback : ∀ d ∈ back.head?, d = '\n') :
    scheme.lexicon.lexemesFrom offset (cs ++ back) =
      (scheme.lexicon.lexemesFrom (offset + byteLength cs) back).map (lexemes ++ ·) := by
  have hhead : ∀ {rest : List Char}, ∀ d ∈ (rest ++ back).head?, d = '\n' ∨ d ∈ rest.head? := by
    intro rest d hd
    cases rest with
    | nil => exact .inl (hback d hd)
    | cons e rest => exact .inr hd
  induction h with
  | nil offset =>
      rw [List.nil_append, byteLength_nil, Nat.add_zero]
      cases scheme.lexicon.lexemesFrom offset back <;> rfl
  | @skip offset c front rest lexemes hcut later ih =>
      rw [List.append_assoc, tidy.lexemesFrom_skipped hcut hhead, ih, byteLength_append,
        Nat.add_assoc]
  | @token offset c front rest lexemes token hcut later ih =>
      have hgap : ∀ d ∈ (rest ++ back).head?, d ∈ scheme.gapStarts ∨ d ∈ rest.head? := by
        intro d hd
        refine (hhead d hd).imp_left ?_
        rintro rfl
        exact mem_gapStarts_of_isSpacing (by decide)
      have hpiece := tidy.cut_append hcut hgap
      rw [List.append_assoc, Lexicon.lexemesFrom_of_token offset hpiece, ih, byteLength_append,
        Nat.add_assoc]
      cases scheme.lexicon.lexemesFrom _ back <;> rfl

/-- Two texts with a line feed between them have the lexemes of both. -/
theorem lexemes_join {front back : List Char} {others : List (Lexeme τ)}
    (hfront : scheme.lexicon.lexemes front = .ok lexemes)
    (hback : scheme.lexicon.lexemes back = .ok others) :
    scheme.lexicon.lexemes (front ++ '\n' :: back) =
      .ok (lexemes ++ others.map (Lexeme.moved (· + (byteLength front + 1)))) := by
  have hfeed : ∀ d ∈ ('\n' :: back).head?, d = '\n' := fun d hd => (Option.some.inj hd).symm
  have hjoin := tidy.lexemesFrom_append (Lexicon.lexes_of_lexemesFrom hfront) hfeed
  have hmoved := (Lexicon.lexes_of_lexemesFrom hback).moved (· + (byteLength front + 1))
    (byteLength front + 1) fun n => by
      rw [Nat.zero_add, Nat.add_comm]
  refine hjoin.trans ?_
  rw [Nat.zero_add, tidy.lexemesFrom_blank (by decide)]
  have hsize : Char.utf8Size '\n' = 1 := rfl
  rw [hsize, hmoved.lexemesFrom_eq]
  rfl

end Tidy

/-! ## Excerpts -/

/-- From the start of a lexeme on, a text has that lexeme and those behind it. -/
theorem exists_from_lexeme {front back : List (Lexeme τ)} {lexeme : Lexeme τ}
    (h : scheme.lexicon.Lexes offset cs (front ++ lexeme :: back)) :
    ∃ before rest, cs = before ++ rest ∧ lexeme.span.start = offset + byteLength before ∧
      scheme.lexicon.Lexes lexeme.span.start rest (lexeme :: back) := by
  generalize hfound : front ++ lexeme :: back = found at h
  induction h generalizing front with
  | nil offset => simp at hfound
  | @skip offset c piece rest found hcut later ih =>
      obtain ⟨before, behind, rfl, hstart, hlater⟩ := ih hfound
      refine ⟨c :: piece ++ before, behind, (List.append_assoc _ _ _).symm, ?_, hlater⟩
      rw [hstart, byteLength_append, Nat.add_assoc]
  | @token offset c piece rest found token hcut later ih =>
      cases front with
      | nil =>
          obtain ⟨rfl, rfl⟩ := List.cons.inj hfound
          exact ⟨[], _, rfl, rfl, .token hcut later⟩
      | cons first front =>
          obtain ⟨before, behind, rfl, hstart, hlater⟩ := ih (List.cons.inj hfound).2
          refine ⟨c :: piece ++ before, behind, (List.append_assoc _ _ _).symm, ?_, hlater⟩
          rw [hstart, byteLength_append, Nat.add_assoc]

/-- Up to the end of a lexeme, a text has that lexeme and those in front of it. -/
theorem Tidy.exists_up_to_lexeme (tidy : scheme.Tidy) {back : List (Lexeme τ)}
    {last : Lexeme τ} (h : scheme.lexicon.Lexes offset cs (lexemes ++ back))
    (hlast : last ∈ lexemes.getLast?) :
    ∃ part behind, cs = part ++ behind ∧ last.span.stop = offset + byteLength part ∧
      scheme.lexicon.lexemesFrom offset part = .ok lexemes := by
  generalize hfound : lexemes ++ back = found at h
  have hhead : ∀ {part behind : List Char}, ∀ d ∈ part.head?, d ∈ (part ++ behind).head? := by
    intro part behind d hd
    cases part with
    | nil => exact nomatch hd
    | cons e part => exact hd
  induction h generalizing lexemes with
  | nil offset =>
      obtain rfl := (List.append_eq_nil_iff.mp hfound).1
      exact nomatch hlast
  | @skip offset c piece rest found hcut later ih =>
      obtain ⟨part, behind, rfl, hstop, hpart⟩ := ih hlast hfound
      have hskip := tidy.lexemesFrom_skipped hcut (fun d hd => .inr (hhead d hd)) offset
      refine ⟨c :: piece ++ part, behind, (List.append_assoc _ _ _).symm, ?_, hskip.trans hpart⟩
      rw [hstop, byteLength_append, Nat.add_assoc]
  | @token offset c piece rest found token hcut later ih =>
      cases lexemes with
      | nil => exact nomatch hlast
      | cons first more =>
          obtain ⟨rfl, hmore⟩ := List.cons.inj hfound
          cases more with
          | nil =>
              obtain rfl := Option.some.inj hlast
              have hnone : ∀ d ∈ ([] : List Char).head?,
                  d ∈ scheme.gapStarts ∨ d ∈ rest.head? := nofun
              have halone := tidy.cut_append hcut hnone
              have htoken := Lexicon.lexemesFrom_of_token offset halone
              rw [List.append_nil, Lexicon.lexemesFrom_nil] at htoken
              exact ⟨c :: piece, rest, rfl, rfl, htoken⟩
          | cons second more =>
              have hlater : last ∈ (second :: more).getLast? := hlast
              obtain ⟨part, behind, rfl, hstop, hpart⟩ := ih hlater hmore
              have hahead : ∀ d ∈ part.head?, d ∈ scheme.gapStarts ∨ d ∈ (part ++ behind).head? :=
                fun d hd => .inr (hhead d hd)
              have hpiece := tidy.cut_append hcut hahead
              refine ⟨c :: piece ++ part, behind, (List.append_assoc _ _ _).symm, ?_, ?_⟩
              · rw [hstop, byteLength_append, Nat.add_assoc]
              · rw [Lexicon.lexemesFrom_of_token offset hpiece, hpart]
                rfl

/-- What stands from the start of one lexeme to the end of another has the lexemes in between,
as far from its own start as they are from the start of the first. -/
theorem Tidy.exists_excerpt (tidy : scheme.Tidy) {text : List Char}
    {front back : List (Lexeme τ)} {first last : Lexeme τ}
    (h : scheme.lexicon.lexemes text = .ok (front ++ (lexemes ++ back)))
    (hfirst : first ∈ lexemes.head?) (hlast : last ∈ lexemes.getLast?) :
    ∃ part own, Slice text ⟨first.span.start, last.span.stop⟩ part ∧
      scheme.lexicon.lexemes part = .ok own ∧
      own.map (Lexeme.moved (· + first.span.start)) = lexemes := by
  obtain ⟨more, rfl⟩ := List.head?_eq_some_iff.mp hfirst
  obtain ⟨before, rest, rfl, hstart, hrest⟩ :=
    exists_from_lexeme (Lexicon.lexes_of_lexemesFrom h)
  obtain ⟨part, behind, rfl, hstop, hpart⟩ := tidy.exists_up_to_lexeme hrest hlast
  have hlexes := Lexicon.lexes_of_lexemesFrom hpart
  have hown := hlexes.moved (· - first.span.start) 0 fun n => by
    rw [Nat.add_sub_cancel_left, Nat.zero_add]
  have hback := hown.moved (· + first.span.start) first.span.start fun n => by
    rw [Nat.zero_add, Nat.add_comm]
  refine ⟨part, _, ⟨before, behind, rfl, ?_, ?_⟩, hown.lexemesFrom_eq, ?_⟩
  · rw [hstart, Nat.zero_add]
  · rw [hstop, hstart, byteLength_append, Nat.zero_add]
  · exact Except.ok.inj (hback.lexemesFrom_eq.symm.trans hpart)

end Scheme

end Token

end GrammarTable
