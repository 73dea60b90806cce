import GrammarTable.Proofs.Token.Lexing

/-!
# Laid-out lexemes

Lexemes may be written with any blanks and comments around them, as long as something stands
between two of them. Such a text has just these lexemes, at the places where they are
written.
-/

namespace GrammarTable.Token

open Text

variable {τ : Type}

/-! ## Gaps -/

namespace Scheme

/-- Blanks and complete comments. -/
inductive Gap (scheme : Scheme τ) : List Char → Prop where
  | nil : Gap scheme []
  | blank {c : Char} {rest : List Char} (hblank : isSpacing c = true) (hrest : Gap scheme rest) :
      Gap scheme (c :: rest)
  /-- A comment up to the end of its line, and the line feed. -/
  | line {lead body rest : List Char} (hlead : lead ∈ scheme.lineLead?) (hbody : '\n' ∉ body)
      (hrest : Gap scheme rest) : Gap scheme (lead ++ body ++ '\n' :: rest)
  /-- A comment up to its closer, which its body does not hold. -/
  | block {comment : BlockComment} {body rest : List Char} (hcomment : comment ∈ scheme.comment?)
      (hbody : ¬ [comment.closer.1, comment.closer.2] <:+: body) (hrest : Gap scheme rest) :
      Gap scheme (comment.opener.1 :: comment.opener.2 ::
        (body ++ comment.closer.1 :: comment.closer.2 :: rest))

/-- What may stand at the end of a text: a gap, with or without a last line of comment that
no line feed ends. -/
inductive LastGap (scheme : Scheme τ) : List Char → Prop where
  | closed {gap : List Char} (h : Gap scheme gap) : LastGap scheme gap
  | line {gap lead body : List Char} (hgap : Gap scheme gap) (hlead : lead ∈ scheme.lineLead?)
      (hbody : '\n' ∉ body) : LastGap scheme (gap ++ (lead ++ body))

variable {scheme : Scheme τ} {gap : List Char} {c : Char}

theorem mem_gapStarts_of_lead {lead : List Char} (hlead : lead ∈ scheme.lineLead?)
    (hc : c ∈ lead.head?) : c ∈ scheme.gapStarts := by
  refine List.mem_append_left _ (List.mem_append_right _ (List.mem_filterMap.mpr ?_))
  exact ⟨lead, Option.mem_toList.mpr hlead, hc⟩

theorem mem_gapStarts_of_comment {comment : BlockComment} (h : comment ∈ scheme.comment?) :
    comment.opener.1 ∈ scheme.gapStarts :=
  List.mem_append_right _ (List.mem_map.mpr ⟨comment, Option.mem_toList.mpr h, rfl⟩)

theorem gap_of_blanks {blanks : List Char} (h : ∀ c ∈ blanks, isSpacing c = true) :
    scheme.Gap blanks := by
  induction blanks with
  | nil => exact .nil
  | cons c rest ih =>
      exact .blank (h c List.mem_cons_self) (ih fun d hd => h d (List.mem_cons_of_mem c hd))

namespace Tidy

variable (tidy : scheme.Tidy)
include tidy

theorem exists_of_lead {lead : List Char} (h : lead ∈ scheme.lineLead?) :
    ∃ first later, lead = first :: later :=
  List.exists_cons_of_ne_nil (tidy.line_lead lead h).1

theorem head_gap (h : scheme.Gap gap) (hc : c ∈ gap.head?) : c ∈ scheme.gapStarts := by
  cases h with
  | nil => exact nomatch hc
  | blank hblank hrest =>
      obtain rfl := Option.some.inj hc
      exact mem_gapStarts_of_isSpacing hblank
  | line hlead hbody hrest =>
      obtain ⟨first, later, rfl⟩ := tidy.exists_of_lead hlead
      obtain rfl : first = c := Option.some.inj hc
      exact mem_gapStarts_of_lead hlead rfl
  | block hcomment hbody hrest =>
      obtain rfl := Option.some.inj hc
      exact mem_gapStarts_of_comment hcomment

theorem head_lastGap (h : scheme.LastGap gap) (hc : c ∈ gap.head?) : c ∈ scheme.gapStarts := by
  cases h with
  | closed h => exact tidy.head_gap h hc
  | @line front lead body hgap hlead hbody =>
      obtain ⟨first, later, rfl⟩ := tidy.exists_of_lead hlead
      cases front with
      | nil =>
          obtain rfl : first = c := Option.some.inj hc
          exact mem_gapStarts_of_lead hlead rfl
      | cons d front => exact tidy.head_gap hgap hc

/-! ## What is skipped -/

variable {offset : Nat} {rest : List Char}

/-- A piece that is skipped is all the blanks up to something else, a comment up to the end of
the line or a block comment. -/
theorem skipped_cases {front : List Char}
    (h : scheme.lexicon.cut c (front ++ rest) = .ok ⟨front.length, none⟩) :
    ((∀ d ∈ c :: front, isSpacing d = true) ∧ ∀ d ∈ rest.head?, isSpacing d = false) ∨
    (∃ lead ∈ scheme.lineLead?, ∃ body, c :: front = lead ++ body ∧ '\n' ∉ body ∧
      ∀ d ∈ rest.head?, d = '\n') ∨
    ∃ comment ∈ scheme.comment?, ∃ body,
      c :: front = comment.opener.1 :: comment.opener.2 ::
        (body ++ [comment.closer.1, comment.closer.2]) ∧
      ¬ [comment.closer.1, comment.closer.2] <:+: body := by
  rcases tidy.skip_cases h with hblank | ⟨lead, behind, hlead, hrest⟩ |
    ⟨comment, hcomment, body, rfl, hrest, hpass⟩
  · have hlength : front.length = ((front ++ rest).takeWhile isSpacing).length :=
      (Lexicon.Cut.mk.inj (Except.ok.inj (h.symm.trans (tidy.cut_spacing hblank _)))).1
    obtain ⟨hfront, hrest⟩ := List.append_inj List.takeWhile_append_dropWhile.symm hlength
    refine .inl ⟨List.forall_mem_cons.mpr ⟨hblank, ?_⟩, ?_⟩
    · intro d hd
      rw [hfront] at hd
      exact List.mem_takeWhile_imp hd
    · intro d hd
      rw [hrest] at hd
      exact of_mem_head?_dropWhile hd
  · rw [hrest] at h
    have hlength : front.length = (lead ++ behind.takeWhile (· != '\n')).length := by
      rw [List.length_append]
      exact (Lexicon.Cut.mk.inj (Except.ok.inj (h.symm.trans (tidy.cut_line hlead _)))).1
    have hsplit : front ++ rest =
        (lead ++ behind.takeWhile (· != '\n')) ++ behind.dropWhile (· != '\n') := by
      rw [hrest, List.append_assoc, List.takeWhile_append_dropWhile]
    obtain ⟨rfl, rfl⟩ := List.append_inj hsplit hlength
    refine .inr (.inl ⟨c :: lead, hlead, _, rfl, ?_, ?_⟩)
    · intro hmem
      exact nomatch List.mem_takeWhile_imp hmem
    · intro d hd
      simpa using of_mem_head?_dropWhile hd
  · obtain ⟨inner, behind, rfl, hlength, hinner⟩ := exists_of_passThrough? hpass
    have hsplit : front ++ rest =
        (comment.opener.2 :: (inner ++ [comment.closer.1, comment.closer.2])) ++ behind := by
      simpa using hrest
    obtain ⟨rfl, rfl⟩ := List.append_inj hsplit (by simp [hlength]; omega)
    exact .inr (.inr ⟨comment, hcomment, inner, rfl, hinner⟩)

/-! ## Passing gaps -/

theorem lexemesFrom_dropWhile (offset : Nat) (cs : List Char) :
    scheme.lexicon.lexemesFrom offset cs =
      scheme.lexicon.lexemesFrom (offset + byteLength (cs.takeWhile isSpacing))
        (cs.dropWhile isSpacing) := by
  cases cs with
  | nil => simp
  | cons c rest =>
      by_cases hblank : isSpacing c = true
      · have hcut := tidy.cut_spacing hblank rest
        rw [← List.takeWhile_append_dropWhile (p := isSpacing) (l := rest)] at hcut
        have hruns := Lexicon.lexemesFrom_of_skip offset
          (hcut.trans (by rw [List.takeWhile_append_dropWhile]))
        rw [List.cons_append, List.takeWhile_append_dropWhile] at hruns
        rw [hruns, List.takeWhile_cons_of_pos hblank, List.dropWhile_cons_of_pos hblank]
      · rw [List.takeWhile_cons_of_neg hblank, List.dropWhile_cons_of_neg hblank,
          byteLength_nil, Nat.add_zero]

theorem lexemesFrom_blank (h : isSpacing c = true) :
    scheme.lexicon.lexemesFrom offset (c :: rest) =
      scheme.lexicon.lexemesFrom (offset + c.utf8Size) rest := by
  rw [tidy.lexemesFrom_dropWhile, tidy.lexemesFrom_dropWhile (offset + c.utf8Size),
    List.takeWhile_cons_of_pos h, List.dropWhile_cons_of_pos h, byteLength_cons, Nat.add_assoc]

theorem lexemesFrom_line {lead body : List Char} (offset : Nat) (hlead : lead ∈ scheme.lineLead?)
    (hbody : '\n' ∉ body) (hrest : ∀ c ∈ rest.head?, c = '\n') :
    scheme.lexicon.lexemesFrom offset (lead ++ body ++ rest) =
      scheme.lexicon.lexemesFrom (offset + byteLength (lead ++ body)) rest := by
  obtain ⟨first, later, rfl⟩ := tidy.exists_of_lead hlead
  have hall : ∀ c ∈ body, (c != '\n') = true := by
    intro c hc
    exact bne_iff_ne.mpr fun heq => hbody (heq ▸ hc)
  have hstops : ∀ c ∈ rest.head?, (c != '\n') = false := by
    intro c hc
    simp [hrest c hc]
  have hcut := tidy.cut_line hlead (body ++ rest)
  rw [takeWhile_append_of_head hall hstops, ← List.length_append, ← List.append_assoc] at hcut
  exact Lexicon.lexemesFrom_of_skip _ hcut

theorem lexemesFrom_block {comment : BlockComment} {body : List Char}
    (hcomment : comment ∈ scheme.comment?)
    (hbody : ¬ [comment.closer.1, comment.closer.2] <:+: body) :
    scheme.lexicon.lexemesFrom offset (comment.opener.1 :: comment.opener.2 ::
        (body ++ comment.closer.1 :: comment.closer.2 :: rest)) =
      scheme.lexicon.lexemesFrom (offset + byteLength (comment.opener.1 :: comment.opener.2 ::
        (body ++ [comment.closer.1, comment.closer.2]))) rest := by
  have hpass := passThrough?_append (tidy.comment_closer comment hcomment).1 hbody rest 1
  have hcut := cut_block hcomment hpass
  have hsplit : comment.opener.2 :: (body ++ comment.closer.1 :: comment.closer.2 :: rest) =
      (comment.opener.2 :: (body ++ [comment.closer.1, comment.closer.2])) ++ rest := by
    simp
  have hlength : 1 + body.length + 2 =
      (comment.opener.2 :: (body ++ [comment.closer.1, comment.closer.2])).length := by
    simp only [List.length_cons, List.length_append, List.length_nil]
    omega
  rw [hsplit, hlength] at hcut
  rw [hsplit]
  exact Lexicon.lexemesFrom_of_skip _ hcut

theorem lexemesFrom_gap (h : scheme.Gap gap) (offset : Nat) (rest : List Char) :
    scheme.lexicon.lexemesFrom offset (gap ++ rest) =
      scheme.lexicon.lexemesFrom (offset + byteLength gap) rest := by
  induction h generalizing offset with
  | nil => rfl
  | blank hblank hrest ih =>
      rw [List.cons_append, tidy.lexemesFrom_blank hblank, ih, byteLength_cons, Nat.add_assoc]
  | @line lead body gap hlead hbody hrest ih =>
      have hfeed : isSpacing '\n' = true := by decide
      have hend : ∀ c ∈ ('\n' :: (gap ++ rest)).head?, c = '\n' :=
        fun c hc => (Option.some.inj hc).symm
      have hline := tidy.lexemesFrom_line offset hlead hbody hend
      rw [List.append_assoc, List.cons_append, hline, tidy.lexemesFrom_blank hfeed, ih]
      simp only [byteLength_append, byteLength_cons, Nat.add_assoc]
  | block hcomment hbody hrest ih =>
      simp only [List.cons_append, List.append_assoc]
      rw [tidy.lexemesFrom_block hcomment hbody, ih]
      simp only [byteLength_append, byteLength_cons, byteLength_nil, Nat.add_assoc, Nat.add_zero]

theorem lexemesFrom_lastGap (h : scheme.LastGap gap) :
    scheme.lexicon.lexemesFrom offset gap = .ok [] := by
  cases h with
  | closed h =>
      have hgap := tidy.lexemesFrom_gap h offset []
      rw [List.append_nil, Lexicon.lexemesFrom_nil] at hgap
      exact hgap
  | @line front lead body hgap hlead hbody =>
      have hend : ∀ c ∈ ([] : List Char).head?, c = '\n' := nofun
      have hline := tidy.lexemesFrom_line (offset + byteLength front) hlead hbody hend
      rw [List.append_nil, Lexicon.lexemesFrom_nil] at hline
      rw [tidy.lexemesFrom_gap hgap, hline]

end Tidy

end Scheme

/-! ## Lexemes with gaps between them -/

structure Written (τ : Type) where
  token : τ
  text : List Char
  gap : List Char

namespace Written

def textOf (written : List (Written τ)) : List Char :=
  written.flatMap fun lexeme => lexeme.text ++ lexeme.gap

def lexemesAt (offset : Nat) : List (Written τ) → List (Lexeme τ)
  | [] => []
  | ⟨token, text, gap⟩ :: rest =>
      ⟨token, String.ofList text, ⟨offset, offset + byteLength text⟩⟩ ::
        lexemesAt (offset + byteLength text + byteLength gap) rest

end Written

/-- A gap and lexemes behind it: each lexeme is one as a whole, and what stands between two
of them is not empty. -/
def Scheme.LaidOut (scheme : Scheme τ) (gap : List Char) : List (Written τ) → Prop
  | [] => scheme.LastGap gap
  | ⟨token, text, behind⟩ :: rest =>
      scheme.Gap gap ∧
      scheme.lexicon.lexemes text = .ok [⟨token, String.ofList text, ⟨0, byteLength text⟩⟩] ∧
      (rest ≠ [] → behind ≠ []) ∧ scheme.LaidOut behind rest

namespace Scheme

variable {scheme : Scheme τ}

theorem Tidy.head_laidOut (tidy : scheme.Tidy) {gap : List Char} {written : List (Written τ)}
    (h : scheme.LaidOut gap written) {c : Char} (hc : c ∈ gap.head?) : c ∈ scheme.gapStarts := by
  cases written with
  | nil => exact tidy.head_lastGap h hc
  | cons first rest => exact tidy.head_gap h.1 hc

/-- Laid-out lexemes are the lexemes of their text. -/
theorem Tidy.lexemesFrom_laidOut (tidy : scheme.Tidy) {gap : List Char}
    {written : List (Written τ)} (h : scheme.LaidOut gap written) (offset : Nat) :
    scheme.lexicon.lexemesFrom offset (gap ++ Written.textOf written) =
      .ok (Written.lexemesAt (offset + byteLength gap) written) := by
  induction written generalizing gap offset with
  | nil =>
      rw [Written.textOf, List.flatMap_nil, List.append_nil]
      exact tidy.lexemesFrom_lastGap h
  | cons first rest ih =>
      obtain ⟨token, text, behind⟩ := first
      obtain ⟨hgap, hwhole, hbetween, hrest⟩ := h
      obtain ⟨c, front, rfl, hcut⟩ := Lexicon.cut_of_whole hwhole
      have hhead : ∀ d ∈ (behind ++ Written.textOf rest).head?,
          d ∈ scheme.gapStarts ∨ d ∈ ([] : List Char).head? := by
        intro d hd
        cases behind with
        | cons e behind => exact .inl (tidy.head_laidOut hrest hd)
        | nil =>
            -- With nothing behind the lexeme it is the last one.
            obtain rfl : rest = [] := Decidable.byContradiction fun hne => hbetween hne rfl
            exact nomatch hd
      have halone : scheme.lexicon.cut c (front ++ []) = .ok ⟨front.length, some token⟩ := by
        rwa [List.append_nil]
      have hpiece := tidy.cut_append halone hhead
      have htoken := Lexicon.lexemesFrom_of_token (offset + byteLength gap) hpiece
      rw [tidy.lexemesFrom_gap hgap, Written.textOf, List.flatMap_cons, List.append_assoc]
      refine htoken.trans ?_
      rw [ih hrest]
      rfl

end Scheme

end GrammarTable.Token
