import GrammarTable.Proofs.Token.Lexing

/-!
# Texts as rows of longest pieces

A text is a row of pieces, each the longest that a definition of the lexicon allows where it
stands, up to the end of the text or to a place where none is cut off. What is allowed is said
here by the form of a piece alone. There is one such row for a text, and its tokens are the
lexemes.
-/

namespace GrammarTable.Token

open Text

variable {τ : Type}

/-! ## What the definitions allow -/

/-- A block comment runs to the first closer behind its opener. -/
def BlockComment.Piece (comment : BlockComment) (piece : List Char) : Prop :=
  ∃ body, piece = comment.opener.1 :: comment.opener.2 ::
      (body ++ [comment.closer.1, comment.closer.2]) ∧
    ¬ [comment.closer.1, comment.closer.2] <:+: body

def BlockComment.Unclosed (comment : BlockComment) (text : List Char) : Prop :=
  ∃ body, text = comment.opener.1 :: comment.opener.2 :: body ∧
    ¬ [comment.closer.1, comment.closer.2] <:+: body

namespace Lexicon

def Allows (lexicon : Lexicon τ) (piece : List Char) : Prop :=
  (∃ comment ∈ lexicon.comment?, comment.Piece piece) ∨
    ∃ entry ∈ lexicon.entries, entry.shape.Piece piece

/-- The piece is allowed, and no longer one is at the front of the text. -/
def Longest (lexicon : Lexicon τ) (piece rest : List Char) : Prop :=
  lexicon.Allows piece ∧
    ∀ front back, piece ++ rest = front ++ back → lexicon.Allows front →
      front.length ≤ piece.length

/-- What a piece stands for: nothing if it is a block comment, else what the first entry that
allows it says. -/
inductive Denotes (lexicon : Lexicon τ) (piece : List Char) : Option τ → Prop where
  | block {comment : BlockComment} (hcomment : comment ∈ lexicon.comment?)
      (hpiece : comment.Piece piece) : Denotes lexicon piece none
  | first {before after : List (Entry τ)} {entry : Entry τ}
      (hentries : lexicon.entries = before ++ entry :: after) (hpiece : entry.shape.Piece piece)
      (hbefore : ∀ other ∈ before, ¬ other.shape.Piece piece) :
      Denotes lexicon piece (entry.token? piece)

def Unclosed (lexicon : Lexicon τ) (text : List Char) : Prop :=
  ∃ comment ∈ lexicon.comment?, comment.Unclosed text

/-- Nothing is cut off a text: no piece is allowed at its front, or a block comment opens there
that has no closer. -/
inductive Stuck (lexicon : Lexicon τ) : List Char → LexicalFault → Prop where
  | unexpected {c : Char} {rest : List Char}
      (hnone : ∀ front back, c :: rest = front ++ back → ¬ lexicon.Allows front)
      (hclosed : ¬ lexicon.Unclosed (c :: rest)) :
      Stuck lexicon (c :: rest) (.unexpectedCharacter c)
  | unterminated {comment : BlockComment} {text : List Char}
      (hcomment : comment ∈ lexicon.comment?) (hopen : comment.Unclosed text) :
      Stuck lexicon text
        (.unterminatedComment (String.ofList [comment.opener.1, comment.opener.2]))

end Lexicon

structure Fragment (τ : Type) where
  text : List Char
  token? : Option τ

namespace Fragment

def textOf (fragments : List (Fragment τ)) : List Char :=
  fragments.flatMap Fragment.text

def lexemesAt (offset : Nat) : List (Fragment τ) → List (Lexeme τ)
  | [] => []
  | ⟨text, none⟩ :: rest => lexemesAt (offset + byteLength text) rest
  | ⟨text, some token⟩ :: rest =>
      ⟨token, String.ofList text, ⟨offset, offset + byteLength text⟩⟩ ::
        lexemesAt (offset + byteLength text) rest

def outcome (offset : Nat) (fragments : List (Fragment τ)) :
    Option LexicalFault → Except (Nat × LexicalFault) (List (Lexeme τ))
  | none => .ok (lexemesAt offset fragments)
  | some fault => .error (offset + byteLength (textOf fragments), fault)

theorem textOf_cons (fragment : Fragment τ) (fragments : List (Fragment τ)) :
    textOf (fragment :: fragments) = fragment.text ++ textOf fragments :=
  List.flatMap_cons

end Fragment

namespace Lexicon

/-- A text from left to right: its pieces, what is left behind them, and the fault there if
anything is left. -/
inductive Cuts (lexicon : Lexicon τ) :
    List Char → List (Fragment τ) → List Char → Option LexicalFault → Prop where
  | done : Cuts lexicon [] [] [] none
  | stuck {text : List Char} {fault : LexicalFault} (hstuck : lexicon.Stuck text fault) :
      Cuts lexicon text [] text (some fault)
  | piece {piece rest left : List Char} {token? : Option τ} {fragments : List (Fragment τ)}
      {fault? : Option LexicalFault} (hlongest : lexicon.Longest piece rest)
      (hdenotes : lexicon.Denotes piece token?) (hclosed : ¬ lexicon.Unclosed (piece ++ rest))
      (later : Cuts lexicon rest fragments left fault?) :
      Cuts lexicon (piece ++ rest) (⟨piece, token?⟩ :: fragments) left fault?

variable {lexicon : Lexicon τ} {comment : BlockComment} {entry : Entry τ} {c : Char}
  {piece rest front back text left : List Char} {token? other? : Option τ}
  {fragments : List (Fragment τ)} {fault other : LexicalFault} {fault? : Option LexicalFault}

theorem Longest.unique (hpiece : lexicon.Longest piece rest) (hfront : lexicon.Longest front back)
    (h : piece ++ rest = front ++ back) : piece = front ∧ rest = back := by
  apply List.append_inj h
  apply Nat.le_antisymm
  · exact hfront.2 piece rest h.symm hpiece.1
  · exact hpiece.2 front back h hfront.1

/-- The pieces and what is left make up the text. -/
theorem Cuts.text_eq (h : lexicon.Cuts text fragments left fault?) :
    text = Fragment.textOf fragments ++ left := by
  induction h with
  | done => rfl
  | stuck hstuck => rfl
  | piece hlongest hdenotes hclosed later ih =>
      rw [Fragment.textOf_cons, List.append_assoc, ← ih]

/-- Without a fault nothing is left, and at a fault nothing is cut off what is left. -/
theorem Cuts.left_cases (h : lexicon.Cuts text fragments left fault?) :
    fault? = none ∧ left = [] ∨ ∃ fault, fault? = some fault ∧ lexicon.Stuck left fault := by
  induction h with
  | done => exact .inl ⟨rfl, rfl⟩
  | stuck hstuck => exact .inr ⟨_, rfl, hstuck⟩
  | piece hlongest hdenotes hclosed later ih => exact ih

/-! ## Clear lexicons -/

/-- No piece is empty, and a block comment is told from every entry by its opener. -/
structure Clear (lexicon : Lexicon τ) : Prop where
  nonempty : ∀ entry ∈ lexicon.entries, entry.shape.cut? [] = none
  opener : ∀ comment ∈ lexicon.comment?, ∀ entry ∈ lexicon.entries,
    entry.shape.starts comment.opener.1 = true → entry.shape.admits comment.opener.2 = false
  closer : ∀ comment ∈ lexicon.comment?, comment.closer.1 ≠ comment.closer.2

/-- No entry allows the opener of a block comment. -/
theorem Clear.not_entry_piece (clear : lexicon.Clear) (hcomment : comment ∈ lexicon.comment?)
    (hentry : entry ∈ lexicon.entries) :
    ¬ entry.shape.Piece (comment.opener.1 :: comment.opener.2 :: back) := by
  intro hpiece
  have hfirst := Shape.starts_of_piece hpiece
  have hsecond : entry.shape.admits comment.opener.2 = true :=
    Shape.admits_of_mem_piece hpiece (by simp)
  rw [clear.opener comment hcomment entry hentry hfirst] at hsecond
  exact nomatch hsecond

theorem Clear.ne_nil (clear : lexicon.Clear) (h : lexicon.Allows piece) : piece ≠ [] := by
  rintro rfl
  rcases h with ⟨comment, -, body, hbody, -⟩ | ⟨entry, hentry, hpiece⟩
  · exact nomatch hbody
  · have hcut := Shape.cut?_append_run hpiece []
    rw [List.nil_append, clear.nonempty entry hentry] at hcut
    exact nomatch hcut

theorem Clear.text_ne_nil (clear : lexicon.Clear)
    (h : lexicon.Cuts text fragments left fault?) : ∀ fragment ∈ fragments, fragment.text ≠ [] := by
  induction h with
  | done => exact nofun
  | stuck hstuck => exact nofun
  | piece hlongest hdenotes hclosed later ih =>
      exact List.forall_mem_cons.mpr ⟨clear.ne_nil hlongest.1, ih⟩

/-- A block comment ends at one place. -/
theorem Clear.block_unique (clear : lexicon.Clear) (hcomment : comment ∈ lexicon.comment?)
    (hpiece : comment.Piece piece) (hfront : comment.Piece front)
    (h : piece ++ rest = front ++ back) : piece = front := by
  obtain ⟨body, rfl, hbody⟩ := hpiece
  obtain ⟨inner, rfl, hinner⟩ := hfront
  simp only [List.cons_append, List.append_assoc, List.nil_append, List.cons.injEq, true_and] at h
  have hne := clear.closer comment hcomment
  have hpassed := passThrough?_append hne hbody rest 0
  rw [h, passThrough?_append hne hinner back 0] at hpassed
  have hlength : body.length = inner.length := by
    have hsome := Option.some.inj hpassed
    omega
  rw [(List.append_inj h hlength).1]

theorem Clear.longest_block (clear : lexicon.Clear) (hcomment : comment ∈ lexicon.comment?)
    (hpiece : comment.Piece piece) (rest : List Char) : lexicon.Longest piece rest := by
  refine ⟨.inl ⟨comment, hcomment, hpiece⟩, ?_⟩
  intro front back h hfront
  rcases hfront with ⟨found, hfound, hblock⟩ | ⟨entry, hentry, hallowed⟩
  · obtain rfl := Option.mem_unique hfound hcomment
    exact Nat.le_of_eq (congrArg List.length (clear.block_unique hcomment hblock hpiece h.symm))
  · obtain ⟨body, rfl, -⟩ := hpiece
    cases front with
    | nil => exact Nat.zero_le _
    | cons first front =>
        obtain ⟨rfl, htail⟩ := List.cons.inj h
        cases front with
        | nil => simp
        | cons second front =>
            obtain ⟨rfl, -⟩ := List.cons.inj htail
            exact absurd hallowed (clear.not_entry_piece hcomment hentry)

/-- The first entry that has a property is the only first one. -/
theorem first_unique {α : Type} {p : α → Prop} {x y : α} {before after front back : List α}
    (h : before ++ x :: after = front ++ y :: back) (hx : p x) (hy : p y)
    (hbefore : ∀ z ∈ before, ¬ p z) (hfront : ∀ z ∈ front, ¬ p z) : x = y := by
  induction before generalizing front with
  | nil =>
      cases front with
      | nil => exact (List.cons.inj h).1
      | cons z front =>
          obtain rfl := (List.cons.inj h).1
          exact absurd hx (hfront _ List.mem_cons_self)
  | cons z before ih =>
      rw [List.forall_mem_cons] at hbefore
      cases front with
      | nil =>
          obtain rfl := (List.cons.inj h).1
          exact absurd hy hbefore.1
      | cons w front =>
          rw [List.forall_mem_cons] at hfront
          exact ih (List.cons.inj h).2 hbefore.2 hfront.2

/-- A piece stands for one thing. -/
theorem Clear.denotes_unique (clear : lexicon.Clear) (h : lexicon.Denotes piece token?)
    (hother : lexicon.Denotes piece other?) : token? = other? := by
  -- A block comment is no piece of an entry.
  have hapart : ∀ {comment : BlockComment} {before after : List (Entry τ)} {entry : Entry τ},
      comment ∈ lexicon.comment? → comment.Piece piece →
      lexicon.entries = before ++ entry :: after → ¬ entry.shape.Piece piece := by
    rintro comment before after entry hcomment ⟨body, rfl, -⟩ hentries
    exact clear.not_entry_piece hcomment (by simp [hentries])
  cases h with
  | block hcomment hblock =>
      cases hother with
      | block => rfl
      | first hentries hpiece => exact absurd hpiece (hapart hcomment hblock hentries)
  | first hentries hpiece hbefore =>
      cases hother with
      | block hcomment hblock => exact absurd hpiece (hapart hcomment hblock hentries)
      | first hsplit hfound hfront =>
          rw [hentries] at hsplit
          rw [first_unique hsplit hpiece hfound hbefore hfront]

/-! ## One piece -/

theorem not_unclosed_block (hcomment : comment ∈ lexicon.comment?) (hpiece : comment.Piece piece)
    (rest : List Char) : ¬ lexicon.Unclosed (piece ++ rest) := by
  rintro ⟨found, hfound, body, hsplit, hbody⟩
  obtain rfl := Option.mem_unique hfound hcomment
  obtain ⟨inner, rfl, -⟩ := hpiece
  simp only [List.cons_append, List.append_assoc, List.nil_append, List.cons.injEq,
    true_and] at hsplit
  exact hbody ⟨inner, rest, by simp [← hsplit]⟩

section NotOpen

variable (hopener : ∀ comment ∈ lexicon.comment?, ∀ d ∈ rest.head?, (c, d) ≠ comment.opener)
include hopener

theorem not_block (h : c :: rest = front ++ back) (hcomment : comment ∈ lexicon.comment?) :
    ¬ comment.Piece front := by
  rintro ⟨body, rfl, -⟩
  obtain ⟨rfl, rfl⟩ := List.cons.inj h
  exact hopener comment hcomment _ rfl rfl

theorem not_unclosed : ¬ lexicon.Unclosed (c :: rest) := by
  rintro ⟨comment, hcomment, body, h, -⟩
  obtain ⟨rfl, rfl⟩ := List.cons.inj h
  exact hopener comment hcomment _ rfl rfl

end NotOpen

/-- What is cut off a text is the longest piece that is allowed there. -/
theorem Clear.of_cut_ok (clear : lexicon.Clear)
    (h : lexicon.cut c (front ++ rest) = .ok ⟨front.length, token?⟩) :
    lexicon.Longest (c :: front) rest ∧ lexicon.Denotes (c :: front) token? ∧
      ¬ lexicon.Unclosed (c :: front ++ rest) := by
  rcases cut_cases h with ⟨comment, hcomment, body, rfl, hbody, rfl, hpass⟩ |
    ⟨hopener, entry, hlongest, htoken⟩
  · obtain ⟨inner, behind, rfl, hlength, hinner⟩ := exists_of_passThrough? hpass
    have hsplit : front ++ rest =
        comment.opener.2 :: (inner ++ [comment.closer.1, comment.closer.2]) ++ behind := by
      simpa using hbody
    obtain ⟨rfl, rfl⟩ := List.append_inj hsplit (by simp; omega)
    have hpiece : comment.Piece (comment.opener.1 :: comment.opener.2 ::
        (inner ++ [comment.closer.1, comment.closer.2])) :=
      ⟨inner, rfl, hinner⟩
    exact ⟨clear.longest_block hcomment hpiece rest, .block hcomment hpiece,
      not_unclosed_block hcomment hpiece rest⟩
  · rw [List.take_left] at htoken
    subst htoken
    obtain ⟨before, after, hentries, hcut, hbefore⟩ := split_of_longest? hlongest
    have hpiece : entry.shape.Piece (c :: front) := (Shape.piece_of_cut?_append hcut).1
    refine ⟨⟨.inr ⟨entry, by simp [hentries], hpiece⟩, ?_⟩, .first hentries hpiece ?_,
      not_unclosed hopener⟩
    · intro other back hsplit hallowed
      rcases hallowed with ⟨comment, hcomment, hblock⟩ | ⟨found, hfound, hallowed⟩
      · exact absurd hblock (not_block hopener hsplit hcomment)
      · rw [← List.cons_append, hsplit] at hlongest
        exact length_le_of_longest? hlongest hfound hallowed
    · intro other hother hallowed
      have hless := hbefore other hother _ (Shape.cut?_append_run hallowed rest)
      simp only [List.length_append, List.length_cons] at hless
      omega

/-- Where a step fails the text is stuck. -/
theorem Clear.of_cut_error (clear : lexicon.Clear) (h : lexicon.cut c rest = .error fault) :
    lexicon.Stuck (c :: rest) fault := by
  rcases cut_error_cases h with ⟨comment, hcomment, body, rfl, rfl, rfl, hpass⟩ |
    ⟨hopener, rfl, hnone⟩
  · exact .unterminated hcomment ⟨body, rfl, not_infix_of_passThrough? hpass⟩
  · refine .unexpected ?_ (not_unclosed hopener)
    intro front back hsplit hallowed
    have hpos := List.length_pos_iff.mpr (clear.ne_nil hallowed)
    rcases hallowed with ⟨comment, hcomment, hblock⟩ | ⟨entry, hentry, hpiece⟩
    · exact not_block hopener hsplit hcomment hblock
    · cases hlongest : longest? lexicon.entries (c :: rest) with
      | none =>
          have hcut := cut?_of_longest?_eq_none hlongest hentry
          rw [hsplit, Shape.cut?_append_run hpiece back] at hcut
          exact nomatch hcut
      | some best =>
          obtain ⟨n, winner⟩ := best
          have hfront := hlongest
          rw [hsplit] at hfront
          have hle := length_le_of_longest? hfront hentry hpiece
          cases n with
          | zero => omega
          | succ more => exact hnone more winner hlongest

/-! ## One row of pieces -/

theorem Stuck.unique (h : lexicon.Stuck text fault) (hother : lexicon.Stuck text other) :
    fault = other := by
  cases h with
  | unexpected hnone hclosed =>
      cases hother with
      | unexpected => rfl
      | unterminated hcomment hopen => exact absurd ⟨_, hcomment, hopen⟩ hclosed
  | unterminated hcomment hopen =>
      cases hother with
      | unexpected hnone hclosed => exact absurd ⟨_, hcomment, hopen⟩ hclosed
      | unterminated hfound => rw [Option.mem_unique hcomment hfound]

theorem Stuck.ne_nil (h : lexicon.Stuck text fault) : text ≠ [] := by
  cases h with
  | unexpected => exact List.cons_ne_nil _ _
  | unterminated hcomment hopen =>
      obtain ⟨body, rfl, -⟩ := hopen
      exact List.cons_ne_nil _ _

/-- Where a text is stuck a piece is allowed only as the start of an open comment. -/
theorem Stuck.unclosed (h : lexicon.Stuck text fault) (hsplit : text = front ++ back)
    (hallowed : lexicon.Allows front) : lexicon.Unclosed text := by
  cases h with
  | unexpected hnone hclosed => exact absurd hallowed (hnone front back hsplit)
  | unterminated hcomment hopen => exact ⟨_, hcomment, hopen⟩

theorem Cuts.inv (h : lexicon.Cuts text fragments left fault?) :
    (text = [] ∧ fragments = [] ∧ left = [] ∧ fault? = none) ∨
    (fragments = [] ∧ left = text ∧ ∃ fault, fault? = some fault ∧ lexicon.Stuck text fault) ∨
    ∃ piece rest token? later, text = piece ++ rest ∧ fragments = ⟨piece, token?⟩ :: later ∧
      lexicon.Longest piece rest ∧ lexicon.Denotes piece token? ∧
      ¬ lexicon.Unclosed (piece ++ rest) ∧ lexicon.Cuts rest later left fault? := by
  cases h with
  | done => exact .inl ⟨rfl, rfl, rfl, rfl⟩
  | stuck hstuck => exact .inr (.inl ⟨rfl, rfl, _, rfl, hstuck⟩)
  | piece hlongest hdenotes hclosed later =>
      exact .inr (.inr ⟨_, _, _, _, rfl, rfl, hlongest, hdenotes, hclosed, later⟩)

/-- A text falls into pieces in one way. -/
theorem Clear.cuts_unique (clear : lexicon.Clear) {others : List (Fragment τ)}
    {behind : List Char} {found? : Option LexicalFault}
    (h : lexicon.Cuts text fragments left fault?) (hother : lexicon.Cuts text others behind found?) :
    others = fragments ∧ behind = left ∧ found? = fault? := by
  induction h generalizing others with
  | done =>
      rcases hother.inv with ⟨-, rfl, rfl, rfl⟩ | ⟨-, -, fault, -, hstuck⟩ |
        ⟨piece, rest, token?, later, hsplit, -, hlongest, -⟩
      · exact ⟨rfl, rfl, rfl⟩
      · exact absurd rfl hstuck.ne_nil
      · exact absurd (List.append_eq_nil_iff.mp hsplit.symm).1 (clear.ne_nil hlongest.1)
  | stuck hstuck =>
      rcases hother.inv with ⟨hnil, -⟩ | ⟨rfl, rfl, fault, rfl, hfault⟩ |
        ⟨piece, rest, token?, later, hsplit, -, hlongest, -, hclosed, -⟩
      · exact absurd hnil hstuck.ne_nil
      · exact ⟨rfl, rfl, congrArg some (hfault.unique hstuck)⟩
      · rw [← hsplit] at hclosed
        exact absurd (hstuck.unclosed hsplit hlongest.1) hclosed
  | piece hlongest hdenotes hclosed later ih =>
      rcases hother.inv with ⟨hnil, -⟩ | ⟨-, -, fault, -, hstuck⟩ |
        ⟨piece, rest, token?, others, hsplit, rfl, hfound, htoken, -, hothers⟩
      · exact absurd (List.append_eq_nil_iff.mp hnil).1 (clear.ne_nil hlongest.1)
      · exact absurd (hstuck.unclosed rfl hlongest.1) hclosed
      · obtain ⟨rfl, rfl⟩ := hlongest.unique hfound hsplit
        obtain ⟨rfl, rfl, rfl⟩ := ih hothers
        exact ⟨by rw [clear.denotes_unique htoken hdenotes], rfl, rfl⟩

end Lexicon

/-! ## The lexemes of the pieces -/

namespace Fragment

theorem outcome_skip (offset : Nat) (text : List Char) (fragments : List (Fragment τ))
    (fault? : Option LexicalFault) :
    outcome offset (⟨text, none⟩ :: fragments) fault? =
      outcome (offset + byteLength text) fragments fault? := by
  cases fault? with
  | none => rfl
  | some fault => simp [outcome, textOf_cons, Nat.add_assoc]

theorem outcome_token (offset : Nat) (text : List Char) (token : τ)
    (fragments : List (Fragment τ)) (fault? : Option LexicalFault) :
    outcome offset (⟨text, some token⟩ :: fragments) fault? =
      (outcome (offset + byteLength text) fragments fault?).map
        (⟨token, String.ofList text, ⟨offset, offset + byteLength text⟩⟩ :: ·) := by
  cases fault? with
  | none => rfl
  | some fault => simp [outcome, textOf_cons, Except.map, Nat.add_assoc]

end Fragment

namespace Lexicon

variable {lexicon : Lexicon τ} {text left : List Char} {fragments : List (Fragment τ)}
  {fault? : Option LexicalFault}

theorem Clear.exists_cuts (clear : lexicon.Clear) (offset : Nat) (text : List Char) :
    ∃ fragments left fault?, lexicon.Cuts text fragments left fault? ∧
      lexicon.lexemesFrom offset text = Fragment.outcome offset fragments fault? := by
  induction hlength : text.length using Nat.strongRecOn generalizing offset text with
  | ind length ih =>
      subst hlength
      cases text with
      | nil => exact ⟨[], [], none, .done, lexemesFrom_nil⟩
      | cons c rest =>
          cases hcut : lexicon.cut c rest with
          | error fault =>
              exact ⟨[], c :: rest, some fault, .stuck (clear.of_cut_error hcut),
                lexemesFrom_of_error offset hcut⟩
          | ok piece =>
              obtain ⟨more, token?⟩ := piece
              obtain ⟨front, back, rfl, rfl⟩ := exists_of_cut hcut
              obtain ⟨hlongest, hdenotes, hclosed⟩ := clear.of_cut_ok hcut
              have hshorter : back.length < (c :: (front ++ back)).length := by
                rw [List.length_cons, List.length_append]
                omega
              obtain ⟨fragments, left, fault?, hlater, houtcome⟩ :=
                ih _ hshorter (offset + byteLength (c :: front)) back rfl
              refine ⟨⟨c :: front, token?⟩ :: fragments, left, fault?,
                .piece hlongest hdenotes hclosed hlater, ?_⟩
              cases token? with
              | none =>
                  rw [Fragment.outcome_skip, ← houtcome]
                  exact lexemesFrom_of_skip offset hcut
              | some token =>
                  rw [Fragment.outcome_token, ← houtcome]
                  exact lexemesFrom_of_token offset hcut

/-- The lexemes of a text are the tokens of its pieces. -/
theorem Clear.lexemes_eq (clear : lexicon.Clear) (h : lexicon.Cuts text fragments left fault?) :
    lexicon.lexemes text = Fragment.outcome 0 fragments fault? := by
  obtain ⟨others, behind, found?, hother, houtcome⟩ := clear.exists_cuts 0 text
  obtain ⟨rfl, rfl, rfl⟩ := clear.cuts_unique h hother
  exact houtcome

end Lexicon

end GrammarTable.Token
