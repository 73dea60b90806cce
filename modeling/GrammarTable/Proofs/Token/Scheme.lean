import GrammarTable.Proofs.Token.Shape
import GrammarTable.Token.Lexicon
import Mathlib.Data.List.Induction

/-!
# Lexicons of blanks, comments and tokens

A scheme is a lexicon by the roles of its entries. In a tidy scheme a character tells which
entry a piece belongs to, and no token goes on with the start of a blank or a comment. So
the piece of a token does not hang on what stands behind it.
-/

namespace GrammarTable.Token

open Text

variable {τ : Type}

/-! ## The longest piece -/

namespace Lexicon

section Longest

variable {entries : List (Entry τ)} {entry : Entry τ} {cs ds : List Char} {n : Nat}

def propose (cs : List Char) (best : Option (Nat × Entry τ)) (entry : Entry τ) :
    Option (Nat × Entry τ) :=
  match entry.shape.cut? cs with
  | none => best
  | some length => longer best length entry

/-- An entry takes more than the best so far, or the best stays. -/
theorem propose_cases {best : Option (Nat × Entry τ)} {other : Entry τ}
    (h : propose cs best other = some (n, entry)) :
    (other = entry ∧ other.shape.cut? cs = some n ∧ ∀ known ∈ best, known.1 < n) ∨
      best = some (n, entry) := by
  unfold propose longer at h
  cases hcut : other.shape.cut? cs with
  | none =>
      rw [hcut] at h
      exact .inr h
  | some length =>
      simp only [hcut] at h
      split at h
      · obtain ⟨rfl, rfl⟩ := Prod.mk.inj (Option.some.inj h)
        exact .inl ⟨rfl, rfl, nofun⟩
      · split at h
        · rename_i hless
          obtain ⟨rfl, rfl⟩ := Prod.mk.inj (Option.some.inj h)
          exact .inl ⟨rfl, rfl, by simpa using hless⟩
        · exact .inr h

/-- Neither the best so far nor the entry takes more than the best of both. -/
theorem le_propose (cs : List Char) (best : Option (Nat × Entry τ)) (entry : Entry τ) :
    (∀ known ∈ best, ∃ found ∈ propose cs best entry, known.1 ≤ found.1) ∧
      ∀ m ∈ entry.shape.cut? cs, ∃ found ∈ propose cs best entry, m ≤ found.1 := by
  unfold propose longer
  cases entry.shape.cut? cs with
  | none => exact ⟨fun known hknown => ⟨known, hknown, Nat.le_refl _⟩, nofun⟩
  | some length =>
      cases best with
      | none => simp
      | some best =>
          simp only [Option.mem_def, Option.some.injEq, forall_eq']
          split <;> simp <;> omega

theorem longest?_concat (entries : List (Entry τ)) (entry : Entry τ) (cs : List Char) :
    longest? (entries ++ [entry]) cs = propose cs (longest? entries cs) entry :=
  List.foldl_append

theorem longest?_congr
    (h : ∀ entry ∈ entries, entry.shape.cut? cs = entry.shape.cut? ds) :
    longest? entries cs = longest? entries ds := by
  induction entries using List.reverseRecOn with
  | nil => rfl
  | append_singleton entries last ih =>
      obtain ⟨hentries, hlast⟩ := List.forall_mem_append.mp h
      rw [longest?_concat, longest?_concat, ih hentries, propose, propose,
        hlast last (List.mem_singleton_self last)]

/-- No entry takes more than the best of them. -/
theorem lt_of_longest?_lt (h : ∀ best ∈ longest? entries cs, best.1 < n) :
    ∀ other ∈ entries, ∀ m ∈ other.shape.cut? cs, m < n := by
  induction entries using List.reverseRecOn with
  | nil => exact nofun
  | append_singleton entries last ih =>
      rw [longest?_concat] at h
      obtain ⟨hbest, hlast⟩ := le_propose cs (longest? entries cs) last
      rw [List.forall_mem_append, List.forall_mem_singleton]
      constructor
      · apply ih
        intro known hknown
        obtain ⟨found, hfound, hle⟩ := hbest known hknown
        exact Nat.lt_of_le_of_lt hle (h found hfound)
      · intro m hm
        obtain ⟨found, hfound, hle⟩ := hlast m hm
        exact Nat.lt_of_le_of_lt hle (h found hfound)

theorem cut?_of_longest?_eq_none (h : longest? entries cs = none) (hentry : entry ∈ entries) :
    entry.shape.cut? cs = none := by
  rw [Option.eq_none_iff_forall_not_mem]
  intro m hm
  exact Nat.not_lt_zero m (lt_of_longest?_lt (by simp [h]) entry hentry m hm)

/-- No piece of an entry at the front of the text is longer than that of the winner. -/
theorem length_le_of_longest? {piece rest : List Char} {other : Entry τ}
    (h : longest? entries (piece ++ rest) = some (n, entry)) (hother : other ∈ entries)
    (hpiece : other.shape.Piece piece) : piece.length ≤ n := by
  have hbest : ∀ best ∈ longest? entries (piece ++ rest), best.1 < n + 1 := by simp [h]
  have hless := lt_of_longest?_lt hbest other hother _ (Shape.cut?_append_run hpiece rest)
  rw [List.length_append] at hless
  omega

/-- The winner takes more than the entries before it. -/
theorem split_of_longest? (h : longest? entries cs = some (n, entry)) :
    ∃ before after, entries = before ++ entry :: after ∧ entry.shape.cut? cs = some n ∧
      ∀ other ∈ before, ∀ m ∈ other.shape.cut? cs, m < n := by
  induction entries using List.reverseRecOn generalizing n entry with
  | nil => exact nomatch h
  | append_singleton entries last ih =>
      rw [longest?_concat] at h
      rcases propose_cases h with ⟨rfl, hcut, hless⟩ | hbest
      · exact ⟨entries, [], rfl, hcut, lt_of_longest?_lt hless⟩
      · obtain ⟨before, after, rfl, hcut, hbefore⟩ := ih hbest
        exact ⟨before, after ++ [last], by simp, hcut, hbefore⟩

theorem of_longest? (h : longest? entries cs = some (n, entry)) :
    entry ∈ entries ∧ entry.shape.cut? cs = some n := by
  obtain ⟨before, after, rfl, hcut, -⟩ := split_of_longest? h
  exact ⟨by simp, hcut⟩

/-- The only entry that cuts something off wins. -/
theorem longest?_of_only (hentry : entry ∈ entries) (hcut : entry.shape.cut? cs = some n)
    (honly : ∀ other ∈ entries, other.shape.cut? cs ≠ none → other = entry) :
    longest? entries cs = some (n, entry) := by
  cases hbest : longest? entries cs with
  | none =>
      rw [cut?_of_longest?_eq_none hbest hentry] at hcut
      contradiction
  | some best =>
      obtain ⟨length, winner⟩ := best
      obtain ⟨hmem, hwins⟩ := of_longest? hbest
      obtain rfl : winner = entry := honly winner hmem (Option.ne_none_iff_exists'.mpr ⟨_, hwins⟩)
      obtain rfl : length = n := Option.some.inj (hwins.symm.trans hcut)
      rfl

end Longest

/-! ## One step -/

variable {lexicon : Lexicon τ} {c : Char} {rest : List Char} {more : Nat} {token : τ}

/-- A block comment opens, or it does not. -/
theorem opens_or_not (lexicon : Lexicon τ) (c : Char) (rest : List Char) :
    (∃ comment ∈ lexicon.comment?, ∃ body, c = comment.opener.1 ∧
      rest = comment.opener.2 :: body) ∨
    ∀ comment ∈ lexicon.comment?, ∀ d ∈ rest.head?, (c, d) ≠ comment.opener := by
  by_cases hblock : ∃ comment ∈ lexicon.comment?, ∃ d ∈ rest.head?, (c, d) = comment.opener
  · obtain ⟨comment, hcomment, d, hd, hopener⟩ := hblock
    obtain ⟨body, rfl⟩ := List.head?_eq_some_iff.mp hd
    exact .inl ⟨comment, hcomment, body, congrArg Prod.fst hopener,
      congrArg (· :: body) (congrArg Prod.snd hopener)⟩
  · exact .inr fun comment hcomment d hd hopener => hblock ⟨comment, hcomment, d, hd, hopener⟩

theorem cut_of_opener {comment : BlockComment} (h : comment ∈ lexicon.comment?)
    (body : List Char) :
    lexicon.cut comment.opener.1 (comment.opener.2 :: body) =
      match passThrough? comment.closer.1 comment.closer.2 1 body with
      | some more => .ok ⟨more, none⟩
      | none =>
          .error (.unterminatedComment (String.ofList [comment.opener.1, comment.opener.2])) := by
  unfold cut
  rw [Option.mem_def.mp h]
  exact if_pos rfl

theorem cut_eq_cutEntry
    (h : ∀ comment ∈ lexicon.comment?, ∀ d ∈ rest.head?, (c, d) ≠ comment.opener) :
    lexicon.cut c rest = lexicon.cutEntry c rest := by
  unfold cut
  split
  · rename_i comment d body hcomment
    rw [if_neg (h comment hcomment d rfl)]
  · rfl

theorem cutEntry_of_longest? {entry : Entry τ}
    (h : longest? lexicon.entries (c :: rest) = some (more + 1, entry)) :
    lexicon.cutEntry c rest = .ok ⟨more, entry.token? (c :: rest.take more)⟩ := by
  unfold cutEntry
  rw [h]

theorem exists_of_cutEntry {token? : Option τ}
    (h : lexicon.cutEntry c rest = .ok ⟨more, token?⟩) :
    ∃ entry, longest? lexicon.entries (c :: rest) = some (more + 1, entry) ∧
      entry.token? (c :: rest.take more) = token? := by
  unfold cutEntry at h
  split at h
  · rename_i length entry hlongest
    obtain ⟨rfl, htoken⟩ := Cut.mk.inj (Except.ok.inj h)
    exact ⟨entry, hlongest, htoken⟩
  · exact nomatch h

theorem longest?_of_cutEntry_error {fault : LexicalFault}
    (h : lexicon.cutEntry c rest = .error fault) :
    fault = .unexpectedCharacter c ∧
      ∀ more entry, longest? lexicon.entries (c :: rest) ≠ some (more + 1, entry) := by
  unfold cutEntry at h
  split at h
  · exact nomatch h
  · rename_i hnone
    exact ⟨(Except.error.inj h).symm, hnone⟩

/-- A step skips a block comment, or it goes by the entries. -/
theorem cut_cases {token? : Option τ} (h : lexicon.cut c rest = .ok ⟨more, token?⟩) :
    (∃ comment ∈ lexicon.comment?, ∃ body, c = comment.opener.1 ∧
      rest = comment.opener.2 :: body ∧ token? = none ∧
      passThrough? comment.closer.1 comment.closer.2 1 body = some more) ∨
    ((∀ comment ∈ lexicon.comment?, ∀ d ∈ rest.head?, (c, d) ≠ comment.opener) ∧
      ∃ entry, longest? lexicon.entries (c :: rest) = some (more + 1, entry) ∧
        entry.token? (c :: rest.take more) = token?) := by
  rcases lexicon.opens_or_not c rest with ⟨comment, hcomment, body, rfl, rfl⟩ | hopener
  · rw [cut_of_opener hcomment] at h
    split at h
    · rename_i passed hpassed
      obtain ⟨rfl, rfl⟩ := Cut.mk.inj (Except.ok.inj h)
      exact .inl ⟨comment, hcomment, body, rfl, rfl, rfl, hpassed⟩
    · exact nomatch h
  · rw [cut_eq_cutEntry hopener] at h
    exact .inr ⟨hopener, exists_of_cutEntry h⟩

/-- A step fails where a block comment does not end, or where no entry takes anything. -/
theorem cut_error_cases {fault : LexicalFault} (h : lexicon.cut c rest = .error fault) :
    (∃ comment ∈ lexicon.comment?, ∃ body, c = comment.opener.1 ∧
      rest = comment.opener.2 :: body ∧
      fault = .unterminatedComment (String.ofList [comment.opener.1, comment.opener.2]) ∧
      passThrough? comment.closer.1 comment.closer.2 1 body = none) ∨
    ((∀ comment ∈ lexicon.comment?, ∀ d ∈ rest.head?, (c, d) ≠ comment.opener) ∧
      fault = .unexpectedCharacter c ∧
      ∀ more entry, longest? lexicon.entries (c :: rest) ≠ some (more + 1, entry)) := by
  rcases lexicon.opens_or_not c rest with ⟨comment, hcomment, body, rfl, rfl⟩ | hopener
  · rw [cut_of_opener hcomment] at h
    split at h
    · exact nomatch h
    · rename_i hpassed
      exact .inl ⟨comment, hcomment, body, rfl, rfl, (Except.error.inj h).symm, hpassed⟩
  · rw [cut_eq_cutEntry hopener] at h
    exact .inr ⟨hopener, longest?_of_cutEntry_error h⟩

end Lexicon

/-! ## Schemes -/

/-- A lexicon by the roles of its entries. -/
structure Scheme (τ : Type) where
  /-- What opens a comment to the end of the line. -/
  lineLead? : Option (List Char)
  comment? : Option BlockComment
  tokens : List (Entry τ)

namespace Scheme

def lineEntry (lead : List Char) : Entry τ :=
  .skip (.led lead (fun c => c != '\n') 0)

def lexicon (scheme : Scheme τ) : Lexicon τ where
  comment? := scheme.comment?
  entries :=
    .skip (.run isSpacing) :: (scheme.lineLead?.toList.map lineEntry ++ scheme.tokens)

/-- The characters that a blank or a comment may start with. -/
def gapStarts (scheme : Scheme τ) : List Char :=
  [' ', '\t', '\r', '\n', '\x0c'] ++ scheme.lineLead?.toList.filterMap List.head? ++
    scheme.comment?.toList.map fun comment => comment.opener.1

/-- Every character tells what starts with it, and no token goes on where a blank or a
comment starts. -/
structure Tidy (scheme : Scheme τ) : Prop where
  /-- Two entries for one first character share their last one. -/
  apart : ∀ entry ∈ scheme.lexicon.entries, ∀ other ∈ scheme.lexicon.entries, ∀ c,
    entry.shape.starts c = true → other.shape.starts c = true →
    entry = other ∨
      ∃ closing, entry.shape.closing? = some closing ∧ other.shape.closing? = some closing
  speaks : ∀ entry ∈ scheme.tokens, ∀ piece, entry.token? piece ≠ none
  ends : ∀ entry ∈ scheme.tokens, ∀ c ∈ scheme.gapStarts, entry.shape.continues c = false
  last : ∀ entry ∈ scheme.tokens, entry.shape.mayEnd '\n' = false
  line_lead : ∀ lead ∈ scheme.lineLead?, lead ≠ [] ∧ ∀ c ∈ lead, isInline c = true
  comment_opener : ∀ comment ∈ scheme.comment?, isSpacing comment.opener.1 = false ∧
    comment.opener.1 ∉ scheme.lineLead?.toList.filterMap List.head? ∧
    comment.opener.2 ∉ scheme.gapStarts
  comment_closer : ∀ comment ∈ scheme.comment?, comment.closer.1 ≠ comment.closer.2 ∧
    isInline comment.closer.1 = true ∧ isInline comment.closer.2 = true

/-- Most pieces have a first character of their own. The others start with a class. -/
theorem ascii_of_first? {entries : List (Entry τ)}
    (hfirst : ∀ entry ∈ entries, ∀ first ∈ entry.shape.first?.toList, first.toNat < 128)
    (hclass : ∀ entry ∈ entries.filter fun entry => entry.shape.first?.isNone,
      ∀ c, entry.shape.starts c = true → c.toNat < 128) :
    ∀ entry ∈ entries, ∀ c, entry.shape.starts c = true → c.toNat < 128 := by
  intro entry hentry c hstarts
  cases hshape : entry.shape.first? with
  | some first =>
      rw [Shape.eq_of_first? hshape hstarts]
      exact hfirst entry hentry first (Option.mem_toList.mpr hshape)
  | none => exact hclass entry (List.mem_filter.mpr ⟨hentry, by rw [hshape]; rfl⟩) c hstarts

/-- What starts with ASCII characters only may be told apart by trying all of them. -/
theorem apart_of_ascii {entries : List (Entry τ)} (closing : Char)
    (hascii : ∀ entry ∈ entries, ∀ c, entry.shape.starts c = true → c.toNat < 128)
    (hfew : ∀ n < 128, (entries.filter fun entry => entry.shape.starts (Char.ofNat n)).length ≤ 1 ∨
      ∀ entry ∈ entries.filter fun entry => entry.shape.starts (Char.ofNat n),
        entry.shape.closing? = some closing)
    {entry other : Entry τ} (hentry : entry ∈ entries) (hother : other ∈ entries) {c : Char}
    (hstarts : entry.shape.starts c = true) (hshared : other.shape.starts c = true) :
    entry = other ∨
      ∃ closing, entry.shape.closing? = some closing ∧ other.shape.closing? = some closing := by
  have hc : Char.ofNat c.toNat = c := Char.ofNat_toNat c
  have hmem : entry ∈ entries.filter fun entry => entry.shape.starts (Char.ofNat c.toNat) := by
    rw [hc]
    exact List.mem_filter.mpr ⟨hentry, hstarts⟩
  have hmem' : other ∈ entries.filter fun entry => entry.shape.starts (Char.ofNat c.toNat) := by
    rw [hc]
    exact List.mem_filter.mpr ⟨hother, hshared⟩
  rcases hfew c.toNat (hascii entry hentry c hstarts) with hone | hclosing
  · refine .inl ?_
    generalize entries.filter (fun entry => entry.shape.starts (Char.ofNat c.toNat)) = few at *
    match few with
    | [] => exact nomatch hmem
    | [only] => rw [List.mem_singleton.mp hmem, List.mem_singleton.mp hmem']
    | _ :: _ :: _ => exact absurd hone (by simp)
  · exact .inr ⟨closing, hclosing entry hmem, hclosing other hmem'⟩

variable {scheme : Scheme τ} {c : Char} {rest : List Char} {token : τ}

theorem mem_gapStarts_of_isSpacing (h : isSpacing c = true) : c ∈ scheme.gapStarts := by
  have hblank : c ∈ [' ', '\t', '\r', '\n', '\x0c'] := by
    simpa [isSpacing, or_assoc] using h
  exact List.mem_append_left _ (List.mem_append_left _ hblank)

theorem spacing_mem_entries :
    (.skip (.run isSpacing) : Entry τ) ∈ scheme.lexicon.entries :=
  List.mem_cons_self

theorem line_mem_entries {lead : List Char} (h : lead ∈ scheme.lineLead?) :
    lineEntry lead ∈ scheme.lexicon.entries := by
  rw [Option.mem_def] at h
  simp [lexicon, h]

theorem mem_entries_cases {entry : Entry τ} (h : entry ∈ scheme.lexicon.entries) :
    entry = .skip (.run isSpacing) ∨ (∃ lead ∈ scheme.lineLead?, entry = lineEntry lead) ∨
      entry ∈ scheme.tokens := by
  rcases List.mem_cons.mp h with rfl | h
  · exact .inl rfl
  · rcases List.mem_append.mp h with hline | htoken
    · obtain ⟨lead, hlead, rfl⟩ := List.mem_map.mp hline
      exact .inr (.inl ⟨lead, Option.mem_toList.mp hlead, rfl⟩)
    · exact .inr (.inr htoken)

/-- A piece that stands for a token is one of a token entry. -/
theorem token_entry {entry : Entry τ} {piece : List Char}
    (hentry : entry ∈ scheme.lexicon.entries) (htoken : entry.token? piece = some token) :
    entry ∈ scheme.tokens := by
  rcases mem_entries_cases hentry with rfl | ⟨lead, -, rfl⟩ | h
  · exact nomatch htoken
  · exact nomatch htoken
  · exact h

namespace Tidy

variable (tidy : scheme.Tidy)
include tidy

/-- An entry whose pieces are not closed is the only one for its first characters. -/
theorem eq_of_starts {entry other : Entry τ} (hentry : entry ∈ scheme.lexicon.entries)
    (hother : other ∈ scheme.lexicon.entries) (hclosing : entry.shape.closing? = none)
    (hstarts : entry.shape.starts c = true) (hshared : other.shape.starts c = true) :
    other = entry := by
  rcases tidy.apart entry hentry other hother c hstarts hshared with rfl | ⟨closing, hsome, -⟩
  · rfl
  · rw [hclosing] at hsome
    contradiction

theorem cutEntry_of_cut? {entry : Entry τ} {more : Nat}
    (hentry : entry ∈ scheme.lexicon.entries) (hclosing : entry.shape.closing? = none)
    (hcut : entry.shape.cut? (c :: rest) = some (more + 1)) :
    scheme.lexicon.cutEntry c rest = .ok ⟨more, entry.token? (c :: rest.take more)⟩ := by
  refine Lexicon.cutEntry_of_longest? (Lexicon.longest?_of_only hentry hcut ?_)
  intro other hother hcuts
  obtain ⟨length, hlength⟩ := Option.ne_none_iff_exists'.mp hcuts
  exact tidy.eq_of_starts hentry hother hclosing (Shape.starts_of_cut? hcut)
    (Shape.starts_of_cut? hlength)

theorem cut_spacing (h : isSpacing c = true) (rest : List Char) :
    scheme.lexicon.cut c rest = .ok ⟨(rest.takeWhile isSpacing).length, none⟩ := by
  have hcomment : ∀ comment ∈ scheme.lexicon.comment?, ∀ d ∈ rest.head?,
      (c, d) ≠ comment.opener := by
    intro comment hmem d _ hopener
    have hfirst := (tidy.comment_opener comment hmem).1
    rw [← hopener, h] at hfirst
    exact nomatch hfirst
  have hpiece : (Shape.run isSpacing).Piece (c :: rest.takeWhile isSpacing) := by
    refine ⟨_, rfl, ?_, Nat.le_add_left 1 _⟩
    intro d hd
    rcases List.mem_cons.mp hd with rfl | hd
    · exact h
    · exact List.mem_takeWhile_imp hd
  have hstops : ∀ d ∈ (rest.dropWhile isSpacing).head?,
      (Shape.run isSpacing).continues d = false :=
    fun _ => of_mem_head?_dropWhile
  have hcut := Shape.cut?_append hpiece hstops
  rw [List.cons_append, List.takeWhile_append_dropWhile, List.length_cons] at hcut
  rw [Lexicon.cut_eq_cutEntry hcomment]
  exact tidy.cutEntry_of_cut? spacing_mem_entries rfl hcut

theorem cut_line {lead : List Char} (h : c :: lead ∈ scheme.lineLead?) (rest : List Char) :
    scheme.lexicon.cut c (lead ++ rest) =
      .ok ⟨lead.length + (rest.takeWhile (· != '\n')).length, none⟩ := by
  have hcomment : ∀ comment ∈ scheme.lexicon.comment?, ∀ d ∈ (lead ++ rest).head?,
      (c, d) ≠ comment.opener := by
    intro comment hmem d _ hopener
    refine (tidy.comment_opener comment hmem).2.1 ?_
    rw [← hopener, Option.mem_def.mp h]
    exact List.mem_singleton_self c
  have hpiece : (lineEntry (c :: lead) : Entry τ).shape.Piece
      (c :: lead ++ rest.takeWhile (· != '\n')) :=
    ⟨_, rfl, fun _ => List.mem_takeWhile_imp, Nat.zero_le _⟩
  have hstops : ∀ d ∈ (rest.dropWhile (· != '\n')).head?,
      (lineEntry (c :: lead) : Entry τ).shape.continues d = false :=
    fun _ => of_mem_head?_dropWhile
  have hcut := Shape.cut?_append hpiece hstops
  rw [List.append_assoc, List.takeWhile_append_dropWhile, List.length_append,
    List.length_cons, Nat.add_right_comm] at hcut
  rw [Lexicon.cut_eq_cutEntry hcomment]
  exact tidy.cutEntry_of_cut? (line_mem_entries h) rfl hcut

omit tidy in
theorem cut_block {comment : BlockComment} {more : Nat} (h : comment ∈ scheme.comment?)
    (hpass : passThrough? comment.closer.1 comment.closer.2 1 rest = some more) :
    scheme.lexicon.cut comment.opener.1 (comment.opener.2 :: rest) = .ok ⟨more, none⟩ := by
  have hcomment : comment ∈ scheme.lexicon.comment? := h
  rw [Lexicon.cut_of_opener hcomment, hpass]

/-- Beside a piece of its own no entry sees a text behind it that goes on with nothing. -/
theorem cut?_append_eq {entry other : Entry τ} {front back : List Char}
    (hentry : entry ∈ scheme.lexicon.entries) (hother : other ∈ scheme.lexicon.entries)
    (hcut : entry.shape.cut? (c :: front ++ rest) = some (c :: front).length)
    (hback : ∀ d ∈ back.head?, entry.shape.continues d = false) :
    other.shape.cut? (c :: front ++ rest) = other.shape.cut? (c :: front ++ back) := by
  have hpiece := (Shape.piece_of_cut?_append hcut).1
  by_cases hstarts : other.shape.starts c = true
  · rcases tidy.apart entry hentry other hother c (Shape.starts_of_cut? hcut) hstarts with
      rfl | ⟨closing, hclosing, hshared⟩
    · exact hcut.trans (Shape.cut?_append hpiece hback).symm
    · exact Shape.cut?_append_eq hclosing hshared hpiece
  · exact (Shape.cut?_eq_none hstarts).trans (Shape.cut?_eq_none hstarts).symm

/-- The piece of a token is cut off in front of any text that starts with a blank or a
comment, or that starts as the text behind the piece does. -/
theorem cut_append {front back : List Char}
    (h : scheme.lexicon.cut c (front ++ rest) = .ok ⟨front.length, some token⟩)
    (hback : ∀ d ∈ back.head?, d ∈ scheme.gapStarts ∨ d ∈ rest.head?) :
    scheme.lexicon.cut c (front ++ back) = .ok ⟨front.length, some token⟩ := by
  rcases Lexicon.cut_cases h with ⟨_, _, _, _, _, hnone, _⟩ | ⟨hopener, entry, hlongest, htoken⟩
  · exact nomatch hnone
  obtain ⟨hentry, hcut⟩ := Lexicon.of_longest? hlongest
  rw [List.take_left] at htoken
  have hpiece : entry.shape.Piece (c :: front) ∧
      ∀ d ∈ rest.head?, entry.shape.continues d = false :=
    Shape.piece_of_cut?_append hcut
  have hcontinues : ∀ d ∈ back.head?, entry.shape.continues d = false := by
    intro d hd
    rcases hback d hd with hgap | hsame
    · exact tidy.ends entry (token_entry hentry htoken) d hgap
    · exact hpiece.2 d hsame
  have hcomment : ∀ comment ∈ scheme.lexicon.comment?, ∀ d ∈ (front ++ back).head?,
      (c, d) ≠ comment.opener := by
    intro comment hcomment d hd heq
    cases front with
    | cons first front => exact hopener comment hcomment d hd heq
    | nil =>
        rcases hback d hd with hgap | hsame
        · refine (tidy.comment_opener comment hcomment).2.2 ?_
          rw [← heq]
          exact hgap
        · exact hopener comment hcomment d hsame heq
  have hbehind : Lexicon.longest? scheme.lexicon.entries (c :: (front ++ back)) =
      some (front.length + 1, entry) := by
    rw [← hlongest]
    exact (Lexicon.longest?_congr fun other hother =>
      tidy.cut?_append_eq hentry hother hcut hcontinues).symm
  rw [Lexicon.cut_eq_cutEntry hcomment, Lexicon.cutEntry_of_longest? hbehind,
    List.take_left, htoken]

/-- What is skipped starts with a blank or is a comment. -/
theorem skip_cases {more : Nat} (h : scheme.lexicon.cut c rest = .ok ⟨more, none⟩) :
    isSpacing c = true ∨
    (∃ lead behind, c :: lead ∈ scheme.lineLead? ∧ rest = lead ++ behind) ∨
    ∃ comment ∈ scheme.comment?, ∃ body, c = comment.opener.1 ∧
      rest = comment.opener.2 :: body ∧
      passThrough? comment.closer.1 comment.closer.2 1 body = some more := by
  rcases Lexicon.cut_cases h with
    ⟨comment, hcomment, body, hc, hrest, -, hpass⟩ | ⟨-, entry, hlongest, htoken⟩
  · exact .inr (.inr ⟨comment, hcomment, body, hc, hrest, hpass⟩)
  · obtain ⟨hentry, hcut⟩ := Lexicon.of_longest? hlongest
    rcases mem_entries_cases hentry with rfl | ⟨lead, hlead, rfl⟩ | hmem
    · exact .inl (Shape.starts_of_cut? hcut)
    · obtain ⟨first, later, rfl⟩ := List.exists_cons_of_ne_nil (tidy.line_lead lead hlead).1
      obtain ⟨piece, behind, hsplit, -, ⟨body, rfl, -, -⟩, -⟩ := Shape.exists_of_cut? hcut
      rw [List.append_assoc, List.cons_append] at hsplit
      obtain ⟨rfl, hrest⟩ := List.cons.inj hsplit
      exact .inr (.inl ⟨later, body ++ behind, hlead, hrest⟩)
    · exact absurd htoken (tidy.speaks entry hmem _)

end Tidy

end Scheme

end GrammarTable.Token
