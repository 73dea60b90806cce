import GrammarTable.Proofs.Text.Position
import GrammarTable.Proofs.Token.Run
import GrammarTable.Proofs.Token.Scheme

/-!
# Lexing piece by piece

The lexemes of a text from an offset on, one piece at a time: blanks and comments pass, and a
token adds its lexeme in front of those behind it.
-/

namespace GrammarTable.Token

open Text

variable {τ : Type}

/-! ## Block comments -/

/-- The end of a block comment is found behind a body that does not hold it. -/
theorem passThrough?_append {first second : Char} (hne : first ≠ second) {body : List Char}
    (hbody : ¬ [first, second] <:+: body) (rest : List Char) (passed : Nat) :
    passThrough? first second passed (body ++ first :: second :: rest) =
      some (passed + body.length + 2) := by
  induction body generalizing passed with
  | nil => simp [passThrough?]
  | cons c body ih =>
      have hlater := ih (fun h => hbody (h.trans (List.suffix_cons c body).isInfix)) (passed + 1)
      have hcloses : ∀ d later, body ++ first :: second :: rest = d :: later →
          ¬ (c = first ∧ d = second) := by
        rintro d later heq ⟨rfl, rfl⟩
        cases body with
        | nil => exact hne (List.cons.inj heq).1
        | cons e body =>
            obtain rfl : e = d := (List.cons.inj heq).1
            exact hbody ⟨[], body, rfl⟩
      cases htail : body ++ first :: second :: rest with
      | nil => simp at htail
      | cons d later =>
          rw [List.cons_append, htail, passThrough?, if_neg (hcloses d later htail), ← htail,
            hlater, List.length_cons]
          congr 1
          omega

theorem exists_of_passThrough? {first second : Char} {passed more : Nat} {cs : List Char}
    (h : passThrough? first second passed cs = some more) :
    ∃ body rest, cs = body ++ first :: second :: rest ∧ more = passed + body.length + 2 ∧
      ¬ [first, second] <:+: body := by
  fun_induction passThrough? first second passed cs with
  | case1 passed c d rest hcloses =>
      obtain ⟨rfl, rfl⟩ := hcloses
      exact ⟨[], rest, rfl, (Option.some.inj h).symm, by simp⟩
  | case2 passed c d rest hcloses ih =>
      obtain ⟨body, behind, hsplit, hmore, hbody⟩ := ih h
      refine ⟨c :: body, behind, by rw [hsplit]; rfl, ?_, ?_⟩
      · rw [hmore, List.length_cons]
        omega
      · rw [List.infix_cons_iff]
        rintro (hfront | hinside)
        · obtain ⟨later, hlater⟩ := hfront
          obtain ⟨rfl, rfl⟩ := List.cons.inj hlater
          exact hcloses ⟨rfl, (List.cons.inj hsplit).1⟩
        · exact hbody hinside
  | case3 passed cs _ => exact nomatch h

theorem not_infix_of_passThrough? {first second : Char} {passed : Nat} {cs : List Char}
    (h : passThrough? first second passed cs = none) : ¬ [first, second] <:+: cs := by
  fun_induction passThrough? first second passed cs with
  | case1 passed c d rest hcloses => exact nomatch h
  | case2 passed c d rest hcloses ih =>
      rw [List.infix_cons_iff]
      rintro (hfront | hinside)
      · obtain ⟨later, hlater⟩ := hfront
        obtain ⟨rfl, htail⟩ := List.cons.inj hlater
        exact hcloses ⟨rfl, (List.cons.inj htail).1.symm⟩
      · exact ih h hinside
  | case3 passed cs hshort =>
      rintro ⟨front, back, rfl⟩
      cases front with
      | nil => exact hshort first second back rfl
      | cons c front =>
          cases front with
          | nil => exact hshort c first (second :: back) rfl
          | cons d front => exact hshort c d _ rfl

/-! ## One piece -/

namespace Lexicon

variable {lexicon : Lexicon τ} {offset : Nat} {c : Char} {front rest : List Char} {token : τ}

def lexemesFrom (lexicon : Lexicon τ) (offset : Nat) (cs : List Char) :
    Except (Nat × LexicalFault) (List (Lexeme τ)) :=
  lexicon.lexemesOnto [] offset cs

theorem lexemesOnto_eq (found : List (Lexeme τ)) (offset : Nat) (cs : List Char) :
    lexicon.lexemesOnto found offset cs =
      (lexicon.lexemesFrom offset cs).map (found.reverse ++ ·) := by
  induction hlength : cs.length using Nat.strongRecOn generalizing found offset cs with
  | ind length ih =>
      subst hlength
      cases cs with
      | nil => simp [lexemesFrom, lexemesOnto, Except.map]
      | cons c rest =>
          rw [lexemesFrom, lexemesOnto, lexemesOnto]
          cases lexicon.cut c rest with
          | error fault => rfl
          | ok piece =>
              obtain ⟨more, token?⟩ := piece
              have hshorter : (rest.drop more).length < (c :: rest).length := by
                rw [List.length_drop, List.length_cons]
                omega
              cases token? with
              | none => exact ih _ hshorter _ _ _ rfl
              | some token =>
                  simp only
                  rw [ih _ hshorter _ _ _ rfl, ih _ hshorter [_] _ _ rfl]
                  cases lexicon.lexemesFrom _ (rest.drop more) with
                  | error fault => rfl
                  | ok later => simp [Except.map]

@[simp] theorem lexemesFrom_nil : lexicon.lexemesFrom offset [] = .ok [] := by
  rw [lexemesFrom, lexemesOnto, List.reverse_nil]

theorem lexemesFrom_of_skip (offset : Nat)
    (h : lexicon.cut c (front ++ rest) = .ok ⟨front.length, none⟩) :
    lexicon.lexemesFrom offset (c :: front ++ rest) =
      lexicon.lexemesFrom (offset + byteLength (c :: front)) rest := by
  rw [List.cons_append, lexemesFrom, lexemesOnto, h]
  simp only [List.take_left, List.drop_left]
  rfl

theorem lexemesFrom_of_token (offset : Nat)
    (h : lexicon.cut c (front ++ rest) = .ok ⟨front.length, some token⟩) :
    lexicon.lexemesFrom offset (c :: front ++ rest) =
      (lexicon.lexemesFrom (offset + byteLength (c :: front)) rest).map
        (⟨token, String.ofList (c :: front),
          ⟨offset, offset + byteLength (c :: front)⟩⟩ :: ·) := by
  rw [List.cons_append, lexemesFrom, lexemesOnto, h]
  simp only [List.take_left, List.drop_left]
  rw [lexemesOnto_eq]
  rfl

theorem lexemesFrom_of_error (offset : Nat) {fault : LexicalFault}
    (h : lexicon.cut c rest = .error fault) :
    lexicon.lexemesFrom offset (c :: rest) = .error (offset, fault) := by
  rw [lexemesFrom, lexemesOnto, h]

end Lexicon

namespace Lexicon

variable {lexicon : Lexicon τ} {offset : Nat} {c : Char} {cs rest : List Char}
  {lexemes : List (Lexeme τ)}

/-- A piece ends within the text. -/
theorem exists_of_cut {more : Nat} {token? : Option τ}
    (h : lexicon.cut c rest = .ok ⟨more, token?⟩) :
    ∃ front back, rest = front ++ back ∧ front.length = more := by
  have hbound : more ≤ rest.length := by
    rcases cut_cases h with ⟨comment, -, body, -, rfl, -, hpass⟩ | ⟨-, entry, hlongest, -⟩
    · obtain ⟨inner, behind, rfl, rfl, -⟩ := exists_of_passThrough? hpass
      simp only [List.length_cons, List.length_append]
      omega
    · obtain ⟨piece, behind, hsplit, hlength, -⟩ := Shape.exists_of_cut? (of_longest? hlongest).2
      have hlengths := congrArg List.length hsplit
      rw [List.length_cons, List.length_append] at hlengths
      omega
  exact ⟨rest.take more, rest.drop more, (List.take_append_drop more rest).symm,
    List.length_take_of_le hbound⟩

/-- A text is a row of pieces, and its lexemes are those that stand for tokens. -/
inductive Lexes (lexicon : Lexicon τ) : Nat → List Char → List (Lexeme τ) → Prop where
  | nil (offset : Nat) : Lexes lexicon offset [] []
  | skip {offset : Nat} {c : Char} {front rest : List Char} {lexemes : List (Lexeme τ)}
      (hcut : lexicon.cut c (front ++ rest) = .ok ⟨front.length, none⟩)
      (later : Lexes lexicon (offset + byteLength (c :: front)) rest lexemes) :
      Lexes lexicon offset (c :: front ++ rest) lexemes
  | token {offset : Nat} {c : Char} {front rest : List Char} {lexemes : List (Lexeme τ)}
      {token : τ} (hcut : lexicon.cut c (front ++ rest) = .ok ⟨front.length, some token⟩)
      (later : Lexes lexicon (offset + byteLength (c :: front)) rest lexemes) :
      Lexes lexicon offset (c :: front ++ rest)
        (⟨token, String.ofList (c :: front), ⟨offset, offset + byteLength (c :: front)⟩⟩ ::
          lexemes)

theorem Lexes.lexemesFrom_eq (h : lexicon.Lexes offset cs lexemes) :
    lexicon.lexemesFrom offset cs = .ok lexemes := by
  induction h with
  | nil offset => exact lexemesFrom_nil
  | skip hcut later ih => rw [lexemesFrom_of_skip _ hcut, ih]
  | token hcut later ih =>
      rw [lexemesFrom_of_token _ hcut, ih]
      rfl

theorem lexes_of_lexemesFrom (h : lexicon.lexemesFrom offset cs = .ok lexemes) :
    lexicon.Lexes offset cs lexemes := by
  induction hlength : cs.length using Nat.strongRecOn generalizing offset cs lexemes with
  | ind length ih =>
      subst hlength
      cases cs with
      | nil =>
          rw [lexemesFrom_nil] at h
          obtain rfl := Except.ok.inj h
          exact .nil offset
      | cons c rest =>
          cases hcut : lexicon.cut c rest with
          | error fault =>
              rw [lexemesFrom, lexemesOnto, hcut] at h
              cases h
          | ok piece =>
              obtain ⟨more, token?⟩ := piece
              obtain ⟨front, back, rfl, rfl⟩ := exists_of_cut hcut
              have hshorter : back.length < (c :: (front ++ back)).length := by
                rw [List.length_cons, List.length_append]
                omega
              cases token? with
              | none =>
                  have hskip := lexemesFrom_of_skip offset hcut
                  rw [List.cons_append, h] at hskip
                  exact .skip hcut (ih _ hshorter hskip.symm rfl)
              | some token =>
                  have htoken := lexemesFrom_of_token offset hcut
                  rw [List.cons_append, h] at htoken
                  obtain ⟨later, hlater, rfl⟩ := map_eq_ok_iff.mp htoken.symm
                  exact .token hcut (ih _ hshorter hlater rfl)

theorem lexes_iff : lexicon.lexemesFrom offset cs = .ok lexemes ↔ lexicon.Lexes offset cs lexemes :=
  ⟨lexes_of_lexemesFrom, Lexes.lexemesFrom_eq⟩

theorem Lexes.le_start (h : lexicon.Lexes offset cs lexemes) {lexeme : Lexeme τ}
    (hmem : lexeme ∈ lexemes) : offset ≤ lexeme.span.start := by
  induction h with
  | nil offset => exact nomatch hmem
  | skip hcut later ih => exact Nat.le_trans (Nat.le_add_right _ _) (ih hmem)
  | token hcut later ih =>
      rcases List.mem_cons.mp hmem with rfl | hmem
      · exact Nat.le_refl _
      · exact Nat.le_trans (Nat.le_add_right _ _) (ih hmem)

/-- A text that is one lexeme as a whole is one piece. -/
theorem cut_of_whole {token : τ} (h : lexicon.lexemes cs =
    .ok [⟨token, String.ofList cs, ⟨0, byteLength cs⟩⟩]) :
    ∃ c front, cs = c :: front ∧ lexicon.cut c front = .ok ⟨front.length, some token⟩ := by
  have hlexes := lexes_of_lexemesFrom h
  generalize hfound : [Lexeme.mk token (String.ofList cs) ⟨0, byteLength cs⟩] = found at hlexes
  cases hlexes with
  | nil => exact nomatch hfound
  | @skip _ c front rest _ hcut later =>
      -- The lexeme would start behind the piece.
      subst hfound
      have hstart := later.le_start List.mem_cons_self
      have hpos := byteLength_pos (List.cons_ne_nil c front)
      simp only at hstart
      omega
  | @token _ c front rest _ token hcut later =>
      have htext := congrArg (fun lexeme : Lexeme τ => lexeme.text) (List.cons.inj hfound).1
      simp only [String.ofList_inj] at htext
      have hrest : rest = [] := List.append_right_eq_self.mp htext
      subst hrest
      rw [List.append_nil] at hcut ⊢
      obtain rfl := congrArg (fun lexeme : Lexeme τ => lexeme.token) (List.cons.inj hfound).1
      exact ⟨c, front, rfl, hcut⟩

theorem whole_of_cut {token : τ} {front : List Char}
    (h : lexicon.cut c front = .ok ⟨front.length, some token⟩) :
    lexicon.lexemes (c :: front) =
      .ok [⟨token, String.ofList (c :: front), ⟨0, byteLength (c :: front)⟩⟩] := by
  have hcut : lexicon.cut c (front ++ []) = .ok ⟨front.length, some token⟩ := by
    rwa [List.append_nil]
  have hfound := lexemesFrom_of_token 0 hcut
  rw [List.append_nil, lexemesFrom_nil, Nat.zero_add] at hfound
  exact hfound

end Lexicon

end GrammarTable.Token
