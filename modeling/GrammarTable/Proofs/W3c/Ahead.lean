import GrammarTable.W3c.Reader

/-!
# The lexemes ahead of a W3C phrase

A rule has no end sign, so the reader looks for the head of the next one. An item never
looks like a head, unless it is a label in front of one.
-/

namespace GrammarTable.W3c

open Token

variable {rest : List (Lexeme Sign)}

/-- Whether a head without a label comes next. -/
def nameStarts : List (Lexeme Sign) → Bool
  | [] => false
  | first :: rest =>
      match first.token with
      | .name _ => comesNext .define rest
      | _ => false

theorem ruleStarts_name (name : Lexeme String) (rest : List (Lexeme Sign)) :
    ruleStarts (name.as (.name name.token) :: rest) = comesNext .define rest := by
  cases rest with
  | nil => rfl
  | cons second rest =>
      obtain ⟨token, text, span⟩ := second
      cases token <;> rfl

theorem ruleStarts_label (label : Lexeme String) (rest : List (Lexeme Sign)) :
    ruleStarts (label.as (.label label.token) :: rest) = nameStarts rest := by
  cases rest with
  | nil => rfl
  | cons second rest =>
      obtain ⟨token, text, span⟩ := second
      cases token <;> rfl

def Primary.first : Primary → Lexeme Sign
  | .reference name => name.as (.name name.token)
  | .literal text => text.as (.literal text.token)
  | .pattern text => text.as (.pattern text.token)
  | .label text => text.as (.label text.token)
  | .group opening _ _ => opening.as .opening

theorem Primary.exists_eq_cons (primary : Primary) :
    ∃ behind, primary.lexemes = primary.first :: behind := by
  cases primary <;> exact ⟨_, rfl⟩

/-- An item is a primary, or what stands behind its first primary starts no head. -/
theorem Item.plain_or_append (item : Item) :
    (∃ primary, item = .alone (.plain primary)) ∨
      ∃ (primary : Primary) (behind : List (Lexeme Sign)),
        item.lexemes = primary.lexemes ++ behind ∧
          ∀ rest, comesNext .define (behind ++ rest) = false ∧
            nameStarts (behind ++ rest) = false := by
  cases item with
  | alone operand =>
      cases operand with
      | plain primary => exact .inl ⟨primary, rfl⟩
      | repeated primary operator => exact .inr ⟨primary, _, rfl, fun _ => ⟨rfl, rfl⟩⟩
  | difference left minus right =>
      refine .inr ?_
      cases left with
      | plain primary => exact ⟨primary, _, rfl, fun _ => ⟨rfl, rfl⟩⟩
      | repeated primary operator =>
          exact ⟨primary, _, List.append_assoc _ _ _, fun _ => ⟨rfl, rfl⟩⟩

theorem Item.exists_eq_cons (item : Item) :
    ∃ (primary : Primary) (behind : List (Lexeme Sign)),
      item.lexemes = primary.first :: behind := by
  rcases item.plain_or_append with ⟨primary, rfl⟩ | ⟨primary, behind, hitem, -⟩
  · exact ⟨primary, primary.exists_eq_cons⟩
  · obtain ⟨tail, hprimary⟩ := primary.exists_eq_cons
    exact ⟨primary, tail ++ behind, by rw [hitem, hprimary, List.cons_append]⟩

theorem Item.comesNext_define (item : Item) :
    comesNext .define (item.lexemes ++ rest) = false := by
  obtain ⟨primary, behind, hitem⟩ := item.exists_eq_cons
  rw [hitem]
  cases primary <;> rfl

theorem Primary.nameStarts_lexemes (primary : Primary)
    (hdefine : comesNext .define rest = false) :
    nameStarts (primary.lexemes ++ rest) = false := by
  cases primary with
  | reference name => exact hdefine
  | literal text => rfl
  | pattern text => rfl
  | label text => rfl
  | group opening body closing => rfl

theorem Item.nameStarts_lexemes (item : Item) (hdefine : comesNext .define rest = false) :
    nameStarts (item.lexemes ++ rest) = false := by
  rcases item.plain_or_append with ⟨primary, rfl⟩ | ⟨primary, behind, hitem, hbehind⟩
  · exact primary.nameStarts_lexemes hdefine
  · rw [hitem, List.append_assoc]
    exact primary.nameStarts_lexemes (hbehind rest).1

/-- A primary starts no rule, unless it is a label in front of a head. -/
theorem Primary.ruleStarts_lexemes (primary : Primary)
    (hdefine : comesNext .define rest = false)
    (hname : (∃ label, primary = .label label) → nameStarts rest = false) :
    ruleStarts (primary.lexemes ++ rest) = false := by
  cases primary with
  | reference name => exact (ruleStarts_name name rest).trans hdefine
  | literal text => cases rest <;> rfl
  | pattern text => cases rest <;> rfl
  | label text => exact (ruleStarts_label text rest).trans (hname ⟨text, rfl⟩)
  | group opening body closing =>
      rw [Primary.lexemes, List.cons_append]
      cases body.lexemes ++ [closing.as .closing] ++ rest <;> rfl

theorem Item.ruleStarts_lexemes (item : Item) (hdefine : comesNext .define rest = false)
    (hname : (∃ label, item = .alone (.plain (.label label))) → nameStarts rest = false) :
    ruleStarts (item.lexemes ++ rest) = false := by
  rcases item.plain_or_append with ⟨primary, rfl⟩ | ⟨primary, behind, hitem, hbehind⟩
  · refine primary.ruleStarts_lexemes hdefine ?_
    rintro ⟨label, rfl⟩
    exact hname ⟨label, rfl⟩
  · rw [hitem, List.append_assoc]
    exact primary.ruleStarts_lexemes (hbehind rest).1 fun _ => (hbehind rest).2

end GrammarTable.W3c
