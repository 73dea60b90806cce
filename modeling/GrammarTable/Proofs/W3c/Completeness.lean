import GrammarTable.Proofs.Token.Run
import GrammarTable.Proofs.W3c.Ahead
import GrammarTable.Proofs.W3c.Labels

/-!
# What the reader of W3C EBNF takes

The reader takes the lexemes of a phrase to the state that holds the phrase, as long as
what stands behind does not look like a further rule too early. In a settled derivation it
never does.
-/

namespace GrammarTable.W3c

open Token

variable {limit? : Option Nat} {rules : List Declaration} {head : Head}
  {around : List Enclosure} {rest : List (Lexeme Sign)}

/-! ## Nesting -/

/-- What a sign adds to the depth of nesting. -/
def Sign.nesting : Sign → Int
  | .opening => 1
  | .closing => -1
  | _ => 0

mutual

theorem Primary.depthBehind_lexemes (primary : Primary) (depth : Int) :
    depthBehind Sign.nesting depth primary.lexemes = depth := by
  cases primary with
  | reference name => simp [Primary.lexemes, depthBehind, Lexeme.as, Sign.nesting]
  | literal text => simp [Primary.lexemes, depthBehind, Lexeme.as, Sign.nesting]
  | pattern text => simp [Primary.lexemes, depthBehind, Lexeme.as, Sign.nesting]
  | label text => simp [Primary.lexemes, depthBehind, Lexeme.as, Sign.nesting]
  | group opening body closing =>
      have hbody := body.depthBehind_lexemes (depth + 1)
      simp only [Primary.lexemes, depthBehind, depthBehind_append, Lexeme.as, Sign.nesting,
        hbody]
      omega

theorem Operand.depthBehind_lexemes (operand : Operand) (depth : Int) :
    depthBehind Sign.nesting depth operand.lexemes = depth := by
  cases operand with
  | plain primary => exact primary.depthBehind_lexemes depth
  | repeated primary operator =>
      have hprimary := primary.depthBehind_lexemes depth
      simp [Operand.lexemes, depthBehind, Lexeme.as, Sign.nesting, hprimary]

theorem Item.depthBehind_lexemes (item : Item) (depth : Int) :
    depthBehind Sign.nesting depth item.lexemes = depth := by
  cases item with
  | alone operand => exact operand.depthBehind_lexemes depth
  | difference left minus right =>
      have hleft := left.depthBehind_lexemes depth
      have hright := right.depthBehind_lexemes depth
      simp [Item.lexemes, depthBehind, Lexeme.as, Sign.nesting, hleft, hright]

theorem Sequence.depthBehind_lexemes (sequence : Sequence) (depth : Int) :
    depthBehind Sign.nesting depth sequence.lexemes = depth := by
  cases sequence with
  | one item => exact item.depthBehind_lexemes depth
  | snoc before item =>
      have hbefore := before.depthBehind_lexemes depth
      have hitem := item.depthBehind_lexemes depth
      simp [Sequence.lexemes, hbefore, hitem]

theorem Choice.depthBehind_lexemes (choice : Choice) (depth : Int) :
    depthBehind Sign.nesting depth choice.lexemes = depth := by
  cases choice with
  | one sequence => exact sequence.depthBehind_lexemes depth
  | or before bar sequence =>
      have hbefore := before.depthBehind_lexemes depth
      have hsequence := sequence.depthBehind_lexemes depth
      simp [Choice.lexemes, depthBehind, Lexeme.as, Sign.nesting, hbefore, hsequence]

end

theorem Declaration.depthBehind_lexemes (declaration : Declaration) (depth : Int) :
    depthBehind Sign.nesting depth declaration.lexemes = depth := by
  have hbody := declaration.body.depthBehind_lexemes depth
  cases hlabel : declaration.label? <;>
    simp [Declaration.lexemes, depthBehind, Lexeme.as, Sign.nesting, hbody, hlabel]

/-! ## One step behind an operand -/

def Sign.isOperator : Sign → Bool
  | .operator _ => true
  | _ => false

theorem take_holding {prior : Prior} {operand : Operand} {lexeme : Lexeme Sign}
    (h : lexeme.token.isOperator = false) (ahead : List (Lexeme Sign)) :
    take limit? ⟨rules, .holding head around prior operand⟩ lexeme ahead =
      takeAfterOperand limit? rules head around prior operand lexeme ahead := by
  simp only [take]
  split
  · rename_i operator htoken
    rw [htoken] at h
    contradiction
  · rfl

/-- Behind an operand the next item starts as it does in its own place, unless a rule
starts there. -/
theorem Primary.take_first (primary : Primary) (prior : Prior) (held : Operand)
    {ahead : List (Lexeme Sign)} (h : ruleStarts (primary.first :: ahead) = false) :
    (reader limit?).take ⟨rules, .holding head around prior held⟩ primary.first ahead =
      (reader limit?).take ⟨rules, .wanting head around
        { alternatives? := prior.alternatives?, items? := some (prior.sequence held) }⟩
        primary.first ahead := by
  have hoperator : primary.first.token.isOperator = false := by
    cases primary <;> rfl
  refine (take_holding hoperator ahead).trans ?_
  cases primary <;>
    simp_all [takeAfterOperand, Primary.first, Lexeme.as, reader, take]

theorem Item.takes_behind {item : Item} {held : Operand} {prior : Prior} {next : State}
    (h : (reader limit?).Takes ⟨rules, .wanting head around
      { alternatives? := prior.alternatives?, items? := some (prior.sequence held) }⟩
      item.lexemes rest next)
    (hstarts : ruleStarts (item.lexemes ++ rest) = false) :
    (reader limit?).Takes ⟨rules, .holding head around prior held⟩ item.lexemes rest
      next := by
  obtain ⟨primary, behind, hitem⟩ := item.exists_eq_cons
  rw [hitem] at h hstarts ⊢
  exact .of_take_eq (primary.take_first prior held hstarts) h

/-! ## What is derived and settled is read -/

def Item.left? : Item → Option (Operand × Lexeme Unit)
  | .alone _ => none
  | .difference left minus _ => some (left, minus)

def Item.last : Item → Operand
  | .alone operand => operand
  | .difference _ _ right => right

def Sequence.prior (alternatives? : Option (Choice × Lexeme Unit)) : Sequence → Prior
  | .one item => { alternatives?, items? := none, left? := item.left? }
  | .snoc before item => { alternatives?, items? := some before, left? := item.left? }

def Sequence.last : Sequence → Operand
  | .one item => item.last
  | .snoc _ item => item.last

def Choice.prior : Choice → Prior
  | .one sequence => sequence.prior none
  | .or before bar sequence => sequence.prior (some (before, bar))

def Choice.last : Choice → Operand
  | .one sequence => sequence.last
  | .or _ _ sequence => sequence.last

theorem Item.item_last (alternatives? : Option (Choice × Lexeme Unit))
    (items? : Option Sequence) (item : Item) :
    Prior.item { alternatives?, items?, left? := item.left? } item.last = item := by
  cases item <;> rfl

theorem Sequence.sequence_last (alternatives? : Option (Choice × Lexeme Unit))
    (sequence : Sequence) :
    (sequence.prior alternatives?).sequence sequence.last = sequence := by
  cases sequence with
  | one item => exact congrArg Sequence.one (item.item_last alternatives? none)
  | snoc before item =>
      exact congrArg (Sequence.snoc before) (item.item_last alternatives? (some before))

theorem Choice.choice_last (choice : Choice) : choice.prior.choice choice.last = choice := by
  cases choice with
  | one sequence =>
      have hsequence := sequence.sequence_last none
      cases sequence <;> exact congrArg Choice.one hsequence
  | or before bar sequence =>
      have hsequence := sequence.sequence_last (some (before, bar))
      cases sequence <;> exact congrArg (Choice.or before bar) hsequence

mutual

theorem Primary.takes (primary : Primary) (prior : Prior) (around : List Enclosure)
    (rest : List (Lexeme Sign))
    (fits : NestsWithin Sign.nesting limit? around.length primary.lexemes) :
    (reader limit?).Takes ⟨rules, .wanting head around prior⟩ primary.lexemes rest
      ⟨rules, .holding head around prior (.plain primary)⟩ := by
  cases primary with
  | reference name => exact .of_take rfl
  | literal text => exact .of_take rfl
  | pattern text => exact .of_take rfl
  | label text => exact .of_take rfl
  | group opening body closing =>
      have hbody : NestsWithin Sign.nesting limit? (around.length + 1 : Nat) body.lexemes :=
        (nestsWithin_append.mp fits.2).1
      have hfull : isFull limit? around.length = false := isFull_eq_false hbody.depth_le
      have hopening : (reader limit?).take ⟨rules, .wanting head around prior⟩
          (opening.as .opening) (body.lexemes ++ [closing.as .closing] ++ rest) =
            .ok ⟨rules, .wanting head (⟨prior, opening⟩ :: around) {}⟩ := by
        simp only [reader, take, takeOperand, Lexeme.as, hfull]
        rfl
      have hclosing : (reader limit?).take
          ⟨rules, .holding head (⟨prior, opening⟩ :: around) body.prior body.last⟩
          (closing.as .closing) rest =
            .ok ⟨rules, .holding head around prior (.plain (.group opening body closing))⟩ := by
        refine (take_holding rfl rest).trans ?_
        simp only [takeAfterOperand, takeAfterChoice, Lexeme.as, body.choice_last]
      exact .cons hopening
        ((body.takes (⟨prior, opening⟩ :: around) _ hbody rfl fun _ => rfl).trans
          (.of_take hclosing))

theorem Operand.takes (operand : Operand) (prior : Prior) (around : List Enclosure)
    (rest : List (Lexeme Sign))
    (fits : NestsWithin Sign.nesting limit? around.length operand.lexemes) :
    (reader limit?).Takes ⟨rules, .wanting head around prior⟩ operand.lexemes rest
      ⟨rules, .holding head around prior operand⟩ := by
  cases operand with
  | plain primary => exact primary.takes prior around rest fits
  | repeated primary operator =>
      have hprimary := (nestsWithin_append.mp fits).1
      exact (primary.takes prior around _ hprimary).trans (.of_take rfl)

theorem Item.takes (item : Item) (alternatives? : Option (Choice × Lexeme Unit))
    (items? : Option Sequence) (around : List Enclosure) (rest : List (Lexeme Sign))
    (fits : NestsWithin Sign.nesting limit? around.length item.lexemes) :
    (reader limit?).Takes ⟨rules, .wanting head around { alternatives?, items? }⟩
      item.lexemes rest
      ⟨rules, .holding head around { alternatives?, items?, left? := item.left? }
        item.last⟩ := by
  cases item with
  | alone operand => exact operand.takes { alternatives?, items? } around rest fits
  | difference left minus right =>
      obtain ⟨hleft, hright⟩ := nestsWithin_append.mp fits
      rw [left.depthBehind_lexemes] at hright
      have hminus : (reader limit?).take
          ⟨rules, .holding head around { alternatives?, items? } left⟩ (minus.as .minus)
          (right.lexemes ++ rest) =
            .ok ⟨rules, .wanting head around
              { alternatives?, items?, left? := some (left, minus) }⟩ :=
        take_holding rfl _
      exact (left.takes _ around _ hleft).trans
        (.cons hminus (right.takes _ around rest hright.2))

theorem Sequence.takes (sequence : Sequence) (alternatives? : Option (Choice × Lexeme Unit))
    (around : List Enclosure) (rest : List (Lexeme Sign))
    (fits : NestsWithin Sign.nesting limit? around.length sequence.lexemes)
    (hdefine : comesNext .define rest = false)
    (hname : sequence.trim?.isSome = true → nameStarts rest = false) :
    (reader limit?).Takes ⟨rules, .wanting head around { alternatives? }⟩ sequence.lexemes
      rest ⟨rules, .holding head around (sequence.prior alternatives?) sequence.last⟩ := by
  cases sequence with
  | one item => exact item.takes alternatives? none around rest fits
  | snoc before item =>
      obtain ⟨hbefore, hitem⟩ := nestsWithin_append.mp fits
      rw [before.depthBehind_lexemes] at hitem
      have hstarts : ruleStarts (item.lexemes ++ rest) = false := by
        refine item.ruleStarts_lexemes hdefine ?_
        rintro ⟨label, rfl⟩
        exact hname rfl
      have hheld : (reader limit?).Takes
          ⟨rules, .holding head around (before.prior alternatives?) before.last⟩
          item.lexemes rest
          ⟨rules, .holding head around
            { alternatives?, items? := some before, left? := item.left? } item.last⟩ := by
        refine Item.takes_behind ?_ hstarts
        rw [before.sequence_last]
        have halternatives : (before.prior alternatives?).alternatives? = alternatives? := by
          cases before <;> rfl
        rw [halternatives]
        exact item.takes alternatives? (some before) around rest hitem
      exact (before.takes alternatives? around _ hbefore item.comesNext_define
        fun _ => item.nameStarts_lexemes hdefine).trans hheld

theorem Choice.takes (choice : Choice) (around : List Enclosure)
    (rest : List (Lexeme Sign))
    (fits : NestsWithin Sign.nesting limit? around.length choice.lexemes)
    (hdefine : comesNext .define rest = false)
    (hname : choice.trim?.isSome = true → nameStarts rest = false) :
    (reader limit?).Takes ⟨rules, .wanting head around {}⟩ choice.lexemes rest
      ⟨rules, .holding head around choice.prior choice.last⟩ := by
  cases choice with
  | one sequence =>
      refine sequence.takes none around rest fits hdefine ?_
      intro htrim
      exact hname (Option.isSome_map.trans htrim)
  | or before bar sequence =>
      obtain ⟨hbefore, hsequence⟩ := nestsWithin_append.mp fits
      rw [before.depthBehind_lexemes] at hsequence
      have hbar : (reader limit?).take
          ⟨rules, .holding head around before.prior before.last⟩ (bar.as .bar)
          (sequence.lexemes ++ rest) =
            .ok ⟨rules, .wanting head around { alternatives? := some (before, bar) }⟩ := by
        refine (take_holding rfl _).trans ?_
        simp only [takeAfterOperand, Lexeme.as, before.choice_last]
      have htrim : sequence.trim?.isSome = true → nameStarts rest = false := by
        intro htrim
        exact hname (Option.isSome_map.trans htrim)
      exact (before.takes around _ hbefore rfl fun _ => rfl).trans
        (.cons hbar (sequence.takes _ around rest hsequence.2 hdefine htrim))

end

def reached : List Declaration → State
  | [] => ⟨[], .between⟩
  | ⟨label?, name, define, body⟩ :: earlier =>
      ⟨earlier, .holding ⟨label?, name, define⟩ [] body.prior body.last⟩

theorem finish_reached (rules : List Declaration) :
    finish (reached rules) = .ok rules.reverse := by
  cases rules with
  | nil => rfl
  | cons declaration earlier =>
      obtain ⟨label?, name, define, body⟩ := declaration
      simp only [reached, finish, body.choice_last]

/-- Where a rule starts, the one before ends. -/
theorem take_reached (rules : List Declaration) {lexeme : Lexeme Sign}
    {ahead : List (Lexeme Sign)} (h : ruleStarts (lexeme :: ahead) = true) :
    (reader limit?).take (reached rules) lexeme ahead =
      (reader limit?).take ⟨rules, .between⟩ lexeme ahead := by
  cases rules with
  | nil => rfl
  | cons declaration earlier =>
      obtain ⟨label?, name, define, body⟩ := declaration
      obtain ⟨token, text, span⟩ := lexeme
      have hbody := body.choice_last
      cases token with
      | name name =>
          refine (take_holding rfl ahead).trans ?_
          simp only [takeAfterOperand, h, hbody]
          rfl
      | label label =>
          refine (take_holding rfl ahead).trans ?_
          simp only [takeAfterOperand, h, hbody]
          rfl
      | _ => cases ahead <;> exact nomatch h

theorem Declaration.ruleStarts_lexemes (declaration : Declaration) :
    ruleStarts (declaration.lexemes ++ rest) = true := by
  obtain ⟨label?, name, define, body⟩ := declaration
  cases label? <;> rfl

theorem Declaration.takes (declaration : Declaration) (rest : List (Lexeme Sign))
    (fits : NestsWithin Sign.nesting limit? 0 declaration.lexemes)
    (hdefine : comesNext .define rest = false)
    (hname : declaration.body.trim?.isSome = true → nameStarts rest = false) :
    (reader limit?).Takes (reached rules) declaration.lexemes rest
      (reached (declaration :: rules)) := by
  have hbetween : (reader limit?).Takes ⟨rules, .between⟩ declaration.lexemes rest
      (reached (declaration :: rules)) := by
    obtain ⟨label?, name, define, body⟩ := declaration
    have hbody : NestsWithin Sign.nesting limit? 0 body.lexemes := by
      cases label? with
      | none => exact fits.2.2
      | some label => exact fits.2.2.2
    have htaken : (reader limit?).Takes ⟨rules, .wanting ⟨label?, name, define⟩ [] {}⟩
        body.lexemes rest (reached (⟨label?, name, define, body⟩ :: rules)) :=
      body.takes [] rest hbody hdefine hname
    cases label? with
    | none => exact .cons rfl (.cons rfl htaken)
    | some label => exact .cons rfl (.cons rfl (.cons rfl htaken))
  have hstarts : ruleStarts (declaration.lexemes ++ rest) = true :=
    declaration.ruleStarts_lexemes
  cases hlexemes : declaration.lexemes with
  | nil => exact absurd hlexemes (by simp [Declaration.lexemes])
  | cons lexeme behind =>
      rw [hlexemes] at hbetween hstarts
      exact .of_take_eq (take_reached rules hstarts) hbetween

theorem comesNext_yield (declarations : List Declaration) :
    comesNext .define (yield declarations) = false := by
  cases declarations with
  | nil => rfl
  | cons declaration later =>
      obtain ⟨label?, name, define, body⟩ := declaration
      cases label? <;> rfl

theorem Settled.nameStarts {declaration : Declaration} {later : List Declaration}
    (h : Settled (declaration :: later)) (htrim : declaration.body.trim?.isSome = true) :
    nameStarts (yield later) = false := by
  cases later with
  | nil => rfl
  | cons after later =>
      have hlabel := ownsLabel_iff.mp h.1
      obtain ⟨label?, name, define, body⟩ := after
      cases label? with
      | none => simp [hlabel rfl] at htrim
      | some label => rfl

theorem Settled.tail {declaration : Declaration} {later : List Declaration}
    (h : Settled (declaration :: later)) : Settled later := by
  cases later with
  | nil => trivial
  | cons after later => exact h.2

theorem takes_yield {declarations : List Declaration} (h : Settled declarations)
    (rules : List Declaration)
    (fits : NestsWithin Sign.nesting limit? 0 (yield declarations)) :
    (reader limit?).Takes (reached rules) (yield declarations) []
      (reached (declarations.reverse ++ rules)) := by
  induction declarations generalizing rules with
  | nil => exact .nil _
  | cons declaration later ih =>
      obtain ⟨hfirst, hlater⟩ := nestsWithin_append.mp fits
      rw [declaration.depthBehind_lexemes] at hlater
      rw [List.reverse_cons, List.append_assoc, List.singleton_append]
      have hdefine : comesNext .define (yield later ++ []) = false := by
        rw [List.append_nil]
        exact comesNext_yield later
      have hname : declaration.body.trim?.isSome = true →
          nameStarts (yield later ++ []) = false := by
        rw [List.append_nil]
        exact h.nameStarts
      exact (declaration.takes _ hfirst hdefine hname).trans
        (ih h.tail (declaration :: rules) hlater)

theorem read_yield {declarations : List Declaration} (h : Settled declarations)
    (fits : NestsWithin Sign.nesting limit? 0 (yield declarations)) :
    (reader limit?).read (yield declarations) = .ok declarations := by
  refine Reader.read_of_takes (takes_yield h [] fits) ?_
  refine (finish_reached _).trans ?_
  rw [List.append_nil, List.reverse_reverse]

end GrammarTable.W3c
