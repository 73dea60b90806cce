import GrammarTable.Bnf.Reader
import GrammarTable.Proofs.Token.Run

/-!
# What the reader of BNF takes

The reader takes the lexemes of a phrase to the state that holds the phrase, as long as the
sign of definition does not follow. In a derivation it follows a name only where the rule
before has ended.
-/

namespace GrammarTable.Bnf

open Token

variable {rules : List Declaration} {head : Head} {rest : List (Lexeme Sign)}

/-- An item starts a sequence, unless the sign of definition follows. -/
theorem Item.take_wanting (item : Item) (before : Option (Body × Lexeme Unit))
    (hrest : comesNext .define rest = false) :
    reader.take ⟨rules, .wanting head before⟩ item.lexeme rest =
      .ok ⟨rules, .holding head before (.one item)⟩ := by
  cases item with
  | reference name =>
      simp only [reader, take, Item.lexeme, Lexeme.as, hrest]
      rfl
  | literal text => rfl

/-- An item goes on with a sequence, unless the sign of definition follows. -/
theorem Item.take_holding (item : Item) (before : Option (Body × Lexeme Unit))
    (sequence : Sequence) (hrest : comesNext .define rest = false) :
    reader.take ⟨rules, .holding head before sequence⟩ item.lexeme rest =
      .ok ⟨rules, .holding head before (.snoc sequence item)⟩ := by
  cases item with
  | reference name =>
      simp only [reader, take, Item.lexeme, Lexeme.as, hrest]
      rfl
  | literal text => rfl

theorem Item.comesNext_define (item : Item) : comesNext .define (item.lexeme :: rest) = false := by
  cases item <;> rfl

theorem Sequence.takes (sequence : Sequence) (before : Option (Body × Lexeme Unit))
    (rest : List (Lexeme Sign)) (hrest : comesNext .define rest = false) :
    reader.Takes ⟨rules, .wanting head before⟩ sequence.lexemes rest
      ⟨rules, .holding head before sequence⟩ := by
  induction sequence generalizing rest with
  | one item => exact .of_take (item.take_wanting before hrest)
  | snoc front item ih =>
      have hfront := ih ([item.lexeme] ++ rest) item.comesNext_define
      exact hfront.trans (.of_take (item.take_holding before front hrest))

def Body.before? : Body → Option (Body × Lexeme Unit)
  | .one _ => none
  | .or before bar _ => some (before, bar)

def Body.last : Body → Sequence
  | .one sequence => sequence
  | .or _ _ sequence => sequence

theorem Body.closeBody_last (body : Body) : closeBody body.before? body.last = body := by
  cases body <;> rfl

theorem Body.takes (body : Body) (rest : List (Lexeme Sign))
    (hrest : comesNext .define rest = false) :
    reader.Takes ⟨rules, .wanting head none⟩ body.lexemes rest
      ⟨rules, .holding head body.before? body.last⟩ := by
  induction body generalizing rest with
  | one sequence => exact sequence.takes none rest hrest
  | or before bar sequence ih =>
      have hbar : reader.take ⟨rules, .holding head before.before? before.last⟩ (bar.as .bar)
          (sequence.lexemes ++ rest) =
            .ok ⟨rules, .wanting head (some (before, bar))⟩ := by
        simp only [reader, take, Lexeme.as, before.closeBody_last]
      have hbefore := ih (bar.as .bar :: sequence.lexemes ++ rest) rfl
      exact hbefore.trans (.cons hbar (sequence.takes (some (before, bar)) rest hrest))

/-- The state behind some rules, the latest first. -/
def reached : List Declaration → State
  | [] => ⟨[], .between⟩
  | ⟨name, define, body⟩ :: earlier =>
      ⟨earlier, .holding ⟨name, define⟩ body.before? body.last⟩

theorem finish_reached (rules : List Declaration) :
    finish (reached rules) = .ok rules.reverse := by
  cases rules with
  | nil => rfl
  | cons declaration earlier =>
      obtain ⟨name, define, body⟩ := declaration
      simp only [reached, finish, body.closeBody_last]

/-- A name that the sign of definition follows ends the rule before it. -/
theorem take_reached (rules : List Declaration) (name : Lexeme String)
    (h : comesNext .define rest = true) :
    reader.take (reached rules) (name.as (.name name.token)) rest =
      .ok ⟨rules, .named name⟩ := by
  cases rules with
  | nil => rfl
  | cons declaration earlier =>
      obtain ⟨label, define, body⟩ := declaration
      simp only [reached, reader, take, Lexeme.as, h, body.closeBody_last, if_true]
      rfl

theorem Declaration.takes (declaration : Declaration) (rest : List (Lexeme Sign))
    (hrest : comesNext .define rest = false) :
    reader.Takes (reached rules) declaration.lexemes rest (reached (declaration :: rules)) := by
  obtain ⟨name, define, body⟩ := declaration
  have hdefine : comesNext .define (define.as .define :: body.lexemes ++ rest) = true := rfl
  exact .cons (take_reached rules name hdefine) (.cons rfl (body.takes rest hrest))

def yield (declarations : List Declaration) : List (Lexeme Sign) :=
  declarations.flatMap Declaration.lexemes

theorem comesNext_yield (declarations : List Declaration) :
    comesNext .define (yield declarations) = false := by
  cases declarations <;> rfl

theorem takes_yield (declarations : List Declaration) (rules : List Declaration) :
    reader.Takes (reached rules) (yield declarations) []
      (reached (declarations.reverse ++ rules)) := by
  induction declarations generalizing rules with
  | nil => exact .nil _
  | cons declaration later ih =>
      rw [List.reverse_cons, List.append_assoc, List.singleton_append]
      have hdefine : comesNext .define (yield later ++ []) = false := by
        rw [List.append_nil]
        exact comesNext_yield later
      exact (declaration.takes _ hdefine).trans (ih (declaration :: rules))

theorem read_yield (declarations : List Declaration) :
    reader.read (yield declarations) = .ok declarations := by
  refine Reader.read_of_takes (takes_yield declarations []) ?_
  refine (finish_reached _).trans ?_
  rw [List.append_nil, List.reverse_reverse]

end GrammarTable.Bnf
