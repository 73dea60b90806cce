import GrammarTable.Grammar.Read
import GrammarTable.Proofs.W3c.Completeness
import GrammarTable.Proofs.W3c.Translation

/-!
# The reader of W3C EBNF and its grammar

A list of declarations is a derivation of the lexemes that it is made of. The state of the
reader always holds the lexemes taken so far, so what is read is derived; the reader reads
a list of lexemes that nests within its limit exactly when there is a derivation, and it
finds the settled one.
-/

namespace GrammarTable.W3c

open Grammar Rule Text Token

variable {limit? : Option Nat} {rules : List Declaration} {head : Head}
  {around : List Enclosure}

/-! ## What is read is derived -/

def Prior.lexemes (prior : Prior) : List (Lexeme Sign) :=
  (match prior.alternatives? with
    | none => []
    | some (alternatives, bar) => alternatives.lexemes ++ [bar.as .bar]) ++
  ((match prior.items? with
    | none => []
    | some items => items.lexemes) ++
  match prior.left? with
    | none => []
    | some (left, minus) => left.lexemes ++ [minus.as .minus])

theorem Prior.lexemes_choice (prior : Prior) (operand : Operand) :
    (prior.choice operand).lexemes = prior.lexemes ++ operand.lexemes := by
  obtain ⟨alternatives?, items?, left?⟩ := prior
  cases alternatives? <;> cases items? <;> cases left? <;>
    simp [Prior.choice, Prior.sequence, Prior.item, Prior.lexemes, Choice.lexemes,
      Sequence.lexemes, Item.lexemes]

theorem Prior.lexemes_sequence (prior : Prior) (operand : Operand) :
    Prior.lexemes
        { alternatives? := prior.alternatives?, items? := some (prior.sequence operand) } =
      prior.lexemes ++ operand.lexemes := by
  obtain ⟨alternatives?, items?, left?⟩ := prior
  cases items? <;> cases left? <;>
    simp [Prior.sequence, Prior.item, Prior.lexemes, Sequence.lexemes, Item.lexemes]

/-- The lexemes in front of the choice at hand, from the body of the rule on. -/
def enclosed : List Enclosure → List (Lexeme Sign)
  | [] => []
  | enclosure :: outer =>
      enclosed outer ++ (enclosure.prior.lexemes ++ [enclosure.opening.as .opening])

def labelLexemes (label? : Option (Lexeme String)) : List (Lexeme Sign) :=
  (label?.map fun label => label.as (Sign.label label.token)).toList

def Head.lexemes (head : Head) : List (Lexeme Sign) :=
  labelLexemes head.label? ++
    [head.name.as (.name head.name.token), head.define.as .define]

def Place.lexemes : Place → List (Lexeme Sign)
  | .between => []
  | .labelled label => [label.as (.label label.token)]
  | .named label? name => labelLexemes label? ++ [name.as (.name name.token)]
  | .wanting head around prior => head.lexemes ++ (enclosed around ++ prior.lexemes)
  | .holding head around prior operand =>
      head.lexemes ++ (enclosed around ++ (prior.lexemes ++ operand.lexemes))

def State.lexemes (state : State) : List (Lexeme Sign) :=
  yield state.rules.reverse ++ state.place.lexemes

theorem lexemes_takeBetween {lexeme : Lexeme Sign} {next : State}
    (h : takeBetween rules lexeme = .ok next) :
    next.lexemes = yield rules.reverse ++ [lexeme] := by
  unfold takeBetween at h
  split at h
  · rename_i label htoken
    obtain rfl := Except.ok.inj h
    simp [State.lexemes, Place.lexemes, Lexeme.as_eq_self htoken]
  · rename_i name htoken
    obtain rfl := Except.ok.inj h
    simp [State.lexemes, Place.lexemes, labelLexemes, Lexeme.as_eq_self htoken]
  · contradiction

theorem lexemes_holding_plain {prior : Prior} {primary : Primary} {lexeme : Lexeme Sign}
    (h : primary.lexemes = [lexeme]) :
    (State.mk rules (.holding head around prior (.plain primary))).lexemes =
      (State.mk rules (.wanting head around prior)).lexemes ++ [lexeme] := by
  simp [State.lexemes, Place.lexemes, Operand.lexemes, h]

theorem lexemes_takeOperand {prior : Prior} {lexeme : Lexeme Sign} {next : State}
    (h : (takeOperand limit? head around prior lexeme).map (State.mk rules) = .ok next) :
    next.lexemes = (State.mk rules (.wanting head around prior)).lexemes ++ [lexeme] := by
  unfold takeOperand at h
  split at h
  · rename_i name htoken
    obtain rfl := Except.ok.inj h
    exact lexemes_holding_plain (congrArg (fun l => [l]) (Lexeme.as_eq_self htoken))
  · rename_i text htoken
    obtain rfl := Except.ok.inj h
    exact lexemes_holding_plain (congrArg (fun l => [l]) (Lexeme.as_eq_self htoken))
  · rename_i text htoken
    obtain rfl := Except.ok.inj h
    exact lexemes_holding_plain (congrArg (fun l => [l]) (Lexeme.as_eq_self htoken))
  · rename_i text htoken
    obtain rfl := Except.ok.inj h
    exact lexemes_holding_plain (congrArg (fun l => [l]) (Lexeme.as_eq_self htoken))
  · rename_i htoken
    split at h
    · contradiction
    · obtain rfl := Except.ok.inj h
      simp [State.lexemes, Place.lexemes, enclosed, Prior.lexemes, Lexeme.as_eq_self htoken]
  · contradiction

theorem lexemes_takeAfterChoice {body : Choice} {lexeme : Lexeme Sign} {next : State}
    (h : takeAfterChoice rules head around body lexeme = .ok next) :
    next.lexemes =
      yield rules.reverse ++
        (head.lexemes ++ (enclosed around ++ (body.lexemes ++ [lexeme]))) := by
  unfold takeAfterChoice at h
  split at h
  · rw [lexemes_takeBetween h]
    simp [yield, Declaration.lexemes, Head.lexemes, labelLexemes, enclosed]
  · split at h
    · rename_i htoken
      obtain rfl := Except.ok.inj h
      simp [State.lexemes, Place.lexemes, Operand.lexemes, Primary.lexemes, enclosed,
        Lexeme.as_eq_self htoken]
    · contradiction

theorem lexemes_takeAfterOperand {prior : Prior} {operand : Operand} {lexeme : Lexeme Sign}
    {ahead : List (Lexeme Sign)} {next : State}
    (h : takeAfterOperand limit? rules head around prior operand lexeme ahead = .ok next) :
    next.lexemes =
      (State.mk rules (.holding head around prior operand)).lexemes ++ [lexeme] := by
  have hchoice : ∀ {next : State},
      takeAfterChoice rules head around (prior.choice operand) lexeme = .ok next →
        next.lexemes =
          (State.mk rules (.holding head around prior operand)).lexemes ++ [lexeme] := by
    intro next h
    rw [lexemes_takeAfterChoice h]
    simp [State.lexemes, Place.lexemes, Prior.lexemes_choice]
  unfold takeAfterOperand at h
  split at h
  · rename_i htoken hleft
    obtain rfl := Except.ok.inj h
    simp [State.lexemes, Place.lexemes, Prior.lexemes, hleft, Lexeme.as_eq_self htoken]
  · rename_i htoken
    obtain rfl := Except.ok.inj h
    have hprior : Prior.lexemes
        { alternatives? := some (prior.choice operand, lexeme.as ()) } =
          prior.lexemes ++ operand.lexemes ++ [lexeme] := by
      rw [← Prior.lexemes_choice]
      simp [Prior.lexemes, Lexeme.as_eq_self htoken]
    simp [State.lexemes, Place.lexemes, hprior]
  · exact hchoice h
  · exact hchoice h
  · exact hchoice h
  · exact hchoice h
  · split at h
    · exact hchoice h
    · rw [lexemes_takeOperand h]
      simp [State.lexemes, Place.lexemes, Prior.lexemes_sequence]

theorem lexemes_take {state next : State} {lexeme : Lexeme Sign}
    {ahead : List (Lexeme Sign)} (h : take limit? state lexeme ahead = .ok next) :
    next.lexemes = state.lexemes ++ [lexeme] := by
  obtain ⟨rules, place⟩ := state
  cases place with
  | between =>
      rw [lexemes_takeBetween h]
      simp [State.lexemes, Place.lexemes]
  | labelled label =>
      simp only [take] at h
      split at h
      · rename_i name htoken
        obtain rfl := Except.ok.inj h
        simp [State.lexemes, Place.lexemes, labelLexemes, Lexeme.as_eq_self htoken]
      · contradiction
  | named label? name =>
      simp only [take] at h
      split at h
      · rename_i htoken
        obtain rfl := Except.ok.inj h
        simp [State.lexemes, Place.lexemes, Head.lexemes, enclosed, Prior.lexemes,
          Lexeme.as_eq_self htoken]
      · contradiction
  | wanting head around prior => exact lexemes_takeOperand h
  | holding head around prior operand =>
      simp only [take] at h
      split at h
      · rename_i operator htoken
        obtain rfl := Except.ok.inj h
        simp [State.lexemes, Place.lexemes, Operand.lexemes, Lexeme.as_eq_self htoken]
      · exact lexemes_takeAfterOperand h

theorem yield_of_read {lexemes : List (Lexeme Sign)} {declarations : List Declaration}
    (h : (reader limit?).read lexemes = .ok declarations) : yield declarations = lexemes := by
  obtain ⟨⟨rules, place⟩, hadvance, hfinish⟩ := Reader.read_eq_ok_iff.mp h
  have htaken := Reader.view_of_advance (fun _ _ _ _ => lexemes_take) hadvance
  have hstart : (reader limit?).start.lexemes = [] := rfl
  rw [hstart, List.nil_append] at htaken
  rw [← htaken]
  cases place with
  | between =>
      obtain rfl : rules.reverse = declarations := Except.ok.inj hfinish
      exact (List.append_nil _).symm
  | labelled label => cases hfinish
  | named label? name => cases hfinish
  | wanting head around prior => cases hfinish
  | holding head around prior operand =>
      cases around with
      | nil =>
          obtain rfl := Except.ok.inj hfinish
          simp [State.lexemes, Place.lexemes, yield, Declaration.lexemes, Head.lexemes,
            labelLexemes, enclosed, Prior.lexemes_choice]
      | cons enclosure outer => cases hfinish

/-- The reader finds the settled derivation. -/
theorem read_eq_ok_settle {lexemes : List (Lexeme Sign)} {derivation : List Declaration}
    (fits : NestsWithin Sign.nesting limit? 0 lexemes) (h : yield derivation = lexemes) :
    (reader limit?).read lexemes = .ok (settle derivation) := by
  subst h
  rw [← yield_settle] at fits ⊢
  exact read_yield (settled_settle derivation) fits

/-- A reader without a limit reads every derivation, so there is one at most up to the
labels that it hands over. -/
theorem settle_eq_of_yield_eq {derivation other : List Declaration}
    (h : yield derivation = yield other) : settle derivation = settle other := by
  have hread := read_eq_ok_settle (nestsWithin_none 0 _) h
  rw [read_eq_ok_settle (nestsWithin_none 0 _) rfl] at hread
  exact (Except.ok.inj hread).symm

theorem Settled.eq_of_yield_eq {derivation other : List Declaration}
    (h : Settled derivation) (hother : Settled other)
    (hyield : yield derivation = yield other) : derivation = other := by
  have hread := read_yield h (nestsWithin_none 0 _)
  rw [hyield, read_yield hother (nestsWithin_none 0 _)] at hread
  exact (Except.ok.inj hread).symm

/-! ## The rule loop -/

/-- The rules of some lexemes, before they are collected. -/
def rulesOf (lexemes : List (Lexeme Sign)) : Except (Failure Sign) (List Draft) :=
  ((reader (some nestingLimit)).read lexemes).map (List.map Declaration.draft)

theorem draftsOf_w3c (text : List Char) :
    draftsOf .w3c text =
      match lexicon.lexemes text with
      | .error fault => .error (.ofLexicalFault fault)
      | .ok lexemes =>
          match rulesOf lexemes with
          | .error failure => .error (.ofFailure (byteLength text) failure)
          | .ok drafts => .ok drafts := by
  show drafts lexicon (reader (some nestingLimit)) Declaration.draft text = _
  unfold drafts rulesOf
  cases lexicon.lexemes text with
  | error fault => rfl
  | ok lexemes =>
      dsimp only
      cases (reader (some nestingLimit)).read lexemes <;> rfl

theorem rulesOf_eq_ok_iff {lexemes : List (Lexeme Sign)} {drafts : List Draft} :
    rulesOf lexemes = .ok drafts ↔
      ∃ declarations, (reader (some nestingLimit)).read lexemes = .ok declarations ∧
        declarations.map Declaration.translation = drafts := by
  have hdraft : Declaration.draft = Declaration.translation := funext Declaration.draft_eq
  rw [rulesOf, hdraft]
  exact map_eq_ok_iff

theorem rulesOf_settled_derivation (lexemes : List (Lexeme Sign))
    (fits : NestsWithin Sign.nesting (some nestingLimit) 0 lexemes) :
    ((∃ drafts, rulesOf lexemes = .ok drafts) ↔ ∃ derivation, yield derivation = lexemes) ∧
      (∀ derivation other, yield derivation = lexemes → yield other = lexemes →
        derivation.map Declaration.name = other.map Declaration.name ∧
          (derivation.map Declaration.isLabelled = other.map Declaration.isLabelled →
            derivation = other)) ∧
      (∀ derivation, yield derivation = lexemes →
        ∃ settled, yield settled = lexemes ∧ Settled settled) ∧
      ∀ settled, yield settled = lexemes → Settled settled →
        rulesOf lexemes = .ok (settled.map Declaration.translation) ∧
          ∀ other, yield other = lexemes → Settled other → other = settled := by
  refine ⟨⟨?_, ?_⟩, ?_, ?_, ?_⟩
  · rintro ⟨drafts, hdrafts⟩
    obtain ⟨derivation, hread, -⟩ := rulesOf_eq_ok_iff.mp hdrafts
    exact ⟨derivation, yield_of_read hread⟩
  · rintro ⟨derivation, hyield⟩
    have hread := read_eq_ok_settle fits hyield
    exact ⟨_, rulesOf_eq_ok_iff.mpr ⟨settle derivation, hread, rfl⟩⟩
  · intro derivation other hderivation hother
    have hsettle := settle_eq_of_yield_eq (hderivation.trans hother.symm)
    refine ⟨?_, settle_inj hsettle⟩
    rw [← map_name_settle derivation, hsettle, map_name_settle]
  · intro derivation hyield
    exact ⟨settle derivation, (yield_settle derivation).trans hyield,
      settled_settle derivation⟩
  · rintro settled rfl hsettled
    have hread := read_yield hsettled fits
    refine ⟨rulesOf_eq_ok_iff.mpr ⟨settled, hread, rfl⟩, ?_⟩
    intro other hyield hother
    exact hother.eq_of_yield_eq hsettled hyield

/-- The rules `a ::= [1] b ::= x [2] c ::= 'y'`. The first label is all of the first body,
the second one numbers the last rule. -/
def numbered : List Declaration :=
  [{ label? := none
     name := ⟨"a", "a", ⟨0, 1⟩⟩
     define := ⟨(), "::=", ⟨2, 5⟩⟩
     body := .one (.one (.alone (.plain (.label ⟨"[1]", "[1]", ⟨6, 9⟩⟩)))) },
   { label? := none
     name := ⟨"b", "b", ⟨10, 11⟩⟩
     define := ⟨(), "::=", ⟨12, 15⟩⟩
     body := .one (.one (.alone (.plain (.reference ⟨"x", "x", ⟨16, 17⟩⟩)))) },
   { label? := some ⟨"[2]", "[2]", ⟨18, 21⟩⟩
     name := ⟨"c", "c", ⟨22, 23⟩⟩
     define := ⟨(), "::=", ⟨24, 27⟩⟩
     body := .one (.one (.alone (.plain (.literal ⟨"y", "'y'", ⟨28, 31⟩⟩)))) }]

theorem settled_numbered : Settled numbered :=
  ⟨ownsLabel_iff.mpr fun _ => rfl, ownsLabel_iff.mpr fun _ => rfl, trivial⟩

theorem rulesOf_numbered :
    rulesOf (yield numbered) =
        .ok [.composite .rule "a" ⟨0, 9⟩ [.leaf .pattern "[1]" ⟨6, 9⟩],
          .composite .rule "b" ⟨10, 17⟩ [.leaf .nonTerminal "x" ⟨16, 17⟩],
          .composite .rule "c" ⟨18, 31⟩ [.leaf .terminal "y" ⟨28, 31⟩]] ∧
      ∀ other, yield other = yield numbered → Settled other → other = numbered :=
  (rulesOf_settled_derivation (yield numbered) (by decide)).2.2.2 numbered rfl
    settled_numbered

end GrammarTable.W3c
