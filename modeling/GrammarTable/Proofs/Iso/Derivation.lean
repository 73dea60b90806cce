import GrammarTable.Grammar.Read
import GrammarTable.Proofs.Iso.Completeness
import GrammarTable.Proofs.Iso.Translation

/-!
# The reader of ISO-style EBNF and its grammar

A list of declarations is a derivation of the lexemes that it is made of. The state of the
reader always holds the lexemes taken so far, so what is read is derived; the reader reads
a list of lexemes that nests within its limit exactly when there is a derivation, and there
is no other one.
-/

namespace GrammarTable.Iso

open Grammar Rule Text Token

variable {limit? : Option Nat} {rules : List Declaration} {head : Head}
  {around : List Enclosure}

/-! ## What is read is derived -/

def Prior.lexemes (prior : Prior) : List (Lexeme Sign) :=
  (match prior.terms? with
    | none => []
    | some (terms, bar) => terms.lexemes ++ [bar.as .bar]) ++
  match prior.factors? with
    | none => []
    | some (factors, comma?) =>
        factors.lexemes ++ (comma?.map fun comma => comma.as Sign.comma).toList

theorem Prior.lexemes_expression (prior : Prior) (factor : Factor) :
    (prior.expression factor).lexemes = prior.lexemes ++ factor.lexemes := by
  obtain ⟨terms?, factors?⟩ := prior
  cases terms? <;> cases factors? <;>
    simp [Prior.expression, Prior.term, Prior.lexemes, Expression.lexemes, Term.lexemes]

theorem Prior.lexemes_term (prior : Prior) (factor : Factor)
    (comma? : Option (Lexeme Unit)) :
    Prior.lexemes { terms? := prior.terms?, factors? := some (prior.term factor, comma?) } =
      prior.lexemes ++
        (factor.lexemes ++ (comma?.map fun comma => comma.as Sign.comma).toList) := by
  obtain ⟨terms?, factors?⟩ := prior
  cases factors? <;> simp [Prior.term, Prior.lexemes, Term.lexemes]

/-- The lexemes in front of the expression at hand, from the body of the rule on. -/
def enclosed : List Enclosure → List (Lexeme Sign)
  | [] => []
  | enclosure :: outer =>
      enclosed outer ++
        (enclosure.prior.lexemes ++ [enclosure.opening.as (.opening enclosure.bracket)])

def Head.lexemes (head : Head) : List (Lexeme Sign) :=
  [head.name.as (.name head.name.token), head.define.as .define]

def Place.lexemes : Place → List (Lexeme Sign)
  | .between => []
  | .named name => [name.as (.name name.token)]
  | .wanting head around prior => head.lexemes ++ (enclosed around ++ prior.lexemes)
  | .holding head around prior factor =>
      head.lexemes ++ (enclosed around ++ (prior.lexemes ++ factor.lexemes))

def State.lexemes (state : State) : List (Lexeme Sign) :=
  yield state.rules.reverse ++ state.place.lexemes

theorem lexemes_takeFactor {prior : Prior} {lexeme : Lexeme Sign} {next : State}
    (h : (takeFactor limit? head around prior lexeme).map (State.mk rules) = .ok next) :
    next.lexemes = (State.mk rules (.wanting head around prior)).lexemes ++ [lexeme] := by
  unfold takeFactor at h
  split at h
  · rename_i name htoken
    obtain rfl := Except.ok.inj h
    simp [State.lexemes, Place.lexemes, Factor.lexemes, Lexeme.as_eq_self htoken]
  · rename_i text htoken
    obtain rfl := Except.ok.inj h
    simp [State.lexemes, Place.lexemes, Factor.lexemes, Lexeme.as_eq_self htoken]
  · rename_i bracket htoken
    split at h
    · contradiction
    · obtain rfl := Except.ok.inj h
      simp [State.lexemes, Place.lexemes, enclosed, Prior.lexemes, Lexeme.as_eq_self htoken]
  · contradiction

theorem lexemes_takeAfterFactor {prior : Prior} {factor : Factor} {lexeme : Lexeme Sign}
    {ahead : List (Lexeme Sign)} {next : State}
    (h : takeAfterFactor limit? rules head around prior factor lexeme ahead = .ok next) :
    next.lexemes =
      (State.mk rules (.holding head around prior factor)).lexemes ++ [lexeme] := by
  unfold takeAfterFactor at h
  split at h
  · rename_i htoken
    obtain rfl := Except.ok.inj h
    simp [State.lexemes, Place.lexemes, Prior.lexemes_term, Lexeme.as_eq_self htoken]
  · rename_i htoken
    obtain rfl := Except.ok.inj h
    have hprior : Prior.lexemes { terms? := some (prior.expression factor, lexeme.as ()) } =
        prior.lexemes ++ factor.lexemes ++ [lexeme] := by
      rw [← Prior.lexemes_expression]
      simp [Prior.lexemes, Lexeme.as_eq_self htoken]
    simp [State.lexemes, Place.lexemes, hprior]
  · rename_i htoken
    split at h
    · obtain rfl := Except.ok.inj h
      simp [State.lexemes, Place.lexemes, yield, Declaration.lexemes, Head.lexemes, enclosed,
        Prior.lexemes_expression, Lexeme.as_eq_self htoken]
    · contradiction
  · rename_i bracket htoken
    split at h
    · contradiction
    · split at h
      · rename_i hbracket
        obtain rfl := Except.ok.inj h
        simp [State.lexemes, Place.lexemes, Factor.lexemes, enclosed, hbracket,
          Prior.lexemes_expression, Lexeme.as_eq_self htoken]
      · contradiction
  · split at h
    · contradiction
    · rw [lexemes_takeFactor h]
      simp [State.lexemes, Place.lexemes, Prior.lexemes_term]
  · rw [lexemes_takeFactor h]
    simp [State.lexemes, Place.lexemes, Prior.lexemes_term]
  · rw [lexemes_takeFactor h]
    simp [State.lexemes, Place.lexemes, Prior.lexemes_term]
  · contradiction

theorem lexemes_take {state next : State} {lexeme : Lexeme Sign}
    {ahead : List (Lexeme Sign)} (h : take limit? state lexeme ahead = .ok next) :
    next.lexemes = state.lexemes ++ [lexeme] := by
  obtain ⟨rules, place⟩ := state
  cases place with
  | between =>
      simp only [take] at h
      split at h
      · rename_i name htoken
        obtain rfl := Except.ok.inj h
        simp [State.lexemes, Place.lexemes, Lexeme.as_eq_self htoken]
      · contradiction
  | named name =>
      simp only [take] at h
      split at h
      · rename_i htoken
        obtain rfl := Except.ok.inj h
        simp [State.lexemes, Place.lexemes, Head.lexemes, enclosed, Prior.lexemes,
          Lexeme.as_eq_self htoken]
      · contradiction
  | wanting head around prior => exact lexemes_takeFactor h
  | holding head around prior factor =>
      simp only [take] at h
      split at h
      · rename_i operator htoken
        obtain rfl := Except.ok.inj h
        simp [State.lexemes, Place.lexemes, Factor.lexemes, Lexeme.as_eq_self htoken]
      · exact lexemes_takeAfterFactor h

theorem yield_of_read {lexemes : List (Lexeme Sign)} {declarations : List Declaration}
    (h : (reader limit?).read lexemes = .ok declarations) : yield declarations = lexemes := by
  obtain ⟨⟨rules, place⟩, hadvance, hfinish⟩ := Reader.read_eq_ok_iff.mp h
  have htaken := Reader.view_of_advance (fun _ _ _ _ => lexemes_take) hadvance
  cases place with
  | between =>
      obtain rfl : rules.reverse = declarations := Except.ok.inj hfinish
      simpa [State.lexemes, Place.lexemes, reader, yield] using htaken
  | named name => cases hfinish
  | wanting head around prior => cases hfinish
  | holding head around prior factor => cases hfinish

theorem read_eq_ok_iff {lexemes : List (Lexeme Sign)} {declarations : List Declaration}
    (fits : NestsWithin Sign.nesting limit? 0 lexemes) :
    (reader limit?).read lexemes = .ok declarations ↔ yield declarations = lexemes := by
  constructor
  · exact yield_of_read
  · rintro rfl
    exact read_yield declarations fits

/-- A reader without a limit reads every derivation, so there is one at most. -/
theorem yield_inj {derivation other : List Declaration}
    (h : yield derivation = yield other) : derivation = other := by
  have hread := read_yield derivation (nestsWithin_none 0 _)
  rw [h, read_yield other (nestsWithin_none 0 _)] at hread
  exact (Except.ok.inj hread).symm

/-! ## The rule loop -/

/-- The rules of some lexemes, before they are collected. -/
def rulesOf (lexemes : List (Lexeme Sign)) : Except (Failure Sign) (List Draft) :=
  ((reader (some nestingLimit)).read lexemes).map (List.map Declaration.draft)

theorem draftsOf_iso (text : List Char) :
    draftsOf .iso text =
      match lexicon.lexemes text with
      | .error fault => .error (.ofLexicalFault fault)
      | .ok lexemes =>
          match rulesOf lexemes with
          | .error failure => .error (.ofFailure (byteLength text) failure)
          | .ok drafts => .ok drafts := by
  show drafts lexicon (reader (some nestingLimit)) Declaration.draft text = _
  unfold drafts rulesOf
  cases lexicon.lexemes text with
  | error fault => rfl
  | ok lexemes =>
      dsimp only
      cases (reader (some nestingLimit)).read lexemes <;> rfl

theorem rulesOf_eq_ok_iff {lexemes : List (Lexeme Sign)} {drafts : List Draft} :
    rulesOf lexemes = .ok drafts ↔
      ∃ declarations, (reader (some nestingLimit)).read lexemes = .ok declarations ∧
        declarations.map Declaration.translation = drafts := by
  have hdraft : Declaration.draft = Declaration.translation := funext Declaration.draft_eq
  rw [rulesOf, hdraft]
  exact map_eq_ok_iff

theorem rulesOf_derivation (lexemes : List (Lexeme Sign))
    (fits : NestsWithin Sign.nesting (some nestingLimit) 0 lexemes) :
    ((∃ drafts, rulesOf lexemes = .ok drafts) ↔ ∃ derivation, yield derivation = lexemes) ∧
      ∀ derivation, yield derivation = lexemes →
        rulesOf lexemes = .ok (derivation.map Declaration.translation) ∧
          ∀ other, yield other = lexemes → other = derivation := by
  have hrules : ∀ derivation, yield derivation = lexemes →
      rulesOf lexemes = .ok (derivation.map Declaration.translation) := by
    intro derivation hyield
    have hread := (read_eq_ok_iff fits).mpr hyield
    exact rulesOf_eq_ok_iff.mpr ⟨derivation, hread, rfl⟩
  refine ⟨⟨?_, ?_⟩, ?_⟩
  · rintro ⟨drafts, hdrafts⟩
    obtain ⟨derivation, hread, -⟩ := rulesOf_eq_ok_iff.mp hdrafts
    exact ⟨derivation, yield_of_read hread⟩
  · rintro ⟨derivation, hyield⟩
    exact ⟨_, hrules derivation hyield⟩
  · intro derivation hyield
    refine ⟨hrules derivation hyield, ?_⟩
    intro other hother
    exact yield_inj (hother.trans hyield.symm)

/-- The rule `a = (b | 'c')+ ;`. -/
def nestedChoice : Declaration :=
  let alternatives : Expression :=
    .or (.one (.one (.reference ⟨"b", "b", ⟨5, 6⟩⟩))) ⟨(), "|", ⟨7, 8⟩⟩
      (.one (.literal ⟨"c", "'c'", ⟨9, 12⟩⟩))
  let group : Factor := .bracketed .round ⟨(), "(", ⟨4, 5⟩⟩ alternatives ⟨(), ")", ⟨12, 13⟩⟩
  { name := ⟨"a", "a", ⟨0, 1⟩⟩
    define := ⟨(), "=", ⟨2, 3⟩⟩
    body := .one (.one (.repeated group ⟨.plus, "+", ⟨13, 14⟩⟩))
    semicolon := ⟨(), ";", ⟨15, 16⟩⟩ }

theorem rulesOf_nestedChoice :
    rulesOf (yield [nestedChoice]) =
        .ok [.composite .rule "a" ⟨0, 16⟩ [.composite .repetition1 "a" ⟨4, 14⟩
          [.composite .group "a" ⟨4, 13⟩ [.composite .choice "a" ⟨5, 12⟩
            [.leaf .nonTerminal "b" ⟨5, 6⟩,
              .markUnique true (.leaf .terminal "c" ⟨9, 12⟩)]]]]] ∧
      ∀ other, yield other = yield [nestedChoice] → other = [nestedChoice] :=
  (rulesOf_derivation (yield [nestedChoice]) (by decide)).2 [nestedChoice] rfl

end GrammarTable.Iso
