import GrammarTable.Grammar.Read
import GrammarTable.Proofs.Bnf.Completeness
import GrammarTable.Proofs.Bnf.Translation

/-!
# The reader of BNF and its grammar

A list of declarations is a derivation of the lexemes that it is made of. The state of the
reader always holds the lexemes taken so far, so what is read is derived; the reader reads a
list of lexemes exactly when there is a derivation, and there is no other one. A name that
the sign of definition follows starts a rule in it.
-/

namespace GrammarTable.Bnf

open Grammar Rule Text Token

variable {rules : List Declaration} {head : Head}

/-! ## What is read is derived -/

/-- The lexemes in front of the sequence at hand, from the body of the rule on. -/
def lexemesBefore : Option (Body × Lexeme Unit) → List (Lexeme Sign)
  | none => []
  | some (before, bar) => before.lexemes ++ [bar.as .bar]

theorem lexemes_closeBody (before : Option (Body × Lexeme Unit)) (sequence : Sequence) :
    (closeBody before sequence).lexemes = lexemesBefore before ++ sequence.lexemes := by
  cases before <;> simp [closeBody, lexemesBefore, Body.lexemes]

def Head.lexemes (head : Head) : List (Lexeme Sign) :=
  [head.name.as (.name head.name.token), head.define.as .define]

def Place.lexemes : Place → List (Lexeme Sign)
  | .between => []
  | .named name => [name.as (.name name.token)]
  | .wanting head before => head.lexemes ++ lexemesBefore before
  | .holding head before sequence => head.lexemes ++ (lexemesBefore before ++ sequence.lexemes)

def State.lexemes (state : State) : List (Lexeme Sign) :=
  yield state.rules.reverse ++ state.place.lexemes

theorem lexemes_takeBetween {lexeme : Lexeme Sign} {next : State}
    (h : takeBetween rules lexeme = .ok next) :
    next.lexemes = yield rules.reverse ++ [lexeme] := by
  unfold takeBetween at h
  split at h
  · rename_i name htoken
    obtain rfl := Except.ok.inj h
    simp [State.lexemes, Place.lexemes, Lexeme.as_eq_self htoken]
  · contradiction

/-- Behind a sequence a rule may end and another one start. -/
theorem lexemes_takeBetween_close {before : Option (Body × Lexeme Unit)} {sequence : Sequence}
    {lexeme : Lexeme Sign} {next : State}
    (h : takeBetween (⟨head.name, head.define, closeBody before sequence⟩ :: rules) lexeme =
      .ok next) :
    next.lexemes = (State.mk rules (.holding head before sequence)).lexemes ++ [lexeme] := by
  rw [lexemes_takeBetween h]
  simp [State.lexemes, Place.lexemes, yield, Declaration.lexemes, Head.lexemes,
    lexemes_closeBody]

theorem lexemes_take {state next : State} {lexeme : Lexeme Sign} {ahead : List (Lexeme Sign)}
    (h : take state lexeme ahead = .ok next) : next.lexemes = state.lexemes ++ [lexeme] := by
  obtain ⟨rules, place⟩ := state
  cases place with
  | between =>
      rw [lexemes_takeBetween h]
      simp [State.lexemes, Place.lexemes]
  | named name =>
      simp only [take] at h
      split at h
      · rename_i htoken
        obtain rfl := Except.ok.inj h
        simp [State.lexemes, Place.lexemes, Head.lexemes, lexemesBefore,
          Lexeme.as_eq_self htoken]
      · contradiction
  | wanting head before =>
      simp only [take] at h
      split at h
      · rename_i name htoken
        split at h
        · contradiction
        · obtain rfl := Except.ok.inj h
          simp [State.lexemes, Place.lexemes, Sequence.lexemes, Item.lexeme,
            Lexeme.as_eq_self htoken]
      · rename_i text htoken
        obtain rfl := Except.ok.inj h
        simp [State.lexemes, Place.lexemes, Sequence.lexemes, Item.lexeme,
          Lexeme.as_eq_self htoken]
      · contradiction
  | holding head before sequence =>
      simp only [take] at h
      split at h
      · rename_i name htoken
        split at h
        · exact lexemes_takeBetween_close h
        · obtain rfl := Except.ok.inj h
          simp [State.lexemes, Place.lexemes, Sequence.lexemes, Item.lexeme,
            Lexeme.as_eq_self htoken]
      · rename_i text htoken
        obtain rfl := Except.ok.inj h
        simp [State.lexemes, Place.lexemes, Sequence.lexemes, Item.lexeme,
          Lexeme.as_eq_self htoken]
      · rename_i htoken
        obtain rfl := Except.ok.inj h
        simp [State.lexemes, Place.lexemes, lexemesBefore, lexemes_closeBody,
          Lexeme.as_eq_self htoken]
      · exact lexemes_takeBetween_close h

theorem yield_of_read {lexemes : List (Lexeme Sign)} {declarations : List Declaration}
    (h : reader.read lexemes = .ok declarations) : yield declarations = lexemes := by
  obtain ⟨⟨rules, place⟩, hadvance, hfinish⟩ := Reader.read_eq_ok_iff.mp h
  have htaken := Reader.view_of_advance (fun _ _ _ _ => lexemes_take) hadvance
  have hstart : reader.start.lexemes = [] := rfl
  rw [hstart, List.nil_append] at htaken
  rw [← htaken]
  cases place with
  | between =>
      obtain rfl : rules.reverse = declarations := Except.ok.inj hfinish
      exact (List.append_nil _).symm
  | named name => cases hfinish
  | wanting head before => cases hfinish
  | holding head before sequence =>
      obtain rfl := Except.ok.inj hfinish
      simp [State.lexemes, Place.lexemes, yield, Declaration.lexemes, Head.lexemes,
        lexemes_closeBody]

theorem read_eq_ok_iff {lexemes : List (Lexeme Sign)} {declarations : List Declaration} :
    reader.read lexemes = .ok declarations ↔ yield declarations = lexemes := by
  constructor
  · exact yield_of_read
  · rintro rfl
    exact read_yield declarations

/-! ## Heads -/

theorem Sequence.ne_define (sequence : Sequence) :
    ∀ lexeme ∈ sequence.lexemes, lexeme.token ≠ .define := by
  induction sequence with
  | one item => cases item <;> simp [Sequence.lexemes, Item.lexeme]
  | snoc before item ih => cases item <;> simpa [Sequence.lexemes, Item.lexeme, or_imp, forall_and]

theorem Body.ne_define (body : Body) : ∀ lexeme ∈ body.lexemes, lexeme.token ≠ .define := by
  induction body with
  | one sequence => exact sequence.ne_define
  | or before bar sequence ih =>
      have hsequence := sequence.ne_define
      simpa [Body.lexemes, or_imp, forall_and] using ⟨ih, hsequence⟩

/-- A rule has one sign of definition, behind its name. -/
theorem Declaration.head_of_lexemes (declaration : Declaration)
    {front back : List (Lexeme Sign)} {name define : Lexeme Sign}
    (h : declaration.lexemes = front ++ name :: define :: back)
    (hdefine : define.token = .define) :
    front = [] ∧ declaration.lexemes = name :: define :: declaration.body.lexemes := by
  have hbody : define ∉ declaration.body.lexemes :=
    fun hmem => declaration.body.ne_define define hmem hdefine
  rw [Declaration.lexemes] at h ⊢
  cases front with
  | nil =>
      simp only [List.nil_append, List.cons.injEq] at h
      obtain ⟨rfl, rfl, -⟩ := h
      exact ⟨rfl, rfl⟩
  | cons first front =>
      obtain ⟨-, hrest⟩ := List.cons.inj h
      cases front with
      | nil => exact absurd ((List.cons.inj hrest).2 ▸ List.mem_cons_self) hbody
      | cons second inner =>
          have hmem : define ∈ inner ++ name :: define :: back := by simp
          exact absurd ((List.cons.inj hrest).2 ▸ hmem) hbody

/-- A rule of a derivation starts behind some lexemes, with a name and the sign of
definition. -/
def HasHead (derivation : List Declaration) (front : List (Lexeme Sign))
    (name define : Lexeme Sign) : Prop :=
  ∃ earlier declaration later, derivation = earlier ++ declaration :: later ∧
    yield earlier = front ∧ declaration.lexemes = name :: define :: declaration.body.lexemes

/-- What stands in front of the sign of definition is the name of a rule. -/
theorem hasHead_of_yield {declarations : List Declaration} {front back : List (Lexeme Sign)}
    {name define : Lexeme Sign} (h : yield declarations = front ++ name :: define :: back)
    (hdefine : define.token = .define) : HasHead declarations front name define := by
  induction declarations generalizing front with
  | nil => simp [yield] at h
  | cons declaration rest ih =>
      have hlater : ∀ {behind : List (Lexeme Sign)}, front = declaration.lexemes ++ behind →
          yield rest = behind ++ name :: define :: back →
          HasHead (declaration :: rest) front name define := by
        rintro behind rfl hrest
        obtain ⟨earlier, other, later, rfl, rfl, hother⟩ := ih hrest
        exact ⟨declaration :: earlier, other, later, rfl, rfl, hother⟩
      have hsplit : declaration.lexemes ++ yield rest = front ++ name :: define :: back := h
      rcases List.append_eq_append_iff.mp hsplit with
        ⟨behind, hfront, hrest⟩ | ⟨inner, hlexemes, hrest⟩
      · exact hlater hfront hrest
      · cases inner with
        | nil =>
            have hfront : front = declaration.lexemes ++ [] := by simp [hlexemes]
            exact hlater hfront hrest.symm
        | cons first inner =>
            obtain ⟨rfl, htail⟩ := List.cons.inj hrest
            cases inner with
            | nil =>
                -- The sign of definition would start the rules behind.
                have hbehind : define :: back = yield rest := htail
                have hnext := comesNext_yield rest
                rw [← hbehind, comesNext, hdefine] at hnext
                contradiction
            | cons second inner =>
                obtain ⟨rfl, -⟩ := List.cons.inj htail
                obtain ⟨rfl, hhead⟩ := declaration.head_of_lexemes hlexemes hdefine
                exact ⟨[], declaration, rest, rfl, rfl, hhead⟩

/-! ## The rule loop -/

/-- The rules of some lexemes, before they are collected. -/
def rulesOf (lexemes : List (Lexeme Sign)) : Except (Failure Sign) (List Draft) :=
  (reader.read lexemes).map (List.map Declaration.draft)

theorem draftsOf_bnf (text : List Char) :
    draftsOf .bnf text =
      match lexicon.lexemes text with
      | .error fault => .error (.ofLexicalFault fault)
      | .ok lexemes =>
          match rulesOf lexemes with
          | .error failure => .error (.ofFailure (byteLength text) failure)
          | .ok drafts => .ok drafts := by
  show drafts lexicon reader Declaration.draft text = _
  unfold drafts rulesOf
  cases lexicon.lexemes text with
  | error fault => rfl
  | ok lexemes =>
      dsimp only
      cases reader.read lexemes <;> rfl

theorem rulesOf_eq_ok_iff {lexemes : List (Lexeme Sign)} {drafts : List Draft} :
    rulesOf lexemes = .ok drafts ↔
      ∃ declarations, yield declarations = lexemes ∧
        declarations.map Declaration.translation = drafts := by
  have hdraft : Declaration.draft = Declaration.translation := funext Declaration.draft_eq
  rw [rulesOf, hdraft, map_eq_ok_iff]
  simp only [read_eq_ok_iff]

/-- A reader reads every derivation, so there is one at most. -/
theorem yield_inj {derivation other : List Declaration}
    (h : yield derivation = yield other) : derivation = other := by
  have hread := read_yield derivation
  rw [h, read_yield other] at hread
  exact (Except.ok.inj hread).symm

/-- Lexemes are read exactly when they have a derivation. Then it is the only one, the rules are
its translations, and each name with the sign of definition behind it is the head of a rule. -/
theorem rulesOf_unique_derivation (lexemes : List (Lexeme Sign)) :
    ((∃ drafts, rulesOf lexemes = .ok drafts) ↔ ∃ derivation, yield derivation = lexemes) ∧
      ∀ derivation, yield derivation = lexemes →
        rulesOf lexemes = .ok (derivation.map Declaration.translation) ∧
          (∀ other, yield other = lexemes → other = derivation) ∧
          ∀ front name define back, lexemes = front ++ name :: define :: back →
            define.token = .define → HasHead derivation front name define := by
  refine ⟨⟨?_, ?_⟩, ?_⟩
  · rintro ⟨drafts, hdrafts⟩
    obtain ⟨derivation, hyield, -⟩ := rulesOf_eq_ok_iff.mp hdrafts
    exact ⟨derivation, hyield⟩
  · rintro ⟨derivation, hyield⟩
    exact ⟨_, rulesOf_eq_ok_iff.mpr ⟨derivation, hyield, rfl⟩⟩
  · rintro derivation rfl
    refine ⟨rulesOf_eq_ok_iff.mpr ⟨derivation, rfl, rfl⟩, fun other => yield_inj, ?_⟩
    intro front name define back hsplit hdefine
    exact hasHead_of_yield hsplit hdefine

/-- The rules `<a> ::= <b> 'x' | 'y'`, `<b> ::= <a>` and `<c> ::= 'z' <b>`. The last item of a
rule stands in front of the name of the next one. -/
def threeRules : List Declaration :=
  [{ name := ⟨"a", "<a>", ⟨0, 3⟩⟩
     define := ⟨(), "::=", ⟨4, 7⟩⟩
     body := .or
       (.one (.snoc (.one (.reference ⟨"b", "<b>", ⟨8, 11⟩⟩)) (.literal ⟨"x", "'x'", ⟨12, 15⟩⟩)))
       ⟨(), "|", ⟨16, 17⟩⟩ (.one (.literal ⟨"y", "'y'", ⟨18, 21⟩⟩)) },
   { name := ⟨"b", "<b>", ⟨22, 25⟩⟩
     define := ⟨(), "::=", ⟨26, 29⟩⟩
     body := .one (.one (.reference ⟨"a", "<a>", ⟨30, 33⟩⟩)) },
   { name := ⟨"c", "<c>", ⟨34, 37⟩⟩
     define := ⟨(), "::=", ⟨38, 41⟩⟩
     body := .one (.snoc (.one (.literal ⟨"z", "'z'", ⟨42, 45⟩⟩))
       (.reference ⟨"b", "<b>", ⟨46, 49⟩⟩)) }]

theorem rulesOf_threeRules :
    rulesOf (yield threeRules) =
        .ok [.composite .rule "a" ⟨0, 21⟩ [.composite .choice "a" ⟨8, 21⟩
            [.composite .sequence "a" ⟨8, 15⟩
              [.leaf .nonTerminal "b" ⟨8, 11⟩, .leaf .terminal "x" ⟨12, 15⟩],
            .markUnique true (.leaf .terminal "y" ⟨18, 21⟩)]],
          .composite .rule "b" ⟨22, 33⟩ [.leaf .nonTerminal "a" ⟨30, 33⟩],
          .composite .rule "c" ⟨34, 49⟩
            [.leaf .terminal "z" ⟨42, 45⟩, .leaf .nonTerminal "b" ⟨46, 49⟩]] ∧
      (∀ other, yield other = yield threeRules → other = threeRules) ∧
      HasHead threeRules ((yield threeRules).take 6) ⟨.name "b", "<b>", ⟨22, 25⟩⟩
        ⟨.define, "::=", ⟨26, 29⟩⟩ := by
  obtain ⟨hrules, hunique, hheads⟩ := (rulesOf_unique_derivation _).2 threeRules rfl
  exact ⟨hrules, hunique, hheads _ _ _ ((yield threeRules).drop 8) rfl rfl⟩

end GrammarTable.Bnf
