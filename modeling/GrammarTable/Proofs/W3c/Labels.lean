import GrammarTable.W3c.Phrase

/-!
# The owners of labels

A label in front of a name and the sign of definition may be the label of that rule or the
last item of the rule before. A derivation is settled when each such label belongs to the
rule behind it, unless it stands where the rule before needs an item. Every derivation is
settled by handing labels over, and it is known again from the rules that have a label.
-/

namespace GrammarTable.W3c

open Token

def yield (declarations : List Declaration) : List (Lexeme Sign) :=
  declarations.flatMap Declaration.lexemes

/-! ## Settled derivations -/

def Sign.needsItem : Sign → Bool
  | .define => true
  | .bar => true
  | .minus => true
  | _ => false

def Sign.isLabel : Sign → Bool
  | .label _ => true
  | _ => false

/-- No item has to follow the last lexeme. -/
def Closed (lexemes : List (Lexeme Sign)) : Prop :=
  ∃ front last, lexemes = front ++ [last] ∧ last.token.needsItem = false

/-- The last lexeme is no label, unless an item has to stand in its place. -/
def Fixed (lexemes : List (Lexeme Sign)) : Prop :=
  ∃ front last, lexemes = front ++ [last] ∧
    (last.token.isLabel = true → ∃ prior ∈ front.getLast?, prior.token.needsItem = true)

/-- The label in front of the second head is its own exactly when the rule before does not
need it as an item. -/
def OwnsLabel (before after : Declaration) : Prop :=
  match after.label? with
  | some _ => Closed before.lexemes
  | none => Fixed before.lexemes

def Settled : List Declaration → Prop
  | [] => True
  | [_] => True
  | before :: after :: later => OwnsLabel before after ∧ Settled (after :: later)

/-! ## The last lexeme of a phrase -/

theorem Closed.append {back : List (Lexeme Sign)} (h : Closed back)
    (front : List (Lexeme Sign)) : Closed (front ++ back) := by
  obtain ⟨front', last, rfl, hlast⟩ := h
  exact ⟨front ++ front', last, (List.append_assoc _ _ _).symm, hlast⟩

theorem Primary.closed (primary : Primary) : Closed primary.lexemes := by
  cases primary with
  | reference name => exact ⟨[], _, rfl, rfl⟩
  | literal text => exact ⟨[], _, rfl, rfl⟩
  | pattern text => exact ⟨[], _, rfl, rfl⟩
  | label text => exact ⟨[], _, rfl, rfl⟩
  | group opening body closing =>
      exact ⟨opening.as .opening :: body.lexemes, closing.as .closing, rfl, rfl⟩

theorem Operand.closed (operand : Operand) : Closed operand.lexemes := by
  cases operand with
  | plain primary => exact primary.closed
  | repeated primary operator => exact ⟨_, _, rfl, rfl⟩

theorem Item.closed (item : Item) : Closed item.lexemes := by
  cases item with
  | alone operand => exact operand.closed
  | difference left minus right =>
      exact (right.closed.append [minus.as .minus]).append left.lexemes

theorem Sequence.closed (sequence : Sequence) : Closed sequence.lexemes := by
  cases sequence with
  | one item => exact item.closed
  | snoc before item => exact item.closed.append before.lexemes

theorem Choice.closed (choice : Choice) : Closed choice.lexemes := by
  cases choice with
  | one sequence => exact sequence.closed
  | or before bar sequence =>
      exact (sequence.closed.append [bar.as .bar]).append before.lexemes

theorem Declaration.closed (declaration : Declaration) : Closed declaration.lexemes :=
  (declaration.body.closed.append [_, _]).append _

theorem Fixed.append {back : List (Lexeme Sign)} (h : Fixed back)
    (front : List (Lexeme Sign)) : Fixed (front ++ back) := by
  obtain ⟨front', last, rfl, hlast⟩ := h
  refine ⟨front ++ front', last, (List.append_assoc _ _ _).symm, ?_⟩
  intro hlabel
  obtain ⟨prior, hprior, hneeds⟩ := hlast hlabel
  refine ⟨prior, ?_, hneeds⟩
  rw [List.getLast?_append, Option.mem_def.mp hprior]
  rfl

theorem fixed_label {sign : Lexeme Sign} (h : sign.token.needsItem = true)
    (label : Lexeme Sign) : Fixed [sign, label] :=
  ⟨[sign], label, rfl, fun _ => ⟨sign, rfl, h⟩⟩

theorem fixed_of_isLabel (front : List (Lexeme Sign)) {last : Lexeme Sign}
    (h : last.token.isLabel = false) : Fixed (front ++ [last]) :=
  ⟨front, last, rfl, fun hlabel => absurd (h.symm.trans hlabel) (by decide)⟩

/-- Behind a sign that needs an item, a label is one. -/
theorem Closed.not_fixed_label {front : List (Lexeme Sign)} (h : Closed front)
    (label : Lexeme Sign) (hlabel : label.token.isLabel = true) :
    ¬ Fixed (front ++ [label]) := by
  rintro ⟨front', last, heq, hlast⟩
  obtain ⟨rfl, rfl⟩ := List.append_singleton_inj.mp heq
  obtain ⟨prior, hprior, hneeds⟩ := hlast hlabel
  obtain ⟨front', last, rfl, hclosed⟩ := h
  rw [List.getLast?_concat] at hprior
  obtain rfl := Option.some.inj hprior
  rw [hclosed] at hneeds
  exact nomatch hneeds

/-! ## Loose labels -/

/-- The sequence with a label as a further item. -/
def Sequence.extend (sequence : Sequence) (label : Lexeme String) : Sequence :=
  .snoc sequence (.alone (.plain (.label label)))

def Choice.extend : Choice → Lexeme String → Choice
  | .one sequence, label => .one (sequence.extend label)
  | .or before bar sequence, label => .or before bar (sequence.extend label)

/-- A last item that is a label and follows another item, split off. -/
def Sequence.trim? : Sequence → Option (Sequence × Lexeme String)
  | .snoc before (.alone (.plain (.label label))) => some (before, label)
  | _ => none

def Choice.trim? : Choice → Option (Choice × Lexeme String)
  | .one sequence => sequence.trim?.map fun (front, label) => (.one front, label)
  | .or before bar sequence =>
      sequence.trim?.map fun (front, label) => (.or before bar front, label)

theorem Sequence.trim?_eq_some_iff {sequence front : Sequence} {label : Lexeme String} :
    sequence.trim? = some (front, label) ↔ sequence = front.extend label := by
  constructor
  · intro h
    unfold trim? at h
    split at h
    · obtain ⟨rfl, rfl⟩ := Prod.mk.inj (Option.some.inj h)
      rfl
    · exact nomatch h
  · rintro rfl
    rfl

theorem Choice.trim?_eq_some_iff {choice front : Choice} {label : Lexeme String} :
    choice.trim? = some (front, label) ↔ choice = front.extend label := by
  constructor
  · intro h
    cases choice with
    | one sequence =>
        obtain ⟨⟨front', label'⟩, htrim, heq⟩ := Option.map_eq_some_iff.mp h
        obtain ⟨rfl, rfl⟩ := Prod.mk.inj heq
        rw [Sequence.trim?_eq_some_iff.mp htrim]
        rfl
    | or before bar sequence =>
        obtain ⟨⟨front', label'⟩, htrim, heq⟩ := Option.map_eq_some_iff.mp h
        obtain ⟨rfl, rfl⟩ := Prod.mk.inj heq
        rw [Sequence.trim?_eq_some_iff.mp htrim]
        rfl
  · rintro rfl
    cases front <;> rfl

theorem Choice.lexemes_extend (choice : Choice) (label : Lexeme String) :
    (choice.extend label).lexemes = choice.lexemes ++ [label.as (.label label.token)] := by
  cases choice with
  | one sequence => rfl
  | or before bar sequence =>
      simp [Choice.extend, Sequence.extend, Choice.lexemes, Sequence.lexemes, Item.lexemes,
        Operand.lexemes, Primary.lexemes]

theorem Operand.fixed_or_label (operand : Operand) :
    Fixed operand.lexemes ∨ ∃ label, operand = .plain (.label label) := by
  cases operand with
  | plain primary =>
      cases primary with
      | reference name => exact .inl (fixed_of_isLabel [] rfl)
      | literal text => exact .inl (fixed_of_isLabel [] rfl)
      | pattern text => exact .inl (fixed_of_isLabel [] rfl)
      | label text => exact .inr ⟨text, rfl⟩
      | group opening body closing =>
          exact .inl (fixed_of_isLabel (opening.as .opening :: body.lexemes) rfl)
  | repeated primary operator => exact .inl (fixed_of_isLabel primary.lexemes rfl)

theorem Item.fixed_or_label (item : Item) :
    Fixed item.lexemes ∨ ∃ label, item = .alone (.plain (.label label)) := by
  cases item with
  | alone operand =>
      rcases operand.fixed_or_label with hfixed | ⟨label, rfl⟩
      · exact .inl hfixed
      · exact .inr ⟨label, rfl⟩
  | difference left minus right =>
      have hright : Fixed (minus.as .minus :: right.lexemes) := by
        rcases right.fixed_or_label with hfixed | ⟨label, rfl⟩
        · exact hfixed.append [minus.as .minus]
        · exact fixed_label rfl (label.as (.label label.token))
      exact .inl (hright.append left.lexemes)

/-- Where an item has to start, a sequence ends in a loose label or in none. -/
theorem Sequence.fixed_cons {sequence : Sequence} (h : sequence.trim? = none)
    {sign : Lexeme Sign} (hsign : sign.token.needsItem = true) :
    Fixed (sign :: sequence.lexemes) := by
  cases sequence with
  | one item =>
      rcases item.fixed_or_label with hfixed | ⟨label, rfl⟩
      · exact hfixed.append [sign]
      · exact fixed_label hsign (label.as (.label label.token))
  | snoc before item =>
      rcases item.fixed_or_label with hfixed | ⟨label, rfl⟩
      · exact (hfixed.append before.lexemes).append [sign]
      · exact nomatch h

theorem Declaration.fixed_iff (declaration : Declaration) :
    Fixed declaration.lexemes ↔ declaration.body.trim? = none := by
  obtain ⟨label?, name, define, body⟩ := declaration
  constructor
  · intro hfixed
    cases htrim : body.trim? with
    | none => rfl
    | some found =>
        obtain ⟨front, label⟩ := found
        obtain rfl := Choice.trim?_eq_some_iff.mp htrim
        have hclosed : Closed (Declaration.lexemes ⟨label?, name, define, front⟩) :=
          Declaration.closed _
        have hloose := hclosed.not_fixed_label (label.as (.label label.token)) rfl
        refine absurd ?_ hloose
        simpa [Declaration.lexemes, Choice.lexemes_extend] using hfixed
  · intro htrim
    have hbody : Fixed (define.as .define :: body.lexemes) := by
      cases body with
      | one sequence => exact Sequence.fixed_cons (Option.map_eq_none_iff.mp htrim) rfl
      | or before bar sequence =>
          have hsequence : Fixed (bar.as .bar :: sequence.lexemes) :=
            Sequence.fixed_cons (Option.map_eq_none_iff.mp htrim) rfl
          exact hsequence.append (define.as .define :: before.lexemes)
    exact (hbody.append [name.as (.name name.token)]).append _

theorem ownsLabel_iff {before after : Declaration} :
    OwnsLabel before after ↔ (after.label? = none → before.body.trim? = none) := by
  unfold OwnsLabel
  cases after.label? with
  | none => simp [before.fixed_iff]
  | some label => simp [before.closed]

/-! ## Settling -/

/-- Put a rule in front of others. A loose label goes to the rule behind it. -/
def handOver (declaration : Declaration) : List Declaration → List Declaration
  | [] => [declaration]
  | after :: later =>
      match after.label?, declaration.body.trim? with
      | none, some (body, label) =>
          { declaration with body } :: { after with label? := some label } :: later
      | _, _ => declaration :: after :: later

def settle : List Declaration → List Declaration
  | [] => []
  | declaration :: later => handOver declaration (settle later)

theorem yield_handOver (declaration : Declaration) (later : List Declaration) :
    yield (handOver declaration later) = declaration.lexemes ++ yield later := by
  unfold handOver
  split
  · rfl
  · split
    · rename_i after later body label hlabel htrim
      have hbody := congrArg Choice.lexemes (Choice.trim?_eq_some_iff.mp htrim)
      simp [yield, Declaration.lexemes, hbody, hlabel, Choice.lexemes_extend]
    · rfl

theorem yield_settle (declarations : List Declaration) :
    yield (settle declarations) = yield declarations := by
  induction declarations with
  | nil => rfl
  | cons declaration later ih =>
      rw [settle, yield_handOver, ih]
      rfl

theorem Settled.cons {before after : Declaration} {later : List Declaration}
    (h : Settled (after :: later)) (howns : OwnsLabel before after) :
    Settled (before :: after :: later) :=
  ⟨howns, h⟩

/-- The label of the first rule has no say in what follows. -/
theorem Settled.relabel {after : Declaration} {later : List Declaration}
    (h : Settled (after :: later)) (label? : Option (Lexeme String)) :
    Settled ({ after with label? } :: later) := by
  cases later with
  | nil => trivial
  | cons next later =>
      have hbody : next.label? = none → after.body.trim? = none := ownsLabel_iff.mp h.1
      exact ⟨ownsLabel_iff.mpr hbody, h.2⟩

theorem settled_handOver {later : List Declaration} (h : Settled later)
    (declaration : Declaration) : Settled (handOver declaration later) := by
  unfold handOver
  split
  · trivial
  · rename_i after later
    split
    · rename_i body label _ _
      exact ⟨ownsLabel_iff.mpr nofun, h.relabel (some label)⟩
    · rename_i hkept
      refine ⟨ownsLabel_iff.mpr ?_, h⟩
      intro hlabel
      cases htrim : declaration.body.trim? with
      | none => rfl
      | some found => exact absurd htrim (hkept found.1 found.2 hlabel)

theorem settled_settle (declarations : List Declaration) : Settled (settle declarations) := by
  induction declarations with
  | nil => trivial
  | cons declaration later ih => exact settled_handOver ih declaration

/-! ## Derivations told apart -/

def Declaration.isLabelled (declaration : Declaration) : Bool :=
  declaration.label?.isSome

theorem map_name_handOver (declaration : Declaration) (later : List Declaration) :
    (handOver declaration later).map Declaration.name =
      declaration.name :: later.map Declaration.name := by
  unfold handOver
  split
  · rfl
  · split <;> rfl

theorem map_name_settle (declarations : List Declaration) :
    (settle declarations).map Declaration.name = declarations.map Declaration.name := by
  induction declarations with
  | nil => rfl
  | cons declaration later ih => rw [settle, map_name_handOver, ih, List.map_cons]

theorem head?_handOver (declaration : Declaration) (later : List Declaration) :
    (handOver declaration later).head?.map Declaration.isLabelled =
      some declaration.isLabelled := by
  unfold handOver
  split
  · rfl
  · split <;> rfl

theorem head?_settle (declarations : List Declaration) :
    (settle declarations).head?.map Declaration.isLabelled =
      declarations.head?.map Declaration.isLabelled := by
  cases declarations with
  | nil => rfl
  | cons declaration later => exact head?_handOver declaration (settle later)

theorem handOver_inj_of_unlabelled {declaration other after after' : Declaration}
    {later later' : List Declaration} (hafter : after.label? = none)
    (hafter' : after'.label? = none)
    (h : handOver declaration (after :: later) = handOver other (after' :: later')) :
    declaration = other ∧ after :: later = after' :: later' := by
  obtain ⟨label?, name, define, body⟩ := declaration
  obtain ⟨otherLabel?, otherName, otherDefine, otherBody⟩ := other
  obtain ⟨afterLabel?, afterName, afterDefine, afterBody⟩ := after
  obtain ⟨afterLabel'?, afterName', afterDefine', afterBody'⟩ := after'
  obtain rfl : afterLabel? = none := hafter
  obtain rfl : afterLabel'? = none := hafter'
  -- a label handed over on one side only shows in the rule behind
  cases htrim : body.trim? with
  | none =>
      cases htrim' : otherBody.trim? with
      | none => simpa [handOver, htrim, htrim'] using h
      | some found' => simp [handOver, htrim, htrim'] at h
  | some found =>
      cases htrim' : otherBody.trim? with
      | none => simp [handOver, htrim, htrim'] at h
      | some found' =>
          obtain ⟨front, label⟩ := found
          obtain ⟨front', label'⟩ := found'
          obtain rfl := Choice.trim?_eq_some_iff.mp htrim
          obtain rfl := Choice.trim?_eq_some_iff.mp htrim'
          simp only [handOver, htrim, htrim', List.cons.injEq, Declaration.mk.injEq,
            Option.some.injEq] at h
          obtain ⟨⟨rfl, rfl, rfl, rfl⟩, ⟨rfl, rfl, rfl, rfl⟩, rfl⟩ := h
          exact ⟨rfl, rfl⟩

/-- What has been handed over is known from whether the rule behind had a label. -/
theorem handOver_inj {declaration other : Declaration} {later others : List Declaration}
    (h : handOver declaration later = handOver other others)
    (hhead : later.head?.map Declaration.isLabelled =
      others.head?.map Declaration.isLabelled) :
    declaration = other ∧ later = others := by
  cases later with
  | nil =>
      cases others with
      | nil => exact ⟨(List.cons.inj h).1, rfl⟩
      | cons after' later' => exact nomatch hhead
  | cons after later =>
      cases others with
      | nil => exact nomatch hhead
      | cons after' later' =>
          have hlabels : after.label?.isSome = after'.label?.isSome := Option.some.inj hhead
          cases hafter : after.label? with
          | none =>
              have hafter' : after'.label? = none := by simpa [hafter] using hlabels
              exact handOver_inj_of_unlabelled hafter hafter' h
          | some label =>
              obtain ⟨label', hafter'⟩ : ∃ label', after'.label? = some label' :=
                Option.isSome_iff_exists.mp (by simpa [hafter] using hlabels.symm)
              simpa [handOver, hafter, hafter'] using h

theorem settle_inj {declarations others : List Declaration}
    (h : settle declarations = settle others)
    (hlabels : declarations.map Declaration.isLabelled = others.map Declaration.isLabelled) :
    declarations = others := by
  induction declarations generalizing others with
  | nil =>
      obtain rfl : others = [] := by simpa using hlabels.symm
      rfl
  | cons declaration later ih =>
      cases others with
      | nil => exact nomatch hlabels
      | cons other others =>
          have hlater := (List.cons.inj hlabels).2
          have hheads := congrArg List.head? hlater
          rw [List.head?_map, List.head?_map, ← head?_settle later, ← head?_settle others]
            at hheads
          obtain ⟨rfl, hsettle⟩ := handOver_inj h hheads
          rw [ih hsettle hlater]

end GrammarTable.W3c
