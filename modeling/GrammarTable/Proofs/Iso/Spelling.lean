import GrammarTable.Proofs.Iso.Plain
import GrammarTable.Proofs.Rule.NormalForm
import GrammarTable.Proofs.Tree.Fold

/-!
# Spelling rules in the ISO style

The words for a rule. Brackets stand only where an operator does not do: around a group, and
around a sequence or a choice that may be left out or repeated. So the words nest as deep as
such nodes lie below each other.
-/

namespace GrammarTable.Iso

open Grammar Plain Rule Text Token

/-! ## Brackets -/

/-- Only brackets can stand for the node. -/
def NeedsBrackets (label : Label) (below : List Label) : Prop :=
  label.kind = .group ∨
    label.kind ∈ [Kind.optional, .repetition] ∧
      ∃ part ∈ below, part.kind ∈ [Kind.sequence, .choice]

instance (label : Label) (below : List Label) : Decidable (NeedsBrackets label below) :=
  inferInstanceAs (Decidable (_ ∨ _))

/-- How many pairs of brackets a node adds around what stands below it. -/
def bracketsOf (label : Label) (below : List Label) : Nat :=
  if NeedsBrackets label below then 1 else 0

def openingWord (bracket : Bracket) : Word Sign :=
  ⟨.opening bracket, match bracket with
    | .round => ['(']
    | .square => ['[']
    | .curly => ['\x7b']⟩

def closingWord (bracket : Bracket) : Word Sign :=
  ⟨.closing bracket, match bracket with
    | .round => [')']
    | .square => [']']
    | .curly => ['\x7d']⟩

def operatorWord (operator : Operator) : Word Sign :=
  ⟨.operator operator, match operator with
    | .question => ['?']
    | .star => ['*']
    | .plus => ['+']⟩

/-! ## The words of a node -/

def quoteFor (text : String) : Char :=
  if '"' ∈ text.toList then '\'' else '"'

def bracketed (bracket : Bracket) (words : List (Word Sign)) : List (Word Sign) :=
  openingWord bracket :: (words ++ [closingWord bracket])

def repeated (operator : Operator) (words : List (Word Sign)) : List (Word Sign) :=
  words ++ [operatorWord operator]

def spell (label : Label) (below : List Label) (parts : List (List (Word Sign))) :
    List (Word Sign) :=
  match label.kind with
  | .rule =>
      manner.name label.name :: manner.define :: (parts.flatten ++ manner.ending)
  | .terminal => [manner.literal (quoteFor label.name) label.name]
  | .nonTerminal => [manner.name label.name]
  | .choice => [manner.bar].intercalate parts
  | .group => bracketed .round parts.flatten
  | .optional =>
      if NeedsBrackets label below then bracketed .square parts.flatten
      else repeated .question parts.flatten
  | .repetition =>
      if NeedsBrackets label below then bracketed .curly parts.flatten
      else repeated .star parts.flatten
  | .repetition1 => repeated .plus parts.flatten
  | _ => parts.flatten

/-- What the words of a node can be: a leaf, or its parts in a row or with bars between them,
in brackets or with an operator behind them. -/
theorem spell_elim {P : List (Word Sign) → Prop} {label : Label} {below : List Label}
    {parts : List (List (Word Sign))}
    (rule : label.kind = .rule →
      P (manner.name label.name :: manner.define :: (parts.flatten ++ manner.ending)))
    (terminal : label.kind = .terminal →
      P [manner.literal (quoteFor label.name) label.name])
    (nonTerminal : label.kind = .nonTerminal → P [manner.name label.name])
    (choice : P ([manner.bar].intercalate parts)) (row : P parts.flatten)
    (around : NeedsBrackets label below → ∀ bracket, P (bracketed bracket parts.flatten))
    (behind : ∀ operator, P (repeated operator parts.flatten)) :
    P (spell label below parts) := by
  cases hkind : label.kind <;> simp only [spell, hkind]
  case rule => exact rule hkind
  case terminal => exact terminal hkind
  case nonTerminal => exact nonTerminal hkind
  case choice => exact choice
  case group => exact around (.inl hkind) .round
  case optional =>
    split
    · exact around ‹_› .square
    · exact behind .question
  case repetition =>
    split
    · exact around ‹_› .curly
    · exact behind .star
  case repetition1 => exact behind .plus
  case pattern => exact row
  case sequence => exact row
  case exclusion => exact row

def words : Node → List (Word Sign) :=
  Tree.fold spell

theorem words_mk (label : Label) (children : List Node) :
    words ⟨label, children⟩ = spell label (children.map Tree.label) (children.map words) :=
  Tree.fold_mk spell label children

/-! ## How the words nest -/

/-- The words close what they open, and open at most so many brackets at once. -/
structure Balanced (room : Nat) (words : List (Word Sign)) : Prop where
  depthBehind_eq : ∀ depth : Int,
    depthBehind Sign.nesting depth (words.map Word.lexeme) = depth
  nestsWithin : ∀ (limit : Nat) (depth : Int), depth + room ≤ limit →
    NestsWithin Sign.nesting (some limit) depth (words.map Word.lexeme)

section Balanced

variable {room more : Nat} {front back part : List (Word Sign)} {parts : List (List (Word Sign))}

theorem Balanced.mono (h : Balanced room part) (hle : room ≤ more) : Balanced more part where
  depthBehind_eq := h.depthBehind_eq
  nestsWithin limit depth hdepth := h.nestsWithin limit depth (by omega)

theorem balanced_of_level (room : Nat) (h : ∀ word ∈ part, word.token.nesting = 0) :
    Balanced room part := by
  have hlevel : ∀ lexeme ∈ part.map Word.lexeme, Sign.nesting lexeme.token = 0 :=
    List.forall_mem_map.mpr h
  refine ⟨fun depth => depthBehind_of_level hlevel, fun limit depth hdepth => ?_⟩
  refine nestsWithin_of_level hlevel fun bound hbound => ?_
  obtain rfl := Option.some.inj hbound
  omega

theorem Balanced.append (hfront : Balanced room front) (hback : Balanced room back) :
    Balanced room (front ++ back) where
  depthBehind_eq depth := by
    rw [List.map_append, depthBehind_append, hfront.depthBehind_eq, hback.depthBehind_eq]
  nestsWithin limit depth hdepth := by
    rw [List.map_append, nestsWithin_append, hfront.depthBehind_eq]
    exact ⟨hfront.nestsWithin limit depth hdepth, hback.nestsWithin limit depth hdepth⟩

theorem Balanced.bracketed (bracket : Bracket) (h : Balanced room part) :
    Balanced (room + 1) (bracketed bracket part) where
  depthBehind_eq depth := by
    rw [Iso.bracketed, List.map_cons, List.map_append, depthBehind, depthBehind_append,
      h.depthBehind_eq]
    exact Int.add_neg_cancel_right depth 1
  nestsWithin limit depth hdepth := by
    have hinner := h.nestsWithin limit (depth + 1) (by omega)
    have hwithin : ∀ bound ∈ some limit, depth ≤ (bound : Nat) := by
      intro bound hbound
      obtain rfl := Option.some.inj hbound
      omega
    rw [Iso.bracketed, List.map_cons, List.map_append]
    refine ⟨hwithin, nestsWithin_append.mpr ⟨hinner, ?_⟩⟩
    rw [h.depthBehind_eq]
    refine ⟨hinner.depth_le, ?_⟩
    show NestsWithin Sign.nesting (some limit) (depth + 1 + -1) []
    rwa [Int.add_neg_cancel_right]

theorem balanced_flatten (h : ∀ part ∈ parts, Balanced room part) :
    Balanced room parts.flatten := by
  induction parts with
  | nil => exact balanced_of_level room (List.forall_mem_nil _)
  | cons first rest ih =>
      obtain ⟨hfirst, hrest⟩ := List.forall_mem_cons.mp h
      exact hfirst.append (ih hrest)

theorem balanced_intercalate {joint : List (Word Sign)} (hjoint : Balanced room joint)
    (h : ∀ part ∈ parts, Balanced room part) : Balanced room (joint.intercalate parts) := by
  induction parts with
  | nil => exact balanced_of_level room (List.forall_mem_nil _)
  | cons first rest ih =>
      obtain ⟨hfirst, hrest⟩ := List.forall_mem_cons.mp h
      cases rest with
      | nil => rwa [List.intercalate_singleton]
      | cons second later =>
          rw [List.intercalate_cons_cons]
          exact (hfirst.append hjoint).append (ih hrest)

/-- A node nests one deeper than its children if it needs brackets. -/
theorem balanced_spell (label : Label) (below : List Label)
    (h : ∀ part ∈ parts, Balanced room part) :
    Balanced (bracketsOf label below + room) (spell label below parts) := by
  have hinner : Balanced room parts.flatten := balanced_flatten h
  have hrow : Balanced (bracketsOf label below + room) parts.flatten :=
    hinner.mono (Nat.le_add_left _ _)
  apply spell_elim
  case rule =>
    intro _
    have hhead : ∀ word ∈ [manner.name label.name, manner.define], word.token.nesting = 0 :=
      List.forall_mem_cons.mpr ⟨rfl, List.forall_mem_singleton.mpr rfl⟩
    have hending : ∀ word ∈ manner.ending, word.token.nesting = 0 :=
      List.forall_mem_singleton.mpr rfl
    exact (balanced_of_level _ hhead).append (hrow.append (balanced_of_level _ hending))
  case terminal => exact fun _ => balanced_of_level _ (List.forall_mem_singleton.mpr rfl)
  case nonTerminal => exact fun _ => balanced_of_level _ (List.forall_mem_singleton.mpr rfl)
  case choice =>
    apply Balanced.mono (balanced_intercalate ?_ h) (Nat.le_add_left _ _)
    exact balanced_of_level _ (List.forall_mem_singleton.mpr rfl)
  case row => exact hrow
  case around =>
    intro hneeds bracket
    rw [bracketsOf, if_pos hneeds, Nat.add_comm]
    exact hinner.bracketed bracket
  case behind =>
    intro operator
    exact hrow.append (balanced_of_level _ (List.forall_mem_singleton.mpr rfl))

theorem balanced_words (node : Node) :
    Balanced (node.pathCost bracketsOf) (words node) := by
  induction node using Tree.child_induction with
  | mk label children ih =>
      rw [Tree.pathCost_mk, words_mk]
      refine balanced_spell label _ (List.forall_mem_map.mpr fun child hchild => ?_)
      exact (ih child hchild).mono (Tree.pathCost_le_max hchild)

end Balanced

/-! ## Words are lexemes -/

/-- What names and texts the ISO style can show: names of letters, digits, underscores and
hyphens, and texts on one line that leave out one of the quotes. -/
def Writable (label : Label) : Prop :=
  match label.kind with
  | .rule => isName label.name.toList = true
  | .nonTerminal => isName label.name.toList = true
  | .terminal =>
      (∀ c ∈ label.name.toList, isInline c = true) ∧
        ('"' ∉ label.name.toList ∨ '\'' ∉ label.name.toList)
  | _ => True

instance (label : Label) : Decidable (Writable label) := by
  unfold Writable
  cases label.kind <;> dsimp only <;> infer_instance

theorem whole_opening (bracket : Bracket) : scheme.lexicon.Whole (openingWord bracket) := by
  cases bracket <;> exact Lexicon.whole_of_cut rfl

theorem whole_closing (bracket : Bracket) : scheme.lexicon.Whole (closingWord bracket) := by
  cases bracket <;> exact Lexicon.whole_of_cut rfl

theorem whole_operator (operator : Operator) : scheme.lexicon.Whole (operatorWord operator) := by
  cases operator <;> exact Lexicon.whole_of_cut rfl

theorem whole_name {name : String} (h : isName name.toList = true) :
    scheme.lexicon.Whole (manner.name name) :=
  (fits_manner.name ⟨name, h⟩).1

theorem whole_literal {text : String} (hinline : ∀ c ∈ text.toList, isInline c = true)
    (hquotable : '"' ∉ text.toList ∨ '\'' ∉ text.toList) :
    scheme.lexicon.Whole (manner.literal (quoteFor text) text) := by
  refine (fits_manner.literal ⟨text, hinline, hquotable⟩ (quoteFor text) ?_ ?_).1
  · unfold quoteFor
    split
    · exact .inr rfl
    · exact .inl rfl
  · unfold quoteFor
    split
    · exact hquotable.resolve_left (not_not_intro ‹_›)
    · assumption

section Whole

variable {parts : List (List (Word Sign))}

theorem forall_mem_intercalate {P : Word Sign → Prop} {joint : List (Word Sign)}
    (hjoint : ∀ word ∈ joint, P word) (hparts : ∀ part ∈ parts, ∀ word ∈ part, P word) :
    ∀ word ∈ joint.intercalate parts, P word := by
  induction parts with
  | nil => exact List.forall_mem_nil P
  | cons first rest ih =>
      obtain ⟨hfirst, hrest⟩ := List.forall_mem_cons.mp hparts
      cases rest with
      | nil => rwa [List.intercalate_singleton]
      | cons second later =>
          rw [List.intercalate_cons_cons]
          have hfront := List.forall_mem_append.mpr ⟨hfirst, hjoint⟩
          exact List.forall_mem_append.mpr ⟨hfront, ih hrest⟩

theorem whole_spell {label : Label} {below : List Label} (hlabel : Writable label)
    (hparts : ∀ part ∈ parts, ∀ word ∈ part, scheme.lexicon.Whole word) :
    ∀ word ∈ spell label below parts, scheme.lexicon.Whole word := by
  have hrow : ∀ word ∈ parts.flatten, scheme.lexicon.Whole word := by
    intro word hword
    obtain ⟨part, hpart, hmem⟩ := List.mem_flatten.mp hword
    exact hparts part hpart word hmem
  unfold Writable at hlabel
  apply spell_elim (P := fun words => ∀ word ∈ words, scheme.lexicon.Whole word)
  case rule =>
    intro hkind
    rw [hkind] at hlabel
    have hdefine : scheme.lexicon.Whole manner.define := Lexicon.whole_of_cut rfl
    have hending : ∀ word ∈ manner.ending, scheme.lexicon.Whole word :=
      List.forall_mem_singleton.mpr (Lexicon.whole_of_cut rfl)
    refine List.forall_mem_cons.mpr ⟨whole_name hlabel, List.forall_mem_cons.mpr ⟨hdefine, ?_⟩⟩
    exact List.forall_mem_append.mpr ⟨hrow, hending⟩
  case terminal =>
    intro hkind
    rw [hkind] at hlabel
    exact List.forall_mem_singleton.mpr (whole_literal hlabel.1 hlabel.2)
  case nonTerminal =>
    intro hkind
    rw [hkind] at hlabel
    exact List.forall_mem_singleton.mpr (whole_name hlabel)
  case choice =>
    have hbar : scheme.lexicon.Whole manner.bar := Lexicon.whole_of_cut rfl
    exact forall_mem_intercalate (List.forall_mem_singleton.mpr hbar) hparts
  case row => exact hrow
  case around =>
    intro _ bracket
    have hclosing := List.forall_mem_singleton.mpr (whole_closing bracket)
    have hinner := List.forall_mem_append.mpr ⟨hrow, hclosing⟩
    exact List.forall_mem_cons.mpr ⟨whole_opening bracket, hinner⟩
  case behind =>
    intro operator
    have hoperator := List.forall_mem_singleton.mpr (whole_operator operator)
    exact List.forall_mem_append.mpr ⟨hrow, hoperator⟩

theorem whole_words {node : Node} (h : node.Throughout fun label _ => Writable label) :
    ∀ word ∈ words node, scheme.lexicon.Whole word := by
  induction node using Tree.child_induction with
  | mk label children ih =>
      obtain ⟨hlabel, hbelow⟩ := Tree.throughout_mk.mp h
      rw [words_mk]
      refine whole_spell hlabel (List.forall_mem_map.mpr fun child hchild => ?_)
      exact ih child hchild (hbelow child hchild)

end Whole

end GrammarTable.Iso
