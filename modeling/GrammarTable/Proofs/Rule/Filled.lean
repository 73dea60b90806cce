import GrammarTable.Proofs.Token.Derived
import GrammarTable.Proofs.Token.Excerpt
import GrammarTable.Proofs.Tree.Leaves
import GrammarTable.Proofs.Tree.Throughout
import GrammarTable.Rule.Composite

/-!
# Drafts over lexemes

A draft stands over the lexemes that it was read from: each lexeme with a value is a leaf,
and each node reaches from the start of its first lexeme to the end of its last. So the spans
of drafts lie as those of the lexemes do, and no value is lost or found twice.
-/

namespace GrammarTable

/-! ## Spans in order -/

namespace Text

/-- Spans of some bytes each, one behind the other, between two offsets. -/
def Laid (low high : Nat) : List Span → Prop
  | [] => low ≤ high
  | span :: rest => low ≤ span.start ∧ span.start < span.stop ∧ Laid span.stop high rest

variable {low high : Nat} {spans front back : List Span} {last : Span}

theorem Laid.le (h : Laid low high spans) : low ≤ high := by
  induction spans generalizing low with
  | nil => exact h
  | cons span rest ih =>
      obtain ⟨hlow, hspan, hrest⟩ := h
      have hstop := ih hrest
      omega

theorem Laid.mono {lower : Nat} (h : Laid low high spans) (hle : lower ≤ low) :
    Laid lower high spans := by
  cases spans with
  | nil => exact Nat.le_trans hle h
  | cons span rest => exact ⟨Nat.le_trans hle h.1, h.2⟩

theorem Laid.of_append (h : Laid low high (front ++ back)) : Laid low high back := by
  induction front generalizing low with
  | nil => exact h
  | cons span rest ih => exact ih (Laid.mono h.2.2 (by have := h.1; have := h.2.1; omega))

theorem Laid.append (hfront : Laid low last.start front) (hlast : last.start < last.stop)
    (hback : Laid last.stop high back) : Laid low high (front ++ last :: back) := by
  induction front generalizing low with
  | nil => exact ⟨hfront, hlast, hback⟩
  | cons span rest ih => exact ⟨hfront.1, hfront.2.1, ih hfront.2.2⟩

/-- What stands in front of a span ends where it starts, and what stands behind it starts
where it ends. -/
theorem Laid.split (h : Laid low high (front ++ last :: back)) :
    Laid low last.start front ∧ last.start < last.stop ∧ Laid last.stop high back := by
  induction front generalizing low with
  | nil => exact h
  | cons span rest ih =>
      obtain ⟨hlow, hspan, hrest⟩ := h
      obtain ⟨hfront, hlast, hback⟩ := ih hrest
      exact ⟨⟨hlow, hspan, hfront⟩, hlast, hback⟩

theorem Laid.within (h : Laid low high spans) :
    ∀ span ∈ spans, low ≤ span.start ∧ span.stop ≤ high := by
  intro span hspan
  obtain ⟨front, back, rfl⟩ := List.append_of_mem hspan
  obtain ⟨hfront, -, hback⟩ := h.split
  exact ⟨hfront.le, hback.le⟩

theorem Laid.pos (h : Laid low high spans) : ∀ span ∈ spans, span.start < span.stop := by
  intro span hspan
  have ⟨front, back, hsplit⟩ := List.append_of_mem hspan
  rw [hsplit] at h
  exact h.split.2.1

theorem Laid.isChain (h : Laid low high spans) :
    spans.IsChain fun first second => first.stop ≤ second.start := by
  induction spans generalizing low with
  | nil => exact .nil
  | cons span rest ih =>
      cases rest with
      | nil => exact .singleton span
      | cons next later => exact .cons_cons h.2.2.1 (ih h.2.2)

end Text

namespace Token

open Text

variable {τ : Type} {low high start stop : Nat} {lexemes inner rest : List (Lexeme τ)}

def StartsAt (lexemes : List (Lexeme τ)) (start : Nat) : Prop :=
  ∃ first ∈ lexemes.head?, first.span.start = start

theorem StartsAt.append (h : StartsAt lexemes start) (back : List (Lexeme τ)) :
    StartsAt (lexemes ++ back) start := by
  obtain ⟨first, hfirst, hstart⟩ := h
  refine ⟨first, ?_, hstart⟩
  rw [List.head?_append, Option.mem_def.mp hfirst]
  rfl

/-- Lexemes in a row reach from the start of the first one to the end of the last one. -/
theorem laid_of_startsAt (h : Laid low high ((inner ++ rest).map Lexeme.span))
    (hstart : StartsAt inner start) (hstop : EndsAt inner stop) :
    low ≤ start ∧ start < stop ∧ Laid start stop (inner.map Lexeme.span) ∧
      Laid stop high (rest.map Lexeme.span) := by
  obtain ⟨last, hlast, rfl⟩ := hstop
  obtain ⟨front, rfl⟩ := List.getLast?_eq_some_iff.mp hlast
  obtain ⟨first, hfirst, rfl⟩ := hstart
  rw [List.append_assoc, List.singleton_append, List.map_append, List.map_cons] at h
  obtain ⟨hfront, hpos, hback⟩ := h.split
  rw [List.map_append, List.map_singleton]
  cases front with
  | nil =>
      obtain rfl : last = first := Option.some.inj hfirst
      exact ⟨hfront, hpos, ⟨Nat.le_refl _, hpos, Nat.le_refl _⟩, hback⟩
  | cons other front =>
      obtain rfl : other = first := Option.some.inj hfirst
      obtain ⟨hlow, hother, hlater⟩ := hfront
      have hle := hlater.le
      exact ⟨hlow, by omega, Laid.append ⟨Nat.le_refl _, hother, hlater⟩ hpos (Nat.le_refl _),
        hback⟩

/-- The lexemes of a text lie in its bytes. -/
theorem Lexicon.Lexes.laid {lexicon : Lexicon τ} {offset : Nat} {cs : List Char}
    (h : lexicon.Lexes offset cs lexemes) :
    Laid offset (offset + byteLength cs) (lexemes.map Lexeme.span) := by
  induction h with
  | nil offset => exact Nat.le_refl offset
  | @skip offset c front rest lexemes hcut later ih =>
      rw [byteLength_append, ← Nat.add_assoc]
      exact ih.mono (Nat.le_add_right _ _)
  | @token offset c front rest lexemes token hcut later ih =>
      have hpos := byteLength_pos (List.cons_ne_nil c front)
      rw [byteLength_append, ← Nat.add_assoc]
      exact ⟨Nat.le_refl offset, by simpa using hpos, ih⟩

end Token

/-! ## Drafts -/

namespace Rule

open Text Token

variable {τ : Type}

/-- A node has a span of some bytes, between characters of the text, and the spans of its
children lie in it one behind the other. -/
def MarkedLabel.Spanned (text : List Char) (label : MarkedLabel) (below : List MarkedLabel) :
    Prop :=
  ∃ (span : Span) (inner : List Span), label.span = some span ∧ span.start < span.stop ∧
    (∃ part, Slice text span part) ∧ below.map MarkedLabel.span = inner.map some ∧
    (∀ part ∈ inner, span.start ≤ part.start ∧ part.stop ≤ span.stop) ∧
    inner.IsChain fun first second => first.stop ≤ second.start

theorem MarkedLabel.spanned_of_laid {text : List Char} {label : MarkedLabel} {span : Span}
    {children : List Draft} {inner : List Span} (hspan : label.span = some span)
    (hpos : span.start < span.stop) (hslice : ∃ part, Slice text span part)
    (hinner : children.map (fun child => child.label.span) = inner.map some)
    (hlaid : Laid span.start span.stop inner) :
    label.Spanned text (children.map Tree.label) := by
  refine ⟨span, inner, hspan, hpos, hslice, ?_, hlaid.within, hlaid.isChain⟩
  rw [← hinner, List.map_map]
  rfl

def MarkedLabel.unmarked (label : MarkedLabel) : MarkedLabel :=
  { label with unique := false }

def leaf? (value : τ → Option Label) (lexeme : Lexeme τ) : Option MarkedLabel :=
  (value lexeme.token).map fun label => { label with span := some lexeme.span }

/-- Drafts stand over lexemes: some of these have no value, and the others are leaves, in
their order. A node reaches from its first lexeme to its last. -/
inductive Fills (value : τ → Option Label) : List (Lexeme τ) → List Draft → Prop where
  | nil : Fills value [] []
  | skip {lexeme : Lexeme τ} {rest : List (Lexeme τ)} {forest : List Draft}
      (h : value lexeme.token = none) (later : Fills value rest forest) :
      Fills value (lexeme :: rest) forest
  | leaf {lexeme : Lexeme τ} {rest : List (Lexeme τ)} {forest : List Draft}
      {label : MarkedLabel} (h : value lexeme.token = some label.toLabel)
      (hspan : label.span = some lexeme.span) (later : Fills value rest forest) :
      Fills value (lexeme :: rest) (⟨label, []⟩ :: forest)
  | node {inner rest : List (Lexeme τ)} {children forest : List Draft} {label : MarkedLabel}
      {start stop : Nat} (hspan : label.span = some ⟨start, stop⟩)
      (hstart : StartsAt inner start) (hstop : EndsAt inner stop) (hne : children ≠ [])
      (below : Fills value inner children) (later : Fills value rest forest) :
      Fills value (inner ++ rest) (⟨label, children⟩ :: forest)

namespace Fills

variable {value : τ → Option Label} {lexemes front back : List (Lexeme τ)}
  {forest drafts others : List Draft} {text : List Char} {low high : Nat}

theorem append (hfront : Fills value front drafts) (hback : Fills value back others) :
    Fills value (front ++ back) (drafts ++ others) := by
  induction hfront with
  | nil => exact hback
  | skip h later ih => exact .skip h ih
  | leaf h hspan later ih => exact .leaf h hspan ih
  | node hspan hstart hstop hne below later _ ih =>
      rw [List.append_assoc]
      exact .node hspan hstart hstop hne below ih

/-- Marks may be set or cleared. -/
theorem map_markUnique (h : Fills value lexemes forest) (unique : Draft → Bool) :
    Fills value lexemes
      (forest.map fun draft => Draft.markUnique (unique draft) draft) := by
  induction h with
  | nil => exact .nil
  | skip h later ih => exact .skip h ih
  | leaf h hspan later ih => exact .leaf h hspan ih
  | node hspan hstart hstop hne below later _ ih =>
      exact .node hspan hstart hstop hne below ih

theorem markAlternatives (h : Fills value lexemes forest) :
    Fills value lexemes (Draft.markAlternatives forest) :=
  h.map_markUnique _

theorem singleton_leaf {lexeme : Lexeme τ} {kind : Kind} {name : String}
    (h : value lexeme.token = some ⟨kind, name⟩) :
    Fills value [lexeme] [Draft.leaf kind name lexeme.span] :=
  .leaf h rfl .nil

theorem singleton_skip {lexeme : Lexeme τ} (h : value lexeme.token = none) :
    Fills value [lexeme] [] :=
  .skip h .nil

theorem singleton_composite {kind : Kind} {owner : String} {start stop : Nat}
    (hstart : StartsAt lexemes start) (hstop : EndsAt lexemes stop) (hne : forest ≠ [])
    (below : Fills value lexemes forest) :
    Fills value lexemes [Draft.composite kind owner ⟨start, stop⟩ forest] := by
  have hspan : ({ kind, name := owner, span := some ⟨start, stop⟩ } : MarkedLabel).span =
      some ⟨start, stop⟩ := rfl
  have hnode := Fills.node hspan hstart hstop hne below .nil
  rwa [List.append_nil] at hnode

theorem ne_nil (h : Fills value lexemes forest) (hne : forest ≠ []) : lexemes ≠ [] := by
  cases h with
  | nil => exact absurd rfl hne
  | skip h later => exact List.cons_ne_nil _ _
  | leaf h hspan later => exact List.cons_ne_nil _ _
  | node hspan hstart hstop hne below later =>
      obtain ⟨first, hfirst, -⟩ := hstart
      obtain ⟨more, rfl⟩ := List.head?_eq_some_iff.mp hfirst
      exact List.cons_ne_nil _ _

/-- The spans of the drafts lie as those of the lexemes. -/
theorem laid (h : Fills value lexemes forest) (hlaid : Laid low high (lexemes.map Lexeme.span)) :
    ∃ spans, forest.map (fun draft => draft.label.span) = spans.map some ∧
      Laid low high spans := by
  induction h generalizing low with
  | nil => exact ⟨[], rfl, hlaid⟩
  | skip h later ih =>
      obtain ⟨hlow, hpos, hrest⟩ := hlaid
      exact ih (hrest.mono (by omega))
  | @leaf lexeme rest forest label h hspan later ih =>
      obtain ⟨hlow, hpos, hrest⟩ := hlaid
      obtain ⟨spans, hspans, hlater⟩ := ih hrest
      exact ⟨lexeme.span :: spans, by simp [hspan, hspans], hlow, hpos, hlater⟩
  | @node inner rest children forest label start stop hspan hstart hstop hne below later _ ih =>
      obtain ⟨hlow, hpos, -, hrest⟩ := laid_of_startsAt hlaid hstart hstop
      obtain ⟨spans, hspans, hlater⟩ := ih hrest
      exact ⟨⟨start, stop⟩ :: spans, by simp [hspan, hspans], hlow, hpos, hlater⟩

/-- Every node is spanned where the lexemes lie in a text. -/
theorem throughout (h : Fills value lexemes forest)
    (hlaid : Laid low high (lexemes.map Lexeme.span))
    (hslice : ∀ inner, inner <:+: lexemes → ∀ first ∈ inner.head?, ∀ last ∈ inner.getLast?,
      ∃ part, Slice text ⟨first.span.start, last.span.stop⟩ part) :
    ∀ draft ∈ forest, draft.Throughout (MarkedLabel.Spanned text) := by
  induction h generalizing low high with
  | nil => exact nofun
  | @skip lexeme rest forest h later ih =>
      exact ih hlaid.2.2 fun inner hinner =>
        hslice inner (hinner.trans (List.suffix_cons lexeme rest).isInfix)
  | @leaf lexeme rest forest label h hspan later ih =>
      obtain ⟨hlow, hpos, hrest⟩ := hlaid
      refine List.forall_mem_cons.mpr ⟨?_, ?_⟩
      · have hpart := hslice [lexeme] (List.prefix_append [lexeme] rest).isInfix lexeme rfl lexeme
          rfl
        have hbelow : Laid lexeme.span.start lexeme.span.stop [] := Nat.le_of_lt hpos
        exact Tree.throughout_mk.mpr
          ⟨MarkedLabel.spanned_of_laid hspan hpos hpart rfl hbelow, nofun⟩
      · exact ih hrest fun inner hinner =>
          hslice inner (hinner.trans (List.suffix_cons lexeme rest).isInfix)
  | @node inner rest children forest label start stop hspan hstart hstop hne below later
      ihBelow ihLater =>
      obtain ⟨hlow, hpos, hinner, hrest⟩ := laid_of_startsAt hlaid hstart hstop
      have hprefix : inner <:+: inner ++ rest := (List.prefix_append inner rest).isInfix
      have hsuffix : rest <:+: inner ++ rest := (List.suffix_append inner rest).isInfix
      refine List.forall_mem_cons.mpr ⟨Tree.throughout_mk.mpr ⟨?_, ?_⟩, ?_⟩
      · obtain ⟨spans, hspans, hbelow⟩ := below.laid hinner
        obtain ⟨first, hfirst, rfl⟩ := hstart
        obtain ⟨last, hlast, rfl⟩ := hstop
        exact MarkedLabel.spanned_of_laid hspan hpos (hslice inner hprefix first hfirst last hlast)
          hspans hbelow
      · exact ihBelow hinner fun part hpart => hslice part (hpart.trans hprefix)
      · exact ihLater hrest fun part hpart => hslice part (hpart.trans hsuffix)

/-- A rule reaches from the first lexeme of its head to the last of its body, and its
children stand over the body. -/
theorem throughout_rule {head body : List (Lexeme τ)} {rule : Draft} {start stop : Nat}
    (h : Fills value body rule.children) (hspan : rule.label.span = some ⟨start, stop⟩)
    (hstart : StartsAt (head ++ body) start) (hstop : EndsAt (head ++ body) stop)
    (hlaid : Laid low high ((head ++ body).map Lexeme.span))
    (hslice : ∀ inner, inner <:+: head ++ body → ∀ first ∈ inner.head?,
      ∀ last ∈ inner.getLast?, ∃ part, Slice text ⟨first.span.start, last.span.stop⟩ part) :
    rule.Throughout (MarkedLabel.Spanned text) := by
  obtain ⟨label, children⟩ := rule
  rw [← List.append_nil (head ++ body)] at hlaid
  obtain ⟨-, hpos, hall, -⟩ := laid_of_startsAt hlaid hstart hstop
  rw [List.map_append] at hall
  obtain ⟨spans, hspans, hbelow⟩ := h.laid hall.of_append
  obtain ⟨first, hfirst, rfl⟩ := hstart
  obtain ⟨last, hlast, rfl⟩ := hstop
  have hpart := hslice _ List.infix_rfl first hfirst last hlast
  refine Tree.throughout_mk.mpr
    ⟨MarkedLabel.spanned_of_laid hspan hpos hpart hspans hbelow, ?_⟩
  refine h.throughout hall.of_append fun inner hinner => hslice inner ?_
  exact hinner.trans (List.suffix_append head body).isInfix

/-- The leaves are the values of the lexemes. -/
theorem leaves_eq (h : Fills value lexemes forest) :
    (Tree.forestLeaves forest).map MarkedLabel.unmarked = lexemes.filterMap (leaf? value) := by
  induction h with
  | nil => rfl
  | @skip lexeme rest forest h later ih =>
      have hnone : leaf? value lexeme = none := by simp [leaf?, h]
      rw [List.filterMap_cons_none hnone, ih]
  | @leaf lexeme rest forest label h hspan later ih =>
      have hsome : leaf? value lexeme = some label.unmarked := by
        simp [leaf?, h, MarkedLabel.unmarked, hspan]
      rw [List.filterMap_cons_some hsome, Tree.forestLeaves, Tree.leaves_leaf, ← ih]
      rfl
  | node hspan hstart hstop hne below later ihBelow ihLater =>
      rw [Tree.forestLeaves, Tree.leaves_of_ne_nil hne, List.map_append, ihBelow, ihLater,
        List.filterMap_append]

end Fills

end Rule

end GrammarTable
