import GrammarTable.Proofs.Grammar.Excerpt
import GrammarTable.Proofs.Grammar.Partition
import GrammarTable.Proofs.Text.Boundary
import GrammarTable.Proofs.Token.Foresight

/-!
# Where a grammar is refused

What is wrong with a text is said of a boundary in it: the place where it cannot be cut, the
lexeme where the reader stops or the end of the text, the start of a rule whose name is taken,
or the start of a text without rules. So line and column tell which place it is.
-/

namespace GrammarTable

open Rule Settings Text Token

/-- At the end of the lexemes a reader can only say that something is wanted: the limit on nesting
is reached at a bracket. -/
def Token.Reader.EndsWanting {τ σ ρ : Type} (reader : Reader τ σ ρ) : Prop :=
  ∀ state cause, reader.finish state = .error cause → ∃ wanted, cause = .unexpected wanted

namespace Token.Reader

variable {τ σ ρ : Type} {reader : Reader τ σ ρ} {state : σ} {lexemes : List (Lexeme τ)}
  {failure : Failure τ}

theorem rest_ne_nil_of_advance (h : reader.advance state lexemes = .error failure) :
    failure.rest ≠ [] := by
  induction lexemes generalizing state with
  | nil => exact nomatch h
  | cons lexeme rest ih =>
      rw [advance] at h
      split at h
      · have hfailure := Except.error.inj h
        rw [← hfailure]
        exact List.cons_ne_nil _ _
      · exact ih h

/-- A reader stops at one of the lexemes, or it wants something at their end. -/
theorem EndsWanting.stops (ends : reader.EndsWanting) (h : reader.read lexemes = .error failure) :
    (∃ taken, lexemes = taken ++ failure.rest) ∧
      (failure.rest = [] → ∃ wanted, failure.cause = .unexpected wanted) := by
  constructor
  · have ⟨taken, _, hsplit, _⟩ := exists_reaches_of_read h
    exact ⟨taken, hsplit⟩
  · intro hrest
    rcases read_eq_error_iff.mp h with hstops | ⟨state, cause, -, hfinish, rfl⟩
    · exact absurd hrest (rest_ne_nil_of_advance hstops)
    · exact ends state cause hfinish

end Token.Reader

theorem Bnf.endsWanting : reader.EndsWanting := by
  rintro ⟨rules, place⟩ cause h
  cases place with
  | between => exact nomatch h
  | named => exact ⟨_, (Except.error.inj h).symm⟩
  | wanting => exact ⟨_, (Except.error.inj h).symm⟩
  | holding => exact nomatch h

theorem W3c.endsWanting (limit? : Option Nat) : (reader limit?).EndsWanting := by
  rintro ⟨rules, place⟩ cause h
  cases place with
  | between => exact nomatch h
  | labelled => exact ⟨_, (Except.error.inj h).symm⟩
  | named => exact ⟨_, (Except.error.inj h).symm⟩
  | wanting => exact ⟨_, (Except.error.inj h).symm⟩
  | holding head around =>
      cases around with
      | nil => exact nomatch h
      | cons => exact ⟨_, (Except.error.inj h).symm⟩

theorem Iso.endsWanting (limit? : Option Nat) : (reader limit?).EndsWanting := by
  rintro ⟨rules, place⟩ cause h
  cases place with
  | between => exact nomatch h
  | named => exact ⟨_, (Except.error.inj h).symm⟩
  | wanting => exact ⟨_, (Except.error.inj h).symm⟩
  | holding => exact ⟨_, (Except.error.inj h).symm⟩

namespace Grammar

def complaintFor (found : Option String) : Cause → Complaint
  | .unexpected wanted => .unexpected wanted found
  | .tooDeep => .tooDeep

def Stops : (dialect : Dialect) → List (Lexeme (Sign dialect)) → Failure (Sign dialect) → Prop
  | .bnf, lexemes, failure => Bnf.reader.read lexemes = .error failure
  | .w3c, lexemes, failure => (W3c.reader (some nestingLimit)).read lexemes = .error failure
  | .iso, lexemes, failure => (Iso.reader (some nestingLimit)).read lexemes = .error failure

/-- What stands at the offset that a complaint is about. -/
inductive Located (dialect : Dialect) (text : List Char) : Nat → Complaint → Prop where
  /-- The first place where no piece is cut off: a character that none starts with, or the
  opener of a comment that has no closer. -/
  | fault {fragments : List (Fragment (Sign dialect))} {left : List Char} {fault : LexicalFault}
      (hcuts : (lexicon dialect).Cuts text fragments left (some fault)) :
      Located dialect text (byteLength (Fragment.textOf fragments)) (complaintOf fault)
  /-- The start of the lexeme that the reader does not take. -/
  | lexeme {taken rest : List (Lexeme (Sign dialect))} {lexeme : Lexeme (Sign dialect)}
      {cause : Cause} (hlexemes : (lexicon dialect).lexemes text = .ok (taken ++ lexeme :: rest))
      (hstops : Stops dialect (taken ++ lexeme :: rest) ⟨cause, lexeme :: rest⟩) :
      Located dialect text lexeme.span.start (complaintFor (some lexeme.text) cause)
  /-- The end of the text, where something is wanted. -/
  | ending {lexemes : List (Lexeme (Sign dialect))} {wanted : Wanted}
      (hlexemes : (lexicon dialect).lexemes text = .ok lexemes)
      (hstops : Stops dialect lexemes ⟨.unexpected wanted, []⟩) :
      Located dialect text (byteLength text) (.unexpected wanted none)
  /-- The start of a text without rules. -/
  | noRules (hrules : draftsOf dialect text = .ok []) : Located dialect text 0 .noRules
  /-- The start of the first rule that takes the name of an earlier one. -/
  | duplicate {rules before : List Draft} {rule : Draft} {span : Span}
      (hrules : draftsOf dialect text = .ok rules) (hfirst : FirstRepeat rules before rule)
      (hspan : rule.label.span = some span) :
      Located dialect text span.start (.duplicate rule.label.name)

variable {dialect : Dialect} {text : List Char} {offset : Nat} {complaint : Complaint}
  {finding : Finding}

/-! ## Boundaries -/

theorem boundary_of_slice {span : Span} {part : List Char} (h : Slice text span part) :
    Boundary text span.start := by
  have ⟨front, behind, htext, hstart, _⟩ := h
  rw [htext, ← hstart]
  exact boundary_append front (part ++ behind)

theorem boundary_of_lexeme {lexemes : List (Lexeme (Sign dialect))}
    {lexeme : Lexeme (Sign dialect)} (h : (lexicon dialect).lexemes text = .ok lexemes)
    (hmem : lexeme ∈ lexemes) : Boundary text lexeme.span.start :=
  boundary_of_slice (slice_of_lexemes h lexeme hmem)

theorem boundary_of_draft {rules : List Draft} {rule : Draft} {span : Span}
    (h : draftsOf dialect text = .ok rules) (hmem : rule ∈ rules)
    (hspan : rule.label.span = some span) : Boundary text span.start := by
  have ⟨own, hown, part, hslice, _⟩ := exists_draftsOf_slice h hmem
  have hsame : own = span := Option.some.inj (hown.symm.trans hspan)
  rw [← hsame]
  exact boundary_of_slice hslice

theorem Located.boundary (h : Located dialect text offset complaint) : Boundary text offset := by
  cases h with
  | fault hcuts =>
      rw [hcuts.text_eq]
      exact boundary_append _ _
  | @lexeme taken rest lexeme cause hlexemes =>
      exact boundary_of_lexeme hlexemes (List.mem_append_right taken List.mem_cons_self)
  | ending => exact boundary_byteLength text
  | noRules => exact boundary_zero text
  | duplicate hrules hfirst hspan => exact boundary_of_draft hrules hfirst.mem hspan

/-! ## What is found is located -/

theorem located_of_lexemes_error {fault : Nat × LexicalFault}
    (h : (lexicon dialect).lexemes text = .error fault) :
    Located dialect text (Finding.ofLexicalFault fault).offset
      (Finding.ofLexicalFault fault).complaint := by
  have ⟨fragments, left, fault?, hcuts, _⟩ := (clear dialect).exists_cuts 0 text
  have houtcome := (clear dialect).lexemes_eq hcuts
  rw [h] at houtcome
  cases fault? with
  | none => exact nomatch houtcome
  | some found =>
      have hfault : fault = (0 + byteLength (Fragment.textOf fragments), found) :=
        Except.error.inj houtcome
      rw [hfault, Nat.zero_add]
      cases found with
      | unexpectedCharacter => exact .fault hcuts
      | unterminatedComment => exact .fault hcuts

theorem Stops.cases {lexemes : List (Lexeme (Sign dialect))} {failure : Failure (Sign dialect)}
    (h : Stops dialect lexemes failure) :
    (∃ taken, lexemes = taken ++ failure.rest) ∧
      (failure.rest = [] → ∃ wanted, failure.cause = .unexpected wanted) := by
  cases dialect with
  | bnf => exact Bnf.endsWanting.stops h
  | w3c => exact (W3c.endsWanting _).stops h
  | iso => exact (Iso.endsWanting _).stops h

theorem located_of_stops {lexemes : List (Lexeme (Sign dialect))}
    {failure : Failure (Sign dialect)} (hlexemes : (lexicon dialect).lexemes text = .ok lexemes)
    (hstops : Stops dialect lexemes failure) :
    Located dialect text (Finding.ofFailure (byteLength text) failure).offset
      (Finding.ofFailure (byteLength text) failure).complaint := by
  have ⟨⟨taken, hsplit⟩, hending⟩ := hstops.cases
  have ⟨cause, rest⟩ := failure
  cases rest with
  | nil =>
      have ⟨wanted, hwanted⟩ := hending rfl
      have hcause : cause = .unexpected wanted := hwanted
      subst hcause
      exact .ending hlexemes hstops
  | cons lexeme rest =>
      have htaken : lexemes = taken ++ lexeme :: rest := hsplit
      subst htaken
      cases cause with
      | unexpected => exact .lexeme hlexemes hstops
      | tooDeep => exact .lexeme hlexemes hstops

theorem drafts_eq_error_iff {τ σ δ : Type} {lexicon : Lexicon τ} {reader : Reader τ σ (List δ)}
    {draft : δ → Draft} :
    drafts lexicon reader draft text = .error finding ↔
      (∃ fault, lexicon.lexemes text = .error fault ∧ finding = .ofLexicalFault fault) ∨
      ∃ lexemes, lexicon.lexemes text = .ok lexemes ∧
        ∃ failure, reader.read lexemes = .error failure ∧
          finding = .ofFailure (byteLength text) failure := by
  unfold drafts
  cases lexicon.lexemes text with
  | error fault => simp [eq_comm]
  | ok lexemes =>
      cases hread : reader.read lexemes <;> simp [hread, eq_comm]

/-- The rules of a text are not found where it is not cut or where its reader stops. -/
theorem draftsOf_eq_error_iff :
    draftsOf dialect text = .error finding ↔
      (∃ fault, (lexicon dialect).lexemes text = .error fault ∧
        finding = .ofLexicalFault fault) ∨
      ∃ lexemes, (lexicon dialect).lexemes text = .ok lexemes ∧
        ∃ failure, Stops dialect lexemes failure ∧
          finding = .ofFailure (byteLength text) failure := by
  cases dialect with
  | bnf => exact drafts_eq_error_iff
  | w3c => exact drafts_eq_error_iff
  | iso => exact drafts_eq_error_iff

theorem located_of_find_error (h : find dialect text = .error finding) :
    Located dialect text finding.offset finding.complaint := by
  rcases find_eq_error_iff.mp h with hdrafts | ⟨rules, hrules, hcollect⟩
  · rcases draftsOf_eq_error_iff.mp hdrafts with
      ⟨fault, hfault, hfinding⟩ | ⟨lexemes, hlexemes, failure, hstops, hfinding⟩
    · rw [hfinding]
      exact located_of_lexemes_error hfault
    · rw [hfinding]
      exact located_of_stops hlexemes hstops
  · rcases collect_eq_error_iff.mp hcollect with
      ⟨hnone, hfinding⟩ | ⟨before, rule, hfirst, hfinding⟩
    · rw [hnone] at hrules
      rw [hfinding]
      exact .noRules hrules
    · have ⟨span, hspan, _⟩ := exists_draftsOf_slice hrules hfirst.mem
      rw [hfinding, hspan]
      exact .duplicate hrules hfirst hspan

/-- Places go up from boundary to boundary, and those of rejections are the places of
boundaries: so line and column determine what is at fault. -/
theorem rejections_located :
    (∀ text : List Char, Position.Chart text) ∧
    ∀ (dialect : Dialect) (source : String) (rejection : Rejection),
      read dialect source = .error rejection →
      ∃ offset, find dialect source.toList = .error ⟨offset, rejection.complaint⟩ ∧
        Located dialect source.toList offset rejection.complaint ∧
        Boundary source.toList offset ∧ offset ≤ byteLength source.toList ∧
        rejection.position = Position.ofOffset source.toList offset ∧
        ∀ other, Boundary source.toList other →
          Position.ofOffset source.toList other = rejection.position → other = offset := by
  refine ⟨Position.chart, ?_⟩
  intro dialect source rejection h
  have ⟨offset, hfind, hrejection⟩ := read_eq_error_iff.mp h
  have hlocated := located_of_find_error hfind
  have hboundary := hlocated.boundary
  have hposition : rejection.position = Position.ofOffset source.toList offset :=
    congrArg Rejection.position hrejection
  refine ⟨offset, hfind, hlocated, hboundary, hboundary.le_byteLength, hposition, ?_⟩
  intro other hother hsame
  apply Position.ofOffset_inj hother hboundary
  rw [hsame, hposition]

/-- A rule whose literal goes on in a second line, and a parenthesis that nothing opens. -/
def strayText : String :=
  "a ::= \"é\n\" )"

def strayLexemes : List (Lexeme W3c.Sign) :=
  [⟨.name "a", "a", ⟨0, 1⟩⟩, ⟨.define, "::=", ⟨2, 5⟩⟩, ⟨.literal "é\n", "\"é\n\"", ⟨6, 11⟩⟩,
    ⟨.closing, ")", ⟨12, 13⟩⟩]

theorem lexemes_stray : W3c.lexicon.lexemes strayText.toList = .ok strayLexemes := by
  decide +kernel

theorem find_stray :
    find .w3c strayText.toList = .error ⟨12, .unexpected .ruleName (some ")")⟩ := by
  apply find_eq_error_iff.mpr
  left
  apply draftsOf_eq_error_iff.mpr
  right
  exact ⟨strayLexemes, lexemes_stray, ⟨.unexpected .ruleName, strayLexemes.drop 3⟩, rfl, rfl⟩

/-- The parenthesis is the third character behind the line feed, with twelve bytes before it. -/
theorem rejections_located_stray :
    read .w3c strayText = .error ⟨.w3c, ⟨2, 3⟩, .unexpected .ruleName (some ")")⟩ ∧
      Located .w3c strayText.toList 12 (.unexpected .ruleName (some ")")) ∧
      Boundary strayText.toList 12 ∧
      ∀ other, Boundary strayText.toList other →
        Position.ofOffset strayText.toList other = ⟨2, 3⟩ → other = 12 := by
  have hread : read .w3c strayText = .error ⟨.w3c, ⟨2, 3⟩, .unexpected .ruleName (some ")")⟩ := by
    have hplace : Position.ofOffset strayText.toList 12 = ⟨2, 3⟩ := by decide +kernel
    rw [read_of_find_error find_stray, hplace]
  have ⟨offset, hfind, hlocated, hboundary, _, _, hunique⟩ :=
    rejections_located.2 .w3c strayText _ hread
  have hoffset : 12 = offset :=
    congrArg Finding.offset (Except.error.inj (find_stray.symm.trans hfind))
  subst hoffset
  exact ⟨hread, hlocated, hboundary, hunique⟩

end Grammar

end GrammarTable
