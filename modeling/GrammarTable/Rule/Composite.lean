import GrammarTable.Rule.Draft

/-!
# Building drafts

How the parts of a rule are put together. A sequence or a choice of one part is that
part, a rule takes the items of its body as its own children, and every composite below
a rule carries the rule's name. Alternatives of a choice are marked when their leading
literal tells them apart from the others.
-/

namespace GrammarTable.Rule.Draft

open Text

def leaf (kind : Kind) (name : String) (span : Span) : Draft :=
  ⟨{ kind, name, span := some span }, []⟩

def composite (kind : Kind) (owner : String) (span : Span) (children : List Draft) :
    Draft :=
  ⟨{ kind, name := owner, span := some span }, children⟩

def sequence (owner : String) (span : Span) : List Draft → Draft
  | [item] => item
  | items => composite .sequence owner span items

/-- The literal that everything the draft matches must start with, if it is fixed. -/
def leadingLiteral : Draft → Option String
  | ⟨label, children⟩ =>
      match label.kind, children with
      | .terminal, _ => some label.name
      | .sequence, first :: _ => leadingLiteral first
      | .group, first :: _ => leadingLiteral first
      | .repetition1, first :: _ => leadingLiteral first
      | _, _ => none

/-- The draft with its uniqueness mark set or cleared. -/
def markUnique (unique : Bool) (draft : Draft) : Draft :=
  { draft with label := { draft.label with unique } }

/-- The alternatives, each marked when no other starts with its leading literal. -/
def markAlternatives (alternatives : List Draft) : List Draft :=
  let literals := alternatives.map leadingLiteral
  alternatives.map fun alternative =>
    let literal := leadingLiteral alternative
    markUnique (literal.isSome && literals.count literal == 1) alternative

def choice (owner : String) (span : Span) : List Draft → Draft
  | [alternative] => alternative
  | alternatives => composite .choice owner span (markAlternatives alternatives)

/-- A named rule. The items of a body that is a sequence become its children. -/
def rule (name : String) (span : Span) (body : Draft) : Draft :=
  composite .rule name span
    (if body.label.kind = .sequence then body.children else [body])

end GrammarTable.Rule.Draft
