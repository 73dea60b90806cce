import GrammarTable.Rule.Kind
import GrammarTable.Text.Span
import GrammarTable.Tree.Map

/-!
# Drafts and nodes

A grammar is read into drafts, trees whose labels also carry the marks that mean
something only while the grammar text is at hand. A node is what remains of a draft
when the marks are gone; rule tables are made of nodes.
-/

namespace GrammarTable.Rule

open Text

/-- What a node says: its kind, and the rule name, literal text, referenced rule or
owning rule that goes with it. -/
structure Label where
  kind : Kind
  name : String
  deriving DecidableEq, Repr, Inhabited

/-- A label with the bytes it was read from and, for an alternative of a choice, whether
no other alternative starts with its literal. -/
structure MarkedLabel extends Label where
  span : Option Span := none
  unique : Bool := false
  deriving DecidableEq, Repr, Inhabited

def MarkedLabel.isBare (label : MarkedLabel) : Bool :=
  label.span.isNone && !label.unique

def MarkedLabel.bare (label : MarkedLabel) : MarkedLabel :=
  { label.toLabel with }

/-- A rule, or a part of one, as it was read. -/
abbrev Draft := Tree MarkedLabel

/-- A rule, or a part of one, as a rule table shows it. -/
abbrev Node := Tree Label

def Draft.bare (draft : Draft) : Draft :=
  Tree.map MarkedLabel.bare draft

def Draft.node (draft : Draft) : Node :=
  Tree.map MarkedLabel.toLabel draft

end GrammarTable.Rule
