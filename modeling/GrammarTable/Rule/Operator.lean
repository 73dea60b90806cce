import GrammarTable.Rule.Kind

/-!
# Operators

The signs behind a part of a rule that say how often it occurs.
-/

namespace GrammarTable.Rule

/-- How often what stands before the sign occurs. -/
inductive Operator where
  /-- At most once. -/
  | question
  /-- Any number of times. -/
  | star
  /-- At least once. -/
  | plus
  deriving DecidableEq, Repr

def Operator.kind : Operator → Kind
  | .question => .optional
  | .star => .repetition
  | .plus => .repetition1

end GrammarTable.Rule
