/-!
# Kinds of rule nodes

The closed set of kinds, with the word for each that a rule table carries.
-/

namespace GrammarTable.Rule

/-- What a node of a rule stands for. -/
inductive Kind where
  /-- A named rule at the top of a grammar. -/
  | rule
  /-- A literal text. -/
  | terminal
  /-- A reference to a rule by name. -/
  | nonTerminal
  /-- A class of characters or a character number. -/
  | pattern
  /-- One child after the other. -/
  | sequence
  /-- One of the children. -/
  | choice
  /-- The child or nothing. -/
  | optional
  /-- The child any number of times. -/
  | repetition
  /-- The child at least once. -/
  | repetition1
  /-- The child, in parentheses. -/
  | group
  /-- The first child where the second does not match. -/
  | exclusion
  deriving DecidableEq, Repr, Inhabited

def Kind.word : Kind → String
  | .rule => "rule"
  | .terminal => "terminal"
  | .nonTerminal => "non_terminal"
  | .pattern => "pattern"
  | .sequence => "sequence"
  | .choice => "choice"
  | .optional => "optional"
  | .repetition => "repetition"
  | .repetition1 => "repetition1"
  | .group => "group"
  | .exclusion => "exclusion"

def Kind.all : List Kind :=
  [.rule, .terminal, .nonTerminal, .pattern, .sequence, .choice, .optional, .repetition,
    .repetition1, .group, .exclusion]

def Kind.ofWord? (word : String) : Option Kind :=
  Kind.all.find? fun kind => kind.word == word

theorem Kind.ofWord?_word (kind : Kind) : Kind.ofWord? kind.word = some kind := by
  cases kind <;> decide

end GrammarTable.Rule
