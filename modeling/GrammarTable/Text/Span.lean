/-!
# Spans

A span is a range of bytes of a source text, from its first byte up to, and not
including, the byte after it.
-/

namespace GrammarTable.Text

structure Span where
  start : Nat
  stop : Nat
  deriving DecidableEq, Repr, Inhabited

def Span.to (first last : Span) : Span :=
  ⟨first.start, last.stop⟩

end GrammarTable.Text
