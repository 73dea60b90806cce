import GrammarTable.Calendar
import GrammarTable.Files.Fault

/-!
# Access to files

What a run needs from the world around it: the text of a file, a way to replace a file as
a whole, and the time.
-/

namespace GrammarTable.Files

structure Access (m : Type → Type) where
  /-- The text of a file. -/
  read : (path : String) → m (Except Fault String)
  /-- Give a file a new text. On a fault everything stays as it was. -/
  replace : (path text : String) → m (Except Fault Unit)
  /-- The present moment. -/
  now : m Calendar.Moment

end GrammarTable.Files
