import GrammarTable.Files.Access
import GrammarTable.Run.Compile
import GrammarTable.Run.Failure
import GrammarTable.Settings.Basic

/-!
# Runs

A run reads the grammar, compiles it and replaces the output file. The first stage that
fails ends it, and only the last stage writes.
-/

namespace GrammarTable.Run

open Files

/-- How a run went: what it told, in order, and whether it failed. -/
structure Outcome where
  events : List Event
  result : Except Failure Unit

def run {m : Type → Type} [Monad m] (files : Access m) (settings : Settings) :
    m Outcome := do
  let reading := Event.reading settings.input settings.dialect
  match ← files.read settings.input with
  | .error fault => return ⟨[reading], .error (.input settings.input fault)⟩
  | .ok source =>
      let path? := if settings.embed then some settings.input else none
      match compile settings.dialect source settings.declaration path? (← files.now) with
      | .error rejection => return ⟨[reading], .error (.grammar rejection)⟩
      | .ok compiled =>
          let events :=
            reading ::
              compiled.events settings.dialect settings.declaration settings.embed
          match ← files.replace settings.output compiled.text with
          | .error fault => return ⟨events, .error (.output settings.output fault)⟩
          | .ok () =>
              return ⟨events ++
                [.renamed settings.output,
                  .wrote settings.output compiled.text.utf8ByteSize], .ok ()⟩

end GrammarTable.Run
