import GrammarTable.Grammar.Read
import GrammarTable.Run.Event
import GrammarTable.Table.Module
import GrammarTable.Tree.Measure

/-!
# Compiling a grammar

From the text of a grammar to the text of a module, without any file.
-/

namespace GrammarTable.Run

open Calendar Grammar Rule Settings Table

structure Compiled where
  rules : RuleSet
  text : String

/-- Compile a grammar. With a path the grammar text is embedded under that path. -/
def compile (dialect : Dialect) (source : String) (declaration : Export)
    (path? : Option String) (moment : Moment) : Except Rejection Compiled :=
  match Grammar.read dialect source with
  | .error rejection => .error rejection
  | .ok rules =>
      .ok ⟨rules, moduleText rules.nodes declaration
        (path?.map fun path => ⟨path, source⟩) moment⟩

def Compiled.events (compiled : Compiled) (dialect : Dialect) (declaration : Export)
    (embed : Bool) : List Event :=
  let drafts := compiled.rules.rules
  .parsed dialect drafts.length
      (drafts.foldl (fun total rule => total + rule.count) 0)
      (drafts.foldl (fun deepest rule => max deepest rule.depth) 0) ::
    .clearing drafts.length ::
      (drafts.map fun rule => .converting rule.label.name rule.count) ++
    [.emitting drafts.length declaration embed]

end GrammarTable.Run
