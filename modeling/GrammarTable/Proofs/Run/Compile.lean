import GrammarTable.Run.Compile

/-!
# What compiling gives

A grammar is compiled exactly when it is read, and then to the module of its rules.
-/

namespace GrammarTable.Run

open Calendar Grammar Settings

theorem compile_eq_error_iff {dialect : Dialect} {source : String} {declaration : Export}
    {path? : Option String} {moment : Moment} {rejection : Rejection} :
    compile dialect source declaration path? moment = .error rejection ↔
      Grammar.read dialect source = .error rejection := by
  unfold compile
  cases Grammar.read dialect source <;> simp

theorem compile_eq_ok_iff {dialect : Dialect} {source : String} {declaration : Export}
    {path? : Option String} {moment : Moment} {compiled : Compiled} :
    compile dialect source declaration path? moment = .ok compiled ↔
      Grammar.read dialect source = .ok compiled.rules ∧
        compiled.text = Table.moduleText compiled.rules.nodes declaration
          (path?.map fun path => ⟨path, source⟩) moment := by
  unfold compile
  cases Grammar.read dialect source with
  | error rejection => simp
  | ok rules =>
      obtain ⟨found, text⟩ := compiled
      simp only [Except.ok.injEq, Compiled.mk.injEq]
      constructor
      · rintro ⟨rfl, rfl⟩
        exact ⟨rfl, rfl⟩
      · rintro ⟨rfl, rfl⟩
        exact ⟨rfl, rfl⟩

end GrammarTable.Run
