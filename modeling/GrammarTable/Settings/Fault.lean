/-!
# Faults in settings

Why settings are refused, before any file is touched.
-/

namespace GrammarTable.Settings

inductive Fault where
  | unknownDialect (word : String)
  | unknownVerbosity (word : String)
  | emptySymbol
  | invalidSymbol (name : String)
  | reservedSymbol (name : String)
  | unsupportedOutput (path : String)
  deriving DecidableEq, Repr

def Fault.message : Fault → String
  | .unknownDialect word =>
      "unknown grammar dialect '" ++ word ++ "' (expected one of: bnf, w3c-ebnf, custom)"
  | .unknownVerbosity word =>
      "unknown log level '" ++ word ++ "' (expected one of: quiet, debug, verbose)"
  | .emptySymbol => "export symbol must not be empty"
  | .invalidSymbol name => "export symbol '" ++ name ++ "' is not a valid identifier"
  | .reservedSymbol name => "export symbol '" ++ name ++ "' is a reserved word"
  | .unsupportedOutput path =>
      "unsupported output file '" ++ path ++
        "' (expected a .ts, .tsx, .js or .mjs extension)"

end GrammarTable.Settings
