import GrammarTable.Proofs.Text.Folded
import GrammarTable.Settings.Basic

/-!
# Settings in order

Which symbols, output files and words for a dialect are in order, said without the checks.
Settings are accepted exactly when all three are, and otherwise the fault is that of the first
that is not.
-/

namespace GrammarTable.Settings

open Text

variable {name path : String} {fault : Fault}

/-! ## Symbols -/

/-- Letters, digits and underscores, without a digit in front. -/
structure Shaped (name : String) : Prop where
  word : ∀ c ∈ name.toList, IsLetter c ∨ IsDigit c ∨ c = '_'
  start : ∀ c ∈ name.toList.head?, ¬ IsDigit c

structure ValidSymbol (name : String) : Prop where
  nonempty : name ≠ ""
  shaped : Shaped name
  not_reserved : name ∉ reservedWords

/-- The first that is wrong with a name. -/
inductive SymbolFault (name : String) : Fault → Prop where
  | empty (h : name = "") : SymbolFault name .emptySymbol
  | shape (hne : name ≠ "") (h : ¬ Shaped name) : SymbolFault name (.invalidSymbol name)
  | reserved (hne : name ≠ "") (hshaped : Shaped name) (h : name ∈ reservedWords) :
      SymbolFault name (.reservedSymbol name)

theorem isWordStart_iff_isWordPart {c : Char} :
    isWordStart c = true ↔ (IsLetter c ∨ IsDigit c ∨ c = '_') ∧ ¬ IsDigit c := by
  have hunderscore : c = '_' → ¬ IsDigit c := by
    intro hc
    rw [hc]
    unfold IsDigit
    decide
  have hletter : IsLetter c → ¬ IsDigit c := by
    unfold IsLetter IsCapital IsDigit
    omega
  rw [isWordStart_iff]
  tauto

theorem isIdentifier_iff : isIdentifier name.toList = true ↔ name ≠ "" ∧ Shaped name := by
  have hshaped : Shaped name ↔ (∀ c ∈ name.toList, IsLetter c ∨ IsDigit c ∨ c = '_') ∧
      ∀ c ∈ name.toList.head?, ¬ IsDigit c :=
    ⟨fun ⟨word, start⟩ => ⟨word, start⟩, fun ⟨word, start⟩ => ⟨word, start⟩⟩
  rw [hshaped, ne_eq, ← String.toList_eq_nil_iff]
  cases name.toList with
  | nil => simp [isIdentifier]
  | cons first rest =>
      rw [isIdentifier, Bool.and_eq_true, isWordStart_iff_isWordPart, List.all_eq_true]
      simp only [isWordPart_iff, List.forall_mem_cons, List.head?_cons, Option.mem_def,
        Option.some.injEq, forall_eq', reduceCtorEq, not_false_iff, true_and]
      tauto

theorem Symbol.ofString_eq_ok_iff {symbol : Symbol} :
    Symbol.ofString name = .ok symbol ↔ ValidSymbol name ∧ symbol.name = name := by
  constructor
  · intro h
    unfold Symbol.ofString at h
    split at h
    · exact nomatch h
    · split at h
      · split at h
        · exact nomatch h
        · next hne hidentifier hreserved =>
            have hshaped := (isIdentifier_iff.mp hidentifier).2
            cases h
            exact ⟨⟨hne, hshaped, hreserved⟩, rfl⟩
      · exact nomatch h
  · intro ⟨⟨hne, hshaped, hreserved⟩, hname⟩
    have hidentifier := isIdentifier_iff.mpr ⟨hne, hshaped⟩
    cases symbol
    cases hname
    unfold Symbol.ofString
    rw [if_neg hne, dif_pos hidentifier, dif_neg hreserved]

theorem Symbol.ofString_eq_error_iff :
    Symbol.ofString name = .error fault ↔ SymbolFault name fault := by
  constructor
  · intro h
    unfold Symbol.ofString at h
    split at h
    · next hempty =>
        cases h
        exact .empty hempty
    · split at h
      · split at h
        · next hne hidentifier hreserved =>
            cases h
            exact .reserved hne (isIdentifier_iff.mp hidentifier).2 hreserved
        · exact nomatch h
      · next hne hidentifier =>
          cases h
          exact .shape hne fun hshaped => hidentifier (isIdentifier_iff.mpr ⟨hne, hshaped⟩)
  · intro h
    unfold Symbol.ofString
    cases h with
    | empty hempty => rw [if_pos hempty]
    | shape hne hshaped =>
        have hidentifier : ¬ isIdentifier name.toList = true :=
          fun h => hshaped (isIdentifier_iff.mp h).2
        rw [if_neg hne, dif_neg hidentifier]
    | reserved hne hshaped hreserved =>
        have hidentifier := isIdentifier_iff.mpr ⟨hne, hshaped⟩
        rw [if_neg hne, dif_pos hidentifier, dif_pos hreserved]

theorem Symbol.valid (symbol : Symbol) : ValidSymbol symbol.name := by
  have ⟨hne, hshaped⟩ := isIdentifier_iff.mp symbol.isIdentifier_name
  exact ⟨hne, hshaped, symbol.name_not_reserved⟩

theorem ValidSymbol.exists_symbol (h : ValidSymbol name) :
    ∃ symbol : Symbol, symbol.name = name :=
  ⟨⟨name, isIdentifier_iff.mpr ⟨h.nonempty, h.shaped⟩, h.not_reserved⟩, rfl⟩

/-! ## Output files -/

def Target.extensions : Target → List String
  | .typed => ["ts", "tsx"]
  | .untyped => ["js", "mjs"]

/-- An output file has an extension of the flavour, up to the case of ASCII letters. -/
def Target.Fits (target : Target) (path : String) : Prop :=
  ∃ extension, Path.extension? path = some extension ∧
    ∃ word ∈ target.extensions, SameLetters extension word

theorem Target.ofExtension?_eq_some_iff {extension : String} {target : Target} :
    Target.ofExtension? extension = some target ↔
      ∃ word ∈ target.extensions, SameLetters extension word := by
  have hts : lower extension = "ts" ↔ SameLetters extension "ts" := lower_eq_iff rfl
  have htsx : lower extension = "tsx" ↔ SameLetters extension "tsx" := lower_eq_iff rfl
  have hjs : lower extension = "js" ↔ SameLetters extension "js" := lower_eq_iff rfl
  have hmjs : lower extension = "mjs" ↔ SameLetters extension "mjs" := lower_eq_iff rfl
  have htyped : (∃ word ∈ Target.typed.extensions, SameLetters extension word) ↔
      lower extension = "ts" ∨ lower extension = "tsx" := by
    simp [Target.extensions, hts, htsx]
  have huntyped : (∃ word ∈ Target.untyped.extensions, SameLetters extension word) ↔
      lower extension = "js" ∨ lower extension = "mjs" := by
    simp [Target.extensions, hjs, hmjs]
  unfold Target.ofExtension?
  cases target with
  | typed =>
      rw [htyped]
      grind
  | untyped =>
      rw [huntyped]
      grind

theorem Target.ofPath_eq_ok_iff {target : Target} :
    Target.ofPath path = .ok target ↔ target.Fits path := by
  have hfits : target.Fits path ↔
      (Path.extension? path).bind Target.ofExtension? = some target := by
    rw [Option.bind_eq_some_iff]
    simp only [Target.ofExtension?_eq_some_iff]
    rfl
  rw [hfits, Target.ofPath]
  cases (Path.extension? path).bind Target.ofExtension? <;> simp

theorem Target.ofPath_eq_error_iff :
    Target.ofPath path = .error fault ↔
      (∀ target : Target, ¬ target.Fits path) ∧ fault = .unsupportedOutput path := by
  simp only [← Target.ofPath_eq_ok_iff]
  unfold Target.ofPath
  cases (Path.extension? path).bind Target.ofExtension? with
  | none => simp [eq_comm]
  | some target => simp

/-- An extension belongs to one flavour only. -/
theorem Target.Fits.unique {target other : Target} (h : target.Fits path)
    (hother : other.Fits path) : target = other := by
  rw [← Target.ofPath_eq_ok_iff] at h hother
  rw [h] at hother
  exact Except.ok.inj hother

theorem Target.Fits.typed_iff {target : Target} (h : target.Fits path) :
    target = .typed ↔ Target.typed.Fits path := by
  constructor
  · intro htyped
    rw [← htyped]
    exact h
  · exact h.unique

/-! ## Dialects -/

/-- The dialect that a setting names: the ISO style where nothing is set but blanks, else the
dialect of the word, with blanks around it and with letters of any case. -/
inductive Names : Option String → Dialect → Prop where
  | absent : Names none .iso
  | blank {text : String} (h : Trimmed text "") : Names (some text) .iso
  | word {text core : String} {dialect : Dialect} (htrim : Trimmed text core)
      (h : SameLetters core dialect.word) : Names (some text) dialect

theorem Dialect.ofWord?_eq_some_iff {text : String} {dialect : Dialect} :
    Dialect.ofWord? text = some dialect ↔ SameLetters (trim text) dialect.word := by
  apply find?_word_eq_some_iff
  case hknown => cases dialect <;> decide
  case hsmall => cases dialect <;> rfl
  case hwords =>
    intro other h
    cases other <;> cases dialect <;> first | rfl | exact nomatch h

theorem Dialect.ofWord_trim_eq_ok_iff {text : String} {dialect : Dialect} :
    Dialect.ofWord (trim text) = .ok dialect ↔ SameLetters (trim text) dialect.word := by
  have hword : Dialect.ofWord? (trim text) = some dialect ↔
      SameLetters (trim text) dialect.word := by
    rw [Dialect.ofWord?_eq_some_iff, trim_trim]
  rw [← hword, Dialect.ofWord]
  cases Dialect.ofWord? (trim text) <;> simp

theorem Dialect.ofWord_eq_error_iff {text : String} :
    Dialect.ofWord text = .error fault ↔
      (∀ dialect, Dialect.ofWord text ≠ .ok dialect) ∧ fault = .unknownDialect text := by
  unfold Dialect.ofWord
  cases Dialect.ofWord? text with
  | none => simp [eq_comm]
  | some dialect => simp

/-- A setting of nothing but blanks names the ISO style, and any other setting what its word
names. -/
theorem names_some_iff {text : String} {dialect : Dialect} :
    Names (some text) dialect ↔
      if trim text = "" then dialect = .iso else SameLetters (trim text) dialect.word := by
  split
  · next hblank =>
      constructor
      · intro h
        cases h with
        | blank => rfl
        | word htrim hsame =>
            rw [← trim_eq_iff.mpr htrim, hblank] at hsame
            cases dialect <;> cases hsame
      · intro h
        rw [h]
        exact .blank (trim_eq_iff.mp hblank)
  · next hword =>
      constructor
      · intro h
        cases h with
        | blank htrim => exact absurd (trim_eq_iff.mpr htrim) hword
        | word htrim hsame =>
            rw [trim_eq_iff.mpr htrim]
            exact hsame
      · exact .word (trim_eq_iff.mp rfl)

theorem Dialect.resolve_eq_ok_iff {setting : Option String} {dialect : Dialect} :
    Dialect.resolve setting = .ok dialect ↔ Names setting dialect := by
  cases setting with
  | none =>
      constructor
      · intro h
        cases h
        exact .absent
      · intro h
        cases h
        rfl
  | some text =>
      rw [names_some_iff, Dialect.resolve]
      split
      · rw [Except.ok.injEq, eq_comm]
      · exact Dialect.ofWord_trim_eq_ok_iff

/-- A setting that names no dialect has a word, and the fault carries it. -/
theorem Dialect.resolve_eq_error_iff {setting : Option String} :
    Dialect.resolve setting = .error fault ↔
      (∀ dialect, ¬ Names setting dialect) ∧
        ∃ text core, setting = some text ∧ Trimmed text core ∧ fault = .unknownDialect core := by
  simp only [← Dialect.resolve_eq_ok_iff]
  cases setting with
  | none => simp [Dialect.resolve]
  | some text =>
      have hcore : (∃ given core, some text = some given ∧ Trimmed given core ∧
          fault = .unknownDialect core) ↔ fault = .unknownDialect (trim text) := by
        simp [← trim_eq_iff]
      rw [hcore, Dialect.resolve]
      split
      · simp
      · exact Dialect.ofWord_eq_error_iff

/-! ## Checks in a row -/

section Checks

variable {α β : Type} {first : Except Fault α} {next : α → Except Fault β} {result : β}

theorem bind_eq_ok_iff :
    (first >>= next) = .ok result ↔ ∃ value, first = .ok value ∧ next value = .ok result := by
  cases first <;> simp [bind, Except.bind]

theorem bind_eq_error_iff :
    (first >>= next) = .error fault ↔
      first = .error fault ∨ ∃ value, first = .ok value ∧ next value = .error fault := by
  cases first <;> simp [bind, Except.bind]

end Checks

/-! ## Exports -/

theorem Export.withTarget_eq_ok_iff {target : Target} {declaration : Export} :
    Export.withTarget name target = .ok declaration ↔
      ValidSymbol name ∧ declaration.symbol.name = name ∧ declaration.target = target := by
  rw [← and_assoc, ← Symbol.ofString_eq_ok_iff]
  constructor
  · intro h
    have ⟨symbol, hsymbol, hdeclaration⟩ := bind_eq_ok_iff.mp h
    cases hdeclaration
    exact ⟨hsymbol, rfl⟩
  · intro ⟨hsymbol, htarget⟩
    rw [← htarget]
    exact bind_eq_ok_iff.mpr ⟨_, hsymbol, rfl⟩

theorem Export.forOutput_eq_ok_iff {declaration : Export} :
    Export.forOutput name path = .ok declaration ↔
      ValidSymbol name ∧ declaration.symbol.name = name ∧ declaration.target.Fits path := by
  rw [← and_assoc, ← Symbol.ofString_eq_ok_iff, ← Target.ofPath_eq_ok_iff]
  constructor
  · intro h
    have ⟨symbol, hsymbol, hlater⟩ := bind_eq_ok_iff.mp h
    have ⟨target, htarget, hdeclaration⟩ := bind_eq_ok_iff.mp hlater
    cases hdeclaration
    exact ⟨hsymbol, htarget⟩
  · intro ⟨hsymbol, htarget⟩
    exact bind_eq_ok_iff.mpr ⟨_, hsymbol, bind_eq_ok_iff.mpr ⟨_, htarget, rfl⟩⟩

theorem Export.forOutput_eq_error_iff :
    Export.forOutput name path = .error fault ↔
      SymbolFault name fault ∨
        ValidSymbol name ∧ (∀ target : Target, ¬ target.Fits path) ∧
          fault = .unsupportedOutput path := by
  rw [← Symbol.ofString_eq_error_iff, ← Target.ofPath_eq_error_iff]
  constructor
  · intro h
    cases bind_eq_error_iff.mp h with
    | inl hsymbol => exact .inl hsymbol
    | inr hlater =>
        have ⟨symbol, hsymbol, htarget⟩ := hlater
        have hvalid : ValidSymbol name := (Symbol.ofString_eq_ok_iff.mp hsymbol).1
        cases bind_eq_error_iff.mp htarget with
        | inl hfault => exact .inr ⟨hvalid, hfault⟩
        | inr hnone =>
            have ⟨_, _, hdone⟩ := hnone
            exact nomatch hdone
  · intro h
    cases h with
    | inl hsymbol => exact bind_eq_error_iff.mpr (.inl hsymbol)
    | inr hlater =>
        have ⟨hvalid, htarget⟩ := hlater
        have ⟨symbol, hname⟩ := hvalid.exists_symbol
        have hsymbol := Symbol.ofString_eq_ok_iff.mpr ⟨hvalid, hname⟩
        exact bind_eq_error_iff.mpr (.inr ⟨_, hsymbol, bind_eq_error_iff.mpr (.inl htarget)⟩)

/-! ## Settings of a run -/

/-- The first that is wrong with the settings of a run: the symbol is looked at before the
output file, and that before the dialect. -/
inductive FirstFault (output : String) (dialect symbol : Option String) : Fault → Prop where
  | symbol {fault : Fault} (h : SymbolFault (symbol.getD "rules") fault) :
      FirstFault output dialect symbol fault
  | output (hsymbol : ValidSymbol (symbol.getD "rules"))
      (h : ∀ target : Target, ¬ target.Fits output) :
      FirstFault output dialect symbol (.unsupportedOutput output)
  | dialect {target : Target} {text core : String} (hsymbol : ValidSymbol (symbol.getD "rules"))
      (houtput : target.Fits output) (hgiven : dialect = some text) (htrim : Trimmed text core)
      (h : ∀ other, ¬ Names dialect other) :
      FirstFault output dialect symbol (.unknownDialect core)

/-- Settings hold what was given, the flavour of the output file and the dialect that was
named. -/
structure Holds (input output : String) (dialect symbol : Option String) (embed : Bool)
    (settings : Settings) : Prop where
  input_eq : settings.input = input
  output_eq : settings.output = output
  embed_eq : settings.embed = embed
  symbol_eq : settings.declaration.symbol.name = symbol.getD "rules"
  typed_iff : settings.declaration.target = .typed ↔ Target.typed.Fits output
  fits : settings.declaration.target.Fits output
  names : Names dialect settings.dialect

section Run

variable {input output : String} {dialect symbol : Option String} {embed : Bool}

theorem resolve_eq_ok_iff {settings : Settings} :
    resolve input output dialect symbol embed = .ok settings ↔
      ValidSymbol (symbol.getD "rules") ∧ Holds input output dialect symbol embed settings := by
  constructor
  · intro h
    have ⟨declaration, hexport, hlater⟩ := bind_eq_ok_iff.mp h
    have ⟨named, hdialect, hsettings⟩ := bind_eq_ok_iff.mp hlater
    have ⟨hvalid, hsymbol, hfits⟩ := Export.forOutput_eq_ok_iff.mp hexport
    have hnames := Dialect.resolve_eq_ok_iff.mp hdialect
    cases hsettings
    exact ⟨hvalid, rfl, rfl, rfl, hsymbol, hfits.typed_iff, hfits, hnames⟩
  · intro ⟨hvalid, h⟩
    have hexport : Export.forOutput (symbol.getD "rules") output = .ok settings.declaration :=
      Export.forOutput_eq_ok_iff.mpr ⟨hvalid, h.symbol_eq, h.fits⟩
    have hdialect : Dialect.resolve dialect = .ok settings.dialect :=
      Dialect.resolve_eq_ok_iff.mpr h.names
    have hsettings : settings = ⟨input, output, settings.dialect, settings.declaration, embed⟩ := by
      rw [← h.input_eq, ← h.output_eq, ← h.embed_eq]
    rw [hsettings]
    exact bind_eq_ok_iff.mpr ⟨_, hexport, bind_eq_ok_iff.mpr ⟨_, hdialect, rfl⟩⟩

theorem resolve_eq_error_iff {fault : Fault} :
    resolve input output dialect symbol embed = .error fault ↔
      FirstFault output dialect symbol fault := by
  constructor
  · intro h
    cases bind_eq_error_iff.mp h with
    | inl hexport =>
        cases Export.forOutput_eq_error_iff.mp hexport with
        | inl hsymbol => exact .symbol hsymbol
        | inr houtput =>
            have ⟨hvalid, hnone, hfault⟩ := houtput
            rw [hfault]
            exact .output hvalid hnone
    | inr hlater =>
        have ⟨declaration, hexport, hdialect⟩ := hlater
        have ⟨hvalid, _, hfits⟩ := Export.forOutput_eq_ok_iff.mp hexport
        cases bind_eq_error_iff.mp hdialect with
        | inl hunknown =>
            have ⟨hnone, text, core, hgiven, htrim, hfault⟩ :=
              Dialect.resolve_eq_error_iff.mp hunknown
            rw [hfault]
            exact .dialect hvalid hfits hgiven htrim hnone
        | inr hnone =>
            have ⟨_, _, hdone⟩ := hnone
            exact nomatch hdone
  · intro h
    cases h with
    | symbol hsymbol =>
        have hexport : Export.forOutput (symbol.getD "rules") output = .error fault :=
          Export.forOutput_eq_error_iff.mpr (.inl hsymbol)
        exact bind_eq_error_iff.mpr (.inl hexport)
    | output hvalid hnone =>
        have hexport := Export.forOutput_eq_error_iff.mpr (.inr ⟨hvalid, hnone, rfl⟩)
        exact bind_eq_error_iff.mpr (.inl hexport)
    | @dialect target text core hvalid hfits hgiven htrim hnone =>
        have ⟨declared, hdeclared⟩ := hvalid.exists_symbol
        have hexport : Export.forOutput (symbol.getD "rules") output = .ok ⟨declared, target⟩ :=
          Export.forOutput_eq_ok_iff.mpr ⟨hvalid, hdeclared, hfits⟩
        have hdialect : Dialect.resolve dialect = .error (.unknownDialect core) :=
          Dialect.resolve_eq_error_iff.mpr ⟨hnone, text, core, hgiven, htrim, rfl⟩
        exact bind_eq_error_iff.mpr (.inr ⟨_, hexport, bind_eq_error_iff.mpr (.inl hdialect)⟩)

/-- Settings are accepted exactly when the symbol, the extension and the dialect are all in
order; they then hold what was given, with a type exactly for the extensions that ask for one.
Otherwise the fault is that of the first that is not. No declaration gets a name that is not a
valid symbol, whether its target is given or comes from a path. -/
theorem resolve_checks_in_order (input output : String) (dialect symbol : Option String)
    (embed : Bool) :
    ((∃ settings, resolve input output dialect symbol embed = .ok settings) ↔
      ValidSymbol (symbol.getD "rules") ∧ (∃ target : Target, target.Fits output) ∧
        ∃ named, Names dialect named) ∧
    (∀ settings, resolve input output dialect symbol embed = .ok settings ↔
      ValidSymbol (symbol.getD "rules") ∧ Holds input output dialect symbol embed settings) ∧
    (∀ fault, resolve input output dialect symbol embed = .error fault ↔
      FirstFault output dialect symbol fault) ∧
    (∀ declaration : Export, ValidSymbol declaration.symbol.name) ∧
    (∀ name target declaration, Export.withTarget name target = .ok declaration ↔
      ValidSymbol name ∧ declaration.symbol.name = name ∧ declaration.target = target) ∧
    ∀ name path declaration, Export.forOutput name path = .ok declaration ↔
      ValidSymbol name ∧ declaration.symbol.name = name ∧ declaration.target.Fits path := by
  have haccepted : (∃ settings, resolve input output dialect symbol embed = .ok settings) ↔
      ValidSymbol (symbol.getD "rules") ∧ (∃ target : Target, target.Fits output) ∧
        ∃ named, Names dialect named := by
    constructor
    · intro ⟨settings, h⟩
      have ⟨hvalid, hholds⟩ := resolve_eq_ok_iff.mp h
      exact ⟨hvalid, ⟨_, hholds.fits⟩, ⟨_, hholds.names⟩⟩
    · intro ⟨hvalid, ⟨target, hfits⟩, ⟨named, hnames⟩⟩
      have ⟨declared, hdeclared⟩ := hvalid.exists_symbol
      have hholds : Holds input output dialect symbol embed
          ⟨input, output, named, ⟨declared, target⟩, embed⟩ :=
        ⟨rfl, rfl, rfl, hdeclared, hfits.typed_iff, hfits, hnames⟩
      exact ⟨_, resolve_eq_ok_iff.mpr ⟨hvalid, hholds⟩⟩
  exact ⟨haccepted, fun _ => resolve_eq_ok_iff, fun _ => resolve_eq_error_iff,
    fun declaration => declaration.symbol.valid, fun _ _ _ => Export.withTarget_eq_ok_iff,
    fun _ _ _ => Export.forOutput_eq_ok_iff⟩

end Run

end GrammarTable.Settings
