import GrammarTable.CommandLine.Execute
import GrammarTable.Disk.Edit
import GrammarTable.Proofs.Disk.Paths
import GrammarTable.Proofs.Grammar.Collected
import GrammarTable.Proofs.Grammar.Script
import GrammarTable.Proofs.Run.Compile

/-!
# Stages of a command line

A command line goes through seven stages, each of which can fail on its own. The first that
fails decides how it ends, and then the disk is what it was. If none fails, nothing on the
disk is new but the output file.
-/

namespace GrammarTable

/-! ## Texts on a disk -/

namespace Disk

open Files

/-- A path leads to a file that the user may read and that holds a text. -/
def HoldsText (disk : Disk) (path text : String) : Prop :=
  ∃ place entry, disk.locate path = .ok (place, entry) ∧ entry.allows .read = true ∧
    entry.content = .file text.toUTF8

theorem fromUTF8?_eq_some_iff {bytes : ByteArray} {text : String} :
    String.fromUTF8? bytes = some text ↔ bytes = text.toUTF8 := by
  unfold String.fromUTF8?
  constructor
  · intro h
    split at h
    · obtain rfl := Option.some.inj h
      rfl
    · exact nomatch h
  · rintro rfl
    exact dif_pos text.isValidUTF8

theorem read_eq_ok_iff {disk : Disk} {path text : String} :
    disk.read path = .ok text ↔ disk.HoldsText path text := by
  constructor
  · intro h
    unfold read readBytes find at h
    cases hlocate : disk.locate path with
    | error fault => simp [hlocate, Except.map] at h
    | ok found =>
        obtain ⟨place, entry⟩ := found
        simp only [hlocate, Except.map] at h
        cases hread : entry.allows .read with
        | false => simp [hread] at h
        | true =>
            cases hcontent : entry.content with
            | directory => simp [hread, hcontent] at h
            | file bytes =>
                cases hdecoded : String.fromUTF8? bytes with
                | none => simp [hread, hcontent, hdecoded] at h
                | some decoded =>
                    obtain rfl : decoded = text := by
                      simpa [hread, hcontent, hdecoded] using h
                    rw [fromUTF8?_eq_some_iff.mp hdecoded] at hcontent
                    exact ⟨place, entry, hlocate, hread, hcontent⟩
  · rintro ⟨place, entry, hlocate, hread, hcontent⟩
    have hdecoded : String.fromUTF8? text.toUTF8 = some text := fromUTF8?_eq_some_iff.mpr rfl
    simp only [read, readBytes, find, hlocate, Except.map, hread, hcontent, Bool.not_true,
      Bool.false_eq_true, if_false, hdecoded]

end Disk

namespace CommandLine

open Calendar Files Run Settings

/-! ## Stages -/

/-- What a command line goes through once its words are in order. -/
inductive Stage where
  | verbosity
  | symbol
  | extension
  | dialect
  | input
  | grammar
  | output
  deriving DecidableEq, Repr

def Stage.all : List Stage :=
  [.verbosity, .symbol, .extension, .dialect, .input, .grammar, .output]

def Stage.isSetting : Stage → Bool
  | .verbosity | .symbol | .extension | .dialect => true
  | .input | .grammar | .output => false

def Stage.exitCode : Stage → Nat
  | .verbosity | .symbol | .extension | .dialect => 2
  | .input => 3
  | .grammar => 4
  | .output => 5

/-- A file can be made beside the output file, and renamed to it. -/
def Replaceable (disk : Disk) (path : String) : Prop :=
  (∃ parent, disk.locateParent path = .ok parent) ∧
    ∃ target, disk.locateTarget path = .ok target

inductive Stage.Fails (disk : Disk) (arguments : Arguments) : Stage → Failure → Prop where
  | verbosity {fault : Settings.Fault} (h : Verbosity.resolve arguments.log? = .error fault) :
      Fails disk arguments .verbosity (.settings fault)
  | symbol {fault : Settings.Fault}
      (h : Symbol.ofString (arguments.symbol?.getD "rules") = .error fault) :
      Fails disk arguments .symbol (.settings fault)
  | extension {fault : Settings.Fault} (h : Target.ofPath arguments.output = .error fault) :
      Fails disk arguments .extension (.settings fault)
  | dialect {fault : Settings.Fault} (h : Dialect.resolve arguments.dialect? = .error fault) :
      Fails disk arguments .dialect (.settings fault)
  | input {fault : Files.Fault} (h : ∀ text, ¬ disk.HoldsText arguments.input text)
      (hfault : disk.read arguments.input = .error fault) :
      Fails disk arguments .input (.input arguments.input fault)
  | grammar {dialect : Dialect} {text : String} {rejection : Grammar.Rejection}
      (hdialect : Dialect.resolve arguments.dialect? = .ok dialect)
      (htext : disk.HoldsText arguments.input text)
      (h : Grammar.read dialect text = .error rejection) :
      Fails disk arguments .grammar (.grammar rejection)
  | output (h : ¬ Replaceable disk arguments.output) (fault : Files.Fault) :
      Fails disk arguments .output (.output arguments.output fault)

def Stage.Passes (disk : Disk) (arguments : Arguments) (stage : Stage) : Prop :=
  ∀ failure, ¬ stage.Fails disk arguments failure

/-- A stage fails, and none before it. -/
def Stage.FailsFirst (disk : Disk) (arguments : Arguments) (stage : Stage)
    (failure : Failure) : Prop :=
  stage.Fails disk arguments failure ∧
    ∀ earlier ∈ Stage.all.takeWhile (· != stage), earlier.Passes disk arguments

/-- The module of the grammar in the input file stands where the output path leads, with the
mode of what stood there or that of a new file, and all else is as it was. -/
def Written (disk : Disk) (arguments : Arguments) (moment : Moment) (after : Disk) : Prop :=
  ∃ symbol target dialect text compiled place,
    Symbol.ofString (arguments.symbol?.getD "rules") = .ok symbol ∧
    Target.ofPath arguments.output = .ok target ∧
    Dialect.resolve arguments.dialect? = .ok dialect ∧
    disk.HoldsText arguments.input text ∧
    compile dialect text ⟨symbol, target⟩
      (if arguments.embed then some arguments.input else none) moment = .ok compiled ∧
    disk.locateTarget arguments.output = .ok place ∧
    after.home = disk.home ∧
    ∀ other, after.entry? other =
      if other = place then some ⟨.file compiled.text.toUTF8, disk.modeAt place, true⟩
      else disk.entry? other

def Reports (report : Report) (stage : Stage) (failure : Failure) : Prop :=
  report.exitCode = stage.exitCode ∧
    report.messages.getLast? = some ("error: " ++ failure.message)

/-! ## Runs on a disk -/

/-- To give back a value leaves the disk alone. -/
theorem pure_disk {result : Type} (value : result) (disk : Disk) :
    (StateT.pure value : StateM Disk result) disk = (value, disk) := rfl

theorem run_access (settings : Settings) (moment : Moment) (disk : Disk) :
    (run (Disk.access moment) settings).run disk =
      match disk.read settings.input with
      | .error fault =>
          (⟨[.reading settings.input settings.dialect], .error (.input settings.input fault)⟩,
            disk)
      | .ok source =>
          match compile settings.dialect source settings.declaration
              (if settings.embed then some settings.input else none) moment with
          | .error rejection =>
              (⟨[.reading settings.input settings.dialect], .error (.grammar rejection)⟩, disk)
          | .ok compiled =>
              let events := .reading settings.input settings.dialect ::
                compiled.events settings.dialect settings.declaration settings.embed
              match disk.replace settings.output compiled.text.toUTF8 with
              | (.error fault, after) =>
                  (⟨events, .error (.output settings.output fault)⟩, after)
              | (.ok (), after) =>
                  (⟨events ++ [.renamed settings.output,
                    .wrote settings.output compiled.text.utf8ByteSize], .ok ()⟩, after) := by
  cases hread : disk.read settings.input with
  | error fault =>
      simp only [run, Disk.access, StateT.run, bind, StateT.bind, get, getThe,
        MonadStateOf.get, StateT.get, pure, pure_disk, hread]
  | ok source =>
      dsimp only
      cases hcompile : compile settings.dialect source settings.declaration
          (if settings.embed then some settings.input else none) moment with
      | error rejection =>
          simp only [run, Disk.access, StateT.run, bind, StateT.bind, get, getThe,
            MonadStateOf.get, StateT.get, pure, pure_disk, hread, hcompile]
      | ok compiled =>
          dsimp only
          cases hreplace : disk.replace settings.output compiled.text.toUTF8 with
          | mk result after =>
              cases result <;>
                simp only [run, Disk.access, StateT.run, bind, StateT.bind, get, getThe,
                  MonadStateOf.get, StateT.get, pure, pure_disk, modifyGet,
                  MonadStateOf.modifyGet, StateT.modifyGet, hread, hcompile, hreplace]

/-- The checks of the arguments, one after the other. -/
theorem check_eq (arguments : Arguments) :
    arguments.check =
      match Verbosity.resolve arguments.log? with
      | .error fault => .error fault
      | .ok verbosity =>
          match Symbol.ofString (arguments.symbol?.getD "rules") with
          | .error fault => .error fault
          | .ok symbol =>
              match Target.ofPath arguments.output with
              | .error fault => .error fault
              | .ok target =>
                  match Dialect.resolve arguments.dialect? with
                  | .error fault => .error fault
                  | .ok dialect =>
                      .ok (verbosity, ⟨arguments.input, arguments.output, dialect,
                        ⟨symbol, target⟩, arguments.embed⟩) := by
  have hdefault : defaultSymbol = "rules" := rfl
  unfold Arguments.check Settings.resolve Export.forOutput
  rw [hdefault]
  cases Verbosity.resolve arguments.log? with
  | error fault => rfl
  | ok verbosity =>
      cases Symbol.ofString (arguments.symbol?.getD "rules") with
      | error fault => rfl
      | ok symbol =>
          cases Target.ofPath arguments.output with
          | error fault => rfl
          | ok target => cases Dialect.resolve arguments.dialect? <;> rfl

/-! ## Passing a stage -/

section Passing

variable (disk : Disk) {arguments : Arguments}

theorem passes_verbosity {verbosity : Verbosity}
    (h : Verbosity.resolve arguments.log? = .ok verbosity) :
    Stage.verbosity.Passes disk arguments := by
  intro failure hfails
  cases hfails with
  | verbosity hfault => exact nomatch h.symm.trans hfault

theorem passes_symbol {symbol : Symbol}
    (h : Symbol.ofString (arguments.symbol?.getD "rules") = .ok symbol) :
    Stage.symbol.Passes disk arguments := by
  intro failure hfails
  cases hfails with
  | symbol hfault => exact nomatch h.symm.trans hfault

theorem passes_extension {target : Target} (h : Target.ofPath arguments.output = .ok target) :
    Stage.extension.Passes disk arguments := by
  intro failure hfails
  cases hfails with
  | extension hfault => exact nomatch h.symm.trans hfault

theorem passes_dialect {dialect : Dialect}
    (h : Dialect.resolve arguments.dialect? = .ok dialect) :
    Stage.dialect.Passes disk arguments := by
  intro failure hfails
  cases hfails with
  | dialect hfault => exact nomatch h.symm.trans hfault

variable {disk}

theorem passes_input {text : String} (h : disk.read arguments.input = .ok text) :
    Stage.input.Passes disk arguments := by
  intro failure hfails
  cases hfails with
  | input _ hfault => exact nomatch h.symm.trans hfault

theorem passes_grammar {dialect : Dialect} {text : String} {rules : Rule.RuleSet}
    (hdialect : Dialect.resolve arguments.dialect? = .ok dialect)
    (htext : disk.read arguments.input = .ok text) (h : Grammar.read dialect text = .ok rules) :
    Stage.grammar.Passes disk arguments := by
  intro failure hfails
  cases hfails with
  | grammar hother hheld hrejection =>
      obtain rfl := Except.ok.inj (hdialect.symm.trans hother)
      obtain rfl := Except.ok.inj (htext.symm.trans (Disk.read_eq_ok_iff.mpr hheld))
      exact nomatch h.symm.trans hrejection

theorem passes_output (h : Replaceable disk arguments.output) :
    Stage.output.Passes disk arguments := by
  intro failure hfails
  cases hfails with
  | output hnot fault => exact hnot h

end Passing

/-! ## How a command line ends -/

/-- A command line ends with the first stage that fails, and the disk is then what it was; or
no stage fails, and the output is written. A setting fails without a look at the files. -/
def Ends (words : List String) (arguments : Arguments) (disk : Disk) (moment : Moment)
    (report : Report) (after : Disk) : Prop :=
  (∃ stage failure, stage.FailsFirst disk arguments failure ∧ Reports report stage failure ∧
    after = disk ∧
    (stage.isSetting = true →
      ∀ {m : Type → Type} [Monad m] (files : Access m), execute files words = pure report)) ∨
  ((∀ stage : Stage, stage.Passes disk arguments) ∧ report.exitCode = 0 ∧
    Written disk arguments moment after)

section Ending

variable {words : List String} {arguments : Arguments} {disk : Disk} {moment : Moment}

theorem reports_ofFailure {stage : Stage} {failure : Failure}
    (h : stage.Fails disk arguments failure) (told : List String) :
    Reports (.ofFailure told failure) stage failure := by
  refine ⟨?_, by simp [Report.ofFailure]⟩
  cases h <;> rfl

/-- A refused setting ends the command line, whatever the files are. -/
theorem ends_of_setting (hwords : Arguments.ofWords? words = some arguments)
    {fault : Settings.Fault} (hcheck : arguments.check = .error fault) {stage : Stage}
    (hfails : stage.FailsFirst disk arguments (.settings fault)) :
    ∃ report after, (execute (Disk.access moment) words).run disk = (report, after) ∧
      Ends words arguments disk moment report after := by
  have hexecute : ∀ {m : Type → Type} [Monad m] (files : Access m),
      execute files words = pure (.ofFailure [] (.settings fault)) := by
    intro m _ files
    simp only [execute, hwords, hcheck]
  refine ⟨.ofFailure [] (.settings fault), disk, ?_, .inl ?_⟩
  · rw [hexecute]
    rfl
  · exact ⟨stage, .settings fault, hfails, reports_ofFailure hfails.1 [], rfl,
      fun _ => hexecute⟩

theorem execute_of_check (hwords : Arguments.ofWords? words = some arguments)
    {verbosity : Verbosity} {settings : Settings}
    (hcheck : arguments.check = .ok (verbosity, settings)) {outcome : Outcome} {after : Disk}
    (hrun : (run (Disk.access moment) settings).run disk = (outcome, after)) :
    (execute (Disk.access moment) words).run disk =
      (.ofOutcome verbosity outcome, after) := by
  simp only [StateT.run] at hrun
  simp only [execute, hwords, hcheck, StateT.run, bind, StateT.bind, hrun, pure, pure_disk]

/-- A failure of the run behind accepted settings. -/
theorem ends_of_run (hwords : Arguments.ofWords? words = some arguments)
    {verbosity : Verbosity} {settings : Settings}
    (hcheck : arguments.check = .ok (verbosity, settings)) {events : List Event}
    {failure : Failure}
    (hrun : (run (Disk.access moment) settings).run disk = (⟨events, .error failure⟩, disk))
    {stage : Stage} (hfails : stage.FailsFirst disk arguments failure)
    (hstage : stage.isSetting = false) :
    ∃ report after, (execute (Disk.access moment) words).run disk = (report, after) ∧
      Ends words arguments disk moment report after := by
  refine ⟨_, disk, execute_of_check hwords hcheck hrun, .inl ?_⟩
  refine ⟨stage, failure, hfails, reports_ofFailure hfails.1 _, rfl, ?_⟩
  intro hsetting
  rw [hstage] at hsetting
  contradiction

/-- Behind accepted settings the stages on the disk decide. -/
theorem ends_of_settings (hwords : Arguments.ofWords? words = some arguments)
    {verbosity : Verbosity} {symbol : Symbol} {target : Target} {dialect : Dialect}
    (hverbosity : Verbosity.resolve arguments.log? = .ok verbosity)
    (hsymbol : Symbol.ofString (arguments.symbol?.getD "rules") = .ok symbol)
    (hextension : Target.ofPath arguments.output = .ok target)
    (hdialect : Dialect.resolve arguments.dialect? = .ok dialect) :
    ∃ report after, (execute (Disk.access moment) words).run disk = (report, after) ∧
      Ends words arguments disk moment report after := by
  have hcheck := check_eq arguments
  rw [hverbosity, hsymbol, hextension, hdialect] at hcheck
  dsimp only at hcheck
  have hrun := run_access ⟨arguments.input, arguments.output, dialect, ⟨symbol, target⟩,
    arguments.embed⟩ moment disk
  have pverbosity := passes_verbosity disk hverbosity
  have psymbol := passes_symbol disk hsymbol
  have pextension := passes_extension disk hextension
  have pdialect := passes_dialect disk hdialect
  cases hread : disk.read arguments.input with
  | error fault =>
      simp only [hread] at hrun
      have hnone : ∀ text, ¬ disk.HoldsText arguments.input text := fun text htext =>
        nomatch hread.symm.trans (Disk.read_eq_ok_iff.mpr htext)
      refine ends_of_run hwords hcheck hrun ⟨.input hnone hread, ?_⟩ rfl
      simp [Stage.all, pverbosity, psymbol, pextension, pdialect]
  | ok text =>
      have hheld := Disk.read_eq_ok_iff.mp hread
      have pinput := passes_input hread
      simp only [hread] at hrun
      cases hcompile : compile dialect text ⟨symbol, target⟩
          (if arguments.embed then some arguments.input else none) moment with
      | error rejection =>
          have hrejection := compile_eq_error_iff.mp hcompile
          simp only [hcompile] at hrun
          refine ends_of_run hwords hcheck hrun ⟨.grammar hdialect hheld hrejection, ?_⟩ rfl
          simp [Stage.all, pverbosity, psymbol, pextension, pdialect, pinput]
      | ok compiled =>
          obtain ⟨hrules, -⟩ := compile_eq_ok_iff.mp hcompile
          have pgrammar := passes_grammar hdialect hread hrules
          simp only [hcompile] at hrun
          by_cases hreplaceable : Replaceable disk arguments.output
          · have poutput := passes_output hreplaceable
            obtain ⟨⟨parent, hparent⟩, place, hplace⟩ := hreplaceable
            rw [Disk.replace_eq_put hparent hplace] at hrun
            refine ⟨_, _, execute_of_check hwords hcheck hrun, .inr ⟨?_, rfl, ?_⟩⟩
            · intro stage
              cases stage <;> assumption
            · exact ⟨symbol, target, dialect, text, compiled, place, hsymbol, hextension,
                hdialect, hheld, hcompile, hplace, Disk.home_put _ _ _, Disk.entry?_put _ _ _⟩
          · obtain ⟨fault, hfault⟩ :=
              Disk.replace_eq_error hreplaceable compiled.text.toUTF8
            rw [hfault] at hrun
            refine ends_of_run hwords hcheck hrun ⟨.output hreplaceable fault, ?_⟩ rfl
            simp [Stage.all, pverbosity, psymbol, pextension, pdialect, pinput, pgrammar]

end Ending

/-- The first stage that fails decides how a command line ends and leaves the disk as it is;
if none fails, the output is written. The last stage fails in particular for an output whose
parent is no directory, that is a directory, or whose path ends like that of one. -/
theorem execute_ends (words : List String) (arguments : Arguments) (disk : Disk)
    (moment : Moment) (hwords : Arguments.ofWords? words = some arguments) :
    (∃ report after, (execute (Disk.access moment) words).run disk = (report, after) ∧
      Ends words arguments disk moment report after) ∧
    (disk.isDirectory (Path.parent arguments.output) = false ∨
      disk.isDirectory arguments.output = true ∨ ['/'] <:+ arguments.output.toList ∨
      ['/', '.'] <:+ arguments.output.toList →
        ∀ fault, Stage.output.Fails disk arguments (.output arguments.output fault)) := by
  refine ⟨?_, ?_⟩
  · have hcheck := check_eq arguments
    cases hverbosity : Verbosity.resolve arguments.log? with
    | error fault =>
        rw [hverbosity] at hcheck
        refine ends_of_setting hwords hcheck ⟨Stage.Fails.verbosity hverbosity, ?_⟩
        simp [Stage.all]
    | ok verbosity =>
        have pverbosity := passes_verbosity disk hverbosity
        cases hsymbol : Symbol.ofString (arguments.symbol?.getD "rules") with
        | error fault =>
            rw [hverbosity, hsymbol] at hcheck
            refine ends_of_setting hwords hcheck ⟨.symbol hsymbol, ?_⟩
            simp [Stage.all, pverbosity]
        | ok symbol =>
            have psymbol := passes_symbol disk hsymbol
            cases hextension : Target.ofPath arguments.output with
            | error fault =>
                rw [hverbosity, hsymbol, hextension] at hcheck
                refine ends_of_setting hwords hcheck ⟨.extension hextension, ?_⟩
                simp [Stage.all, pverbosity, psymbol]
            | ok target =>
                have pextension := passes_extension disk hextension
                cases hdialect : Dialect.resolve arguments.dialect? with
                | error fault =>
                    rw [hverbosity, hsymbol, hextension, hdialect] at hcheck
                    refine ends_of_setting hwords hcheck ⟨.dialect hdialect, ?_⟩
                    simp [Stage.all, pverbosity, psymbol, pextension]
                | ok dialect =>
                    exact ends_of_settings hwords hverbosity hsymbol hextension hdialect
  · intro hrefused fault
    refine .output ?_ fault
    rintro ⟨⟨parent, hparent⟩, target, htarget⟩
    have hnot := Disk.not_final_of_locateTarget htarget
    rw [Disk.isDirectory_parent hparent, Disk.isDirectory_of_locateTarget htarget] at hrefused
    simp [hnot] at hrefused

/-! ## The end from the stages -/

section Decided

variable {words : List String} {arguments : Arguments} {disk after : Disk} {moment : Moment}
  {report : Report} {stage other : Stage} {failure failure' : Failure}

theorem Stage.before_or_behind (stage other : Stage) :
    stage = other ∨ stage ∈ Stage.all.takeWhile (· != other) ∨
      other ∈ Stage.all.takeWhile (· != stage) := by
  cases stage <;> cases other <;> decide

/-- Only one stage is the first to fail. -/
theorem Stage.FailsFirst.stage_eq (h : stage.FailsFirst disk arguments failure)
    (hother : other.FailsFirst disk arguments failure') : other = stage := by
  rcases Stage.before_or_behind other stage with heq | hearlier | hlater
  · exact heq
  · exact absurd hother.1 (h.2 other hearlier failure')
  · exact absurd h.1 (hother.2 stage hlater failure)

/-- The first stage to fail is reported. -/
theorem Ends.of_failsFirst (h : Ends words arguments disk moment report after)
    (hfirst : stage.FailsFirst disk arguments failure) :
    ∃ failure', stage.Fails disk arguments failure' ∧ Reports report stage failure' ∧
      after = disk := by
  rcases h with ⟨other, failure', hother, hreports, hafter, -⟩ | ⟨hpasses, -⟩
  · have hsame : other = stage := hfirst.stage_eq hother
    rw [hsame] at hother hreports
    exact ⟨failure', hother.1, hreports, hafter⟩
  · exact absurd hfirst.1 (hpasses stage failure)

/-- Where no stage fails, the output is written. -/
theorem Ends.of_passes (h : Ends words arguments disk moment report after)
    (hpasses : ∀ stage : Stage, stage.Passes disk arguments) :
    report.exitCode = 0 ∧ Written disk arguments moment after := by
  rcases h with ⟨stage, failure, hfirst, -⟩ | ⟨-, hcode, hwritten⟩
  · exact absurd hfirst.1 (hpasses stage failure)
  · exact ⟨hcode, hwritten⟩

/-- What is written is settled by the arguments and the disk. -/
theorem Written.entry?_eq {symbol : Symbol} {target : Target} {dialect : Dialect}
    {text : String} {rules : Rule.RuleSet} {place : Disk.Place}
    (h : Written disk arguments moment after)
    (hsymbol : Symbol.ofString (arguments.symbol?.getD "rules") = .ok symbol)
    (htarget : Target.ofPath arguments.output = .ok target)
    (hdialect : Dialect.resolve arguments.dialect? = .ok dialect)
    (htext : disk.HoldsText arguments.input text) (hrules : Grammar.read dialect text = .ok rules)
    (hplace : disk.locateTarget arguments.output = .ok place) (other : Disk.Place) :
    after.entry? other =
      if other = place then
        some ⟨.file (Table.moduleText rules.nodes ⟨symbol, target⟩
          ((if arguments.embed then some arguments.input else none).map (⟨·, text⟩))
          moment).toUTF8, disk.modeAt place, true⟩
      else disk.entry? other := by
  have ⟨symbol', target', dialect', text', compiled, place', hsymbol', htarget', hdialect', htext',
    hcompiled, hplace', _, hentry⟩ := h
  have ⟨hrules', hmodule⟩ := compile_eq_ok_iff.mp hcompiled
  obtain rfl := Except.ok.inj (hsymbol'.symm.trans hsymbol)
  obtain rfl := Except.ok.inj (htarget'.symm.trans htarget)
  obtain rfl := Except.ok.inj (hdialect'.symm.trans hdialect)
  obtain rfl := Except.ok.inj (hplace'.symm.trans hplace)
  have hsame : text' = text :=
    Except.ok.inj ((Disk.read_eq_ok_iff.mpr htext').symm.trans (Disk.read_eq_ok_iff.mpr htext))
  rw [hsame] at hrules' hmodule
  have hset : compiled.rules = rules := Except.ok.inj (hrules'.symm.trans hrules)
  rw [hset] at hmodule
  rw [hentry, hmodule]

end Decided

/-! ## A working directory -/

/-- A directory with a grammar in BNF, and an old module that is its owner's alone. -/
def workDisk : Disk :=
  ((Disk.empty ["w"]).put ["w", "g.bnf"] (Disk.newFile "<a> ::= 'x'".toUTF8)).put ["w", "r.ts"]
    { Disk.newFile .empty with mode := 0o600 }

def workRules : Rule.RuleSet where
  rules := [.composite .rule "a" ⟨0, 11⟩ [.leaf .terminal "x" ⟨8, 11⟩]]
  names_nodup := by decide

def workSymbol : Symbol :=
  ⟨"rules", by decide, by decide⟩

theorem ofString_workSymbol : Symbol.ofString "rules" = .ok workSymbol := by
  rfl

theorem read_workRules : Grammar.read .bnf "<a> ::= 'x'" = .ok workRules := by
  have hlexemes : Bnf.lexicon.lexemes "<a> ::= 'x'".toList =
      .ok [⟨.name "a", "<a>", ⟨0, 3⟩⟩, ⟨.define, "::=", ⟨4, 7⟩⟩,
        ⟨.literal "x", "'x'", ⟨8, 11⟩⟩] := by
    decide +kernel
  have hdrafts : Grammar.draftsOf .bnf "<a> ::= 'x'".toList = .ok workRules.rules :=
    Grammar.drafts_eq_ok_iff.mpr ⟨_, hlexemes, _, rfl, rfl⟩
  exact Grammar.read_eq_ok_iff_draftsOf.mpr ⟨hdrafts, List.cons_ne_nil _ _⟩

theorem holdsText_workDisk : workDisk.HoldsText "g.bnf" "<a> ::= 'x'" :=
  ⟨["w", "g.bnf"], Disk.newFile "<a> ::= 'x'".toUTF8, rfl, rfl, rfl⟩

theorem locateTarget_workDisk : workDisk.locateTarget "r.ts" = .ok ["w", "r.ts"] := by
  have hfile : ∀ entry, workDisk.entry? ["w", "r.ts"] = some entry → entry.isDirectory = false := by
    intro entry hentry
    obtain rfl := Option.some.inj hentry
    rfl
  have hholder : workDisk.locateHolder "r.ts" = .ok ["w"] := rfl
  have hstep : workDisk.step ["w"] (Path.lastName "r.ts") = .ok ["w", "r.ts"] := rfl
  exact Disk.locateTarget_eq_ok_iff.mpr
    ⟨["w"], hholder, hstep, by decide, by decide, by decide, hfile⟩

theorem locateParent_workDisk : workDisk.locateParent "r.ts" = .ok ["w"] := by
  have hrefusal : Disk.refusal? (workDisk.absolute (Path.parent "r.ts") ++ "/" ++
      Disk.temporaryForm) = none := by
    decide +kernel
  have hwalk : workDisk.walk (workDisk.start (Path.parent "r.ts"))
      (Path.names (Path.parent "r.ts") ++ ["."]) = .ok ["w"] := rfl
  have hallows : workDisk.allows ["w"] .write = true := rfl
  unfold Disk.locateParent
  simp only
  rw [hrefusal, hwalk]
  simp only [hallows, if_true]

/-- With the grammar for its input a run gets as far as the output. -/
theorem passes_workDisk {output : String} (htarget : Target.ofPath output = .ok .typed)
    {stage : Stage} (h : stage ≠ .output) :
    stage.Passes workDisk ⟨"g.bnf", output, some "bnf", none, none, false⟩ := by
  have htext := Disk.read_eq_ok_iff.mpr holdsText_workDisk
  have hverbosity : Verbosity.resolve none = .ok .quiet := rfl
  have hdialect : Dialect.resolve (some "bnf") = .ok .bnf := rfl
  cases stage with
  | verbosity => exact passes_verbosity workDisk hverbosity
  | symbol => exact passes_symbol workDisk ofString_workSymbol
  | extension => exact passes_extension workDisk htarget
  | dialect => exact passes_dialect workDisk hdialect
  | input => exact passes_input htext
  | grammar => exact passes_grammar hdialect htext read_workRules
  | output => exact absurd rfl h

theorem input_failsFirst_workDisk :
    Stage.input.FailsFirst workDisk ⟨"g.ebnf", "r.ts", none, none, none, false⟩
      (.input "g.ebnf" .missing) := by
  have hmissing : workDisk.read "g.ebnf" = .error .missing := rfl
  have hnone : ∀ text, ¬ workDisk.HoldsText "g.ebnf" text := fun text htext =>
    nomatch hmissing.symm.trans (Disk.read_eq_ok_iff.mpr htext)
  refine ⟨.input hnone hmissing, ?_⟩
  intro earlier hearlier
  have hstages : Stage.all.takeWhile (· != .input) =
      [.verbosity, .symbol, .extension, .dialect] := by decide
  simp only [hstages, List.mem_cons, List.not_mem_nil, or_false] at hearlier
  rcases hearlier with rfl | rfl | rfl | rfl
  · have hverbosity : Verbosity.resolve none = .ok .quiet := rfl
    exact passes_verbosity workDisk hverbosity
  · exact passes_symbol workDisk ofString_workSymbol
  · have htarget : Target.ofPath "r.ts" = .ok .typed := rfl
    exact passes_extension workDisk htarget
  · have hdialect : Dialect.resolve none = .ok .iso := rfl
    exact passes_dialect workDisk hdialect

/-- Without its input a run fails, and so it does for an output in a directory that is missing.
With both the module is written, under the mode of the old one. -/
theorem execute_ends_workDisk :
    (Stage.input.FailsFirst workDisk ⟨"g.ebnf", "r.ts", none, none, none, false⟩
        (.input "g.ebnf" .missing) ∧
      ∃ report, (execute (Disk.access ⟨0, 0⟩) ["g.ebnf", "r.ts"]).run workDisk =
          (report, workDisk) ∧
        report.exitCode = 3 ∧
        report.messages.getLast? = some
          "error: cannot read grammar 'g.ebnf': No such file or directory (os error 2)") ∧
    (∃ fault, Stage.output.FailsFirst workDisk
          ⟨"g.bnf", "out/r.ts", some "bnf", none, none, false⟩ (.output "out/r.ts" fault) ∧
      ∃ report, (execute (Disk.access ⟨0, 0⟩) ["g.bnf", "out/r.ts", "-d", "bnf"]).run workDisk =
          (report, workDisk) ∧
        report.exitCode = 5 ∧
        report.messages.getLast? = some ("error: cannot write 'out/r.ts': " ++ fault.words)) ∧
    ∃ report after, (execute (Disk.access ⟨0, 0⟩) ["g.bnf", "r.ts", "-d", "bnf"]).run workDisk =
        (report, after) ∧
      report.exitCode = 0 ∧
      ∀ other, after.entry? other =
        if other = ["w", "r.ts"] then
          some ⟨.file (Table.moduleText workRules.nodes ⟨workSymbol, .typed⟩ none
            ⟨0, 0⟩).toUTF8, 0o600, true⟩
        else workDisk.entry? other := by
  refine ⟨⟨input_failsFirst_workDisk, ?_⟩, ?_, ?_⟩
  · have hwords : Arguments.ofWords? ["g.ebnf", "r.ts"] =
        some ⟨"g.ebnf", "r.ts", none, none, none, false⟩ := by decide
    have ⟨⟨report, after, hexecute, hends⟩, _⟩ := execute_ends _ _ workDisk ⟨0, 0⟩ hwords
    have ⟨failure, hfails, ⟨hcode, hlast⟩, hafter⟩ :=
      hends.of_failsFirst input_failsFirst_workDisk
    rw [hafter] at hexecute
    cases hfails with
    | @input fault _ hfault =>
        have hmissing : fault = .missing := (Except.error.inj hfault).symm
        rw [hmissing] at hlast
        exact ⟨report, hexecute, hcode, hlast⟩
  · have hwords : Arguments.ofWords? ["g.bnf", "out/r.ts", "-d", "bnf"] =
        some ⟨"g.bnf", "out/r.ts", some "bnf", none, none, false⟩ := by decide
    have ⟨⟨report, after, hexecute, hends⟩, hrefused⟩ := execute_ends _ _ workDisk ⟨0, 0⟩ hwords
    have hmissing : workDisk.isDirectory (Path.parent "out/r.ts") = false := rfl
    have hearlier : ∀ earlier ∈ Stage.all.takeWhile (· != .output),
        earlier.Passes workDisk ⟨"g.bnf", "out/r.ts", some "bnf", none, none, false⟩ := by
      intro earlier hmem
      exact passes_workDisk rfl (by simpa using List.mem_takeWhile_imp hmem)
    have hfirst := fun fault => And.intro (hrefused (.inl hmissing) fault) hearlier
    have ⟨failure, hfails, ⟨hcode, hlast⟩, hafter⟩ := hends.of_failsFirst (hfirst .missing)
    rw [hafter] at hexecute
    cases hfails with
    | output _ fault => exact ⟨fault, hfirst fault, report, hexecute, hcode, hlast⟩
  · have hwords : Arguments.ofWords? ["g.bnf", "r.ts", "-d", "bnf"] =
        some ⟨"g.bnf", "r.ts", some "bnf", none, none, false⟩ := by decide
    have ⟨⟨report, after, hexecute, hends⟩, _⟩ := execute_ends _ _ workDisk ⟨0, 0⟩ hwords
    have hreplaceable : Replaceable workDisk "r.ts" :=
      ⟨⟨_, locateParent_workDisk⟩, _, locateTarget_workDisk⟩
    have hpasses : ∀ stage : Stage,
        stage.Passes workDisk ⟨"g.bnf", "r.ts", some "bnf", none, none, false⟩ := by
      intro stage
      by_cases houtput : stage = .output
      · rw [houtput]
        exact passes_output hreplaceable
      · exact passes_workDisk rfl houtput
    have ⟨hcode, hwritten⟩ := hends.of_passes hpasses
    have htarget : Target.ofPath "r.ts" = .ok .typed := rfl
    have hdialect : Dialect.resolve (some "bnf") = .ok .bnf := rfl
    have hentry := hwritten.entry?_eq ofString_workSymbol htarget hdialect holdsText_workDisk
      read_workRules locateTarget_workDisk
    exact ⟨report, after, hexecute, hcode, hentry⟩

end CommandLine

end GrammarTable
