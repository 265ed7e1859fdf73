import Asn1.Proofs.Command
import Asn1.Proofs.Surroundings

/-!
# Runs of the command line tool

A run needs a configuration, a log file that can be extended if one is set, and a command. Without
them it fails whatever else is asked of it. It fails as well if its log file does not take all that
the command logs. How it ends otherwise is up to the command, and only a run that succeeds has
output.
-/

namespace Asn1

namespace Arguments

/-- The settings that those of the command line replace: the usual ones, or those of a configuration
file that can be read, is TOML and has no defect. -/
inductive BaseConfig (arguments : Arguments) (directory : String) (tree : FileTree) :
    Config → Prop where
  | usual : arguments.configFile? = none → BaseConfig arguments directory tree {}
  | file {path text table base} : arguments.configFile? = some path →
      tree.read (Path.join directory path) = .ok (Utf8.ofString text) →
      Toml.parse? text = some table →
      Config.ofTable (Path.directory (Path.join directory path)) table = .ok base →
      BaseConfig arguments directory tree base

/-- The settings of a run. -/
def EffectiveConfig (arguments : Arguments) (directory : String) (tree : FileTree)
    (config : Config) : Prop :=
  ∃ base, arguments.BaseConfig directory tree base ∧ config = base.replace directory arguments

/-- The path of the configuration file, and what is read there. -/
def configFileIn (arguments : Arguments) (directory : String) (tree : FileTree) :
    Option (String × Except FileError Octets) :=
  arguments.configFile?.map fun path =>
    (Path.join directory path, tree.read (Path.join directory path))

end Arguments

theorem Config.ofFile_eq_ok_iff {path : String} {content : Octets} {base : Config} :
    (∃ notices, Config.ofFile path content = .ok (base, notices)) ↔
      ∃ text table, content = Utf8.ofString text ∧ Toml.parse? text = some table ∧
        Config.ofTable (Path.directory path) table = .ok base := by
  constructor
  · rintro ⟨notices, loaded⟩
    unfold Config.ofFile at loaded
    split at loaded
    · cases loaded
    next text decoded =>
    split at loaded
    · cases loaded
    next table parsed =>
    split at loaded
    · cases loaded
    next base settings =>
    cases loaded
    exact ⟨text, table, Utf8.decode_eq_ok_iff.mp decoded, parsed, settings⟩
  · rintro ⟨text, table, isText, parsed, settings⟩
    unfold Config.ofFile
    rw [Utf8.decode_eq_ok_iff.mpr isText]
    dsimp only
    rw [parsed]
    dsimp only
    rw [settings]
    exact ⟨_, rfl⟩

namespace Arguments

variable {arguments : Arguments} {directory : String} {tree : FileTree} {config : Config}

theorem configure_eq_ok_iff :
    (∃ notices, arguments.configure directory (arguments.configFileIn directory tree) =
      .ok (config, notices)) ↔ arguments.EffectiveConfig directory tree config := by
  unfold Arguments.configure Arguments.configFileIn
  cases given : arguments.configFile? with
  | none =>
      constructor
      · rintro ⟨notices, configured⟩
        cases configured
        exact ⟨{}, .usual given, rfl⟩
      · rintro ⟨base, usual | ⟨isFile, _⟩, rfl⟩
        · exact ⟨[], rfl⟩
        · cases given.symm.trans isFile
  | some path =>
      rw [Option.map_some]
      cases found : tree.read (Path.join directory path) with
      | error error =>
          constructor
          · rintro ⟨notices, configured⟩
            cases configured
          · rintro ⟨base, usual | ⟨isFile, isRead, _⟩, rfl⟩
            · cases given.symm.trans usual
            · cases given.symm.trans isFile
              cases found.symm.trans isRead
      | ok content =>
          dsimp only
          constructor
          · rintro ⟨notices, configured⟩
            cases loaded : Config.ofFile (Path.join directory path) content with
            | error notice =>
                rw [loaded] at configured
                cases configured
            | ok base =>
                rw [loaded] at configured
                cases configured
                obtain ⟨text, table, rfl, parsed, settings⟩ :=
                  Config.ofFile_eq_ok_iff.mp ⟨_, loaded⟩
                exact ⟨base.1, .file given found parsed settings, rfl⟩
          · rintro ⟨base, usual | ⟨isFile, isRead, parsed, settings⟩, rfl⟩
            · cases given.symm.trans usual
            · cases given.symm.trans isFile
              cases found.symm.trans isRead
              obtain ⟨notices, loaded⟩ := Config.ofFile_eq_ok_iff.mpr ⟨_, _, rfl, parsed, settings⟩
              rw [loaded]
              exact ⟨notices, rfl⟩

end Arguments

/-- The place of the log file, if there is one. -/
inductive Config.LogsAt (config : Config) (tree : FileTree) : Option Place → Prop where
  | shown : config.logFile? = none → LogsAt config tree none
  | file {path place} : config.logFile? = some path → tree.filePlace path = .ok place →
      LogsAt config tree (some place)

/-- The files when the log file, if there is one, has been opened, which may have made it. -/
def FileTree.opened (tree : FileTree) (place? : Option Place) : FileTree :=
  place?.elim tree tree.touch

/-- What there is when a run has its configuration, or has none. -/
def Effects.configured (tree : FileTree) (notices : List Notice) : Effects :=
  { tree, shown := earlyLevel.admitted notices }

namespace Host

variable (around : Surroundings) (directory : String) {arguments : Arguments} {config : Config}
  {place? : Option Place} {before : Effects}

theorem configure_on :
    ((around.host directory).configure arguments).on before =
      (arguments.configure directory (arguments.configFileIn directory before.tree), before) := by
  unfold configure Arguments.configFileIn
  cases arguments.configFile? with
  | none => rfl
  | some path => rfl

theorem openLog_on (path : String) :
    ((around.host directory).openLog path).on before = around.openLog path before := rfl

theorem openLogger_on (logsAt : config.LogsAt before.tree place?) :
    ((around.host directory).openLogger config).on before =
      (.ok (around.logger config place?), { before with tree := before.tree.opened place? }) := by
  unfold openLogger Surroundings.logger
  cases logsAt with
  | shown isShown =>
      rw [isShown]
      rfl
  | file isFile isPlace =>
      rw [isFile]
      dsimp only
      rw [Steps.bind_on, Steps.adapt_on, openLog_on, Surroundings.openLog, isPlace]
      rfl

theorem openLogger_on_of_not_logsAt
    (closed : ∀ place?, ¬ config.LogsAt before.tree place?) : ∃ notice,
    ((around.host directory).openLogger config).on before = (.error notice, before) := by
  unfold openLogger
  cases isFile : config.logFile? with
  | none => exact absurd (.shown isFile) (closed none)
  | some path =>
      dsimp only
      rw [Steps.bind_on, Steps.adapt_on, openLog_on, Surroundings.openLog]
      cases isPlace : before.tree.filePlace path with
      | ok place => exact absurd (.file isFile isPlace) (closed (some place))
      | error error => exact ⟨.logUnusable path error, rfl⟩

theorem expect_on_error {Result : Type} {steps : Steps (StateM Effects) Notice Result}
    {notice : Notice} {after : Effects} (failed : steps.on before = (.error notice, after)) :
    ((around.host directory).expect steps).on before =
      (.error .failure, { after with shown := after.shown ++ earlyLevel.admitted [notice] }) := by
  rw [expect, Steps.recover_on, failed]
  dsimp only
  rw [Steps.bind_on, Surroundings.log_early_on]
  rfl

theorem expect_on_ok {Result : Type} {steps : Steps (StateM Effects) Notice Result}
    {result : Result} {after : Effects} (succeeded : steps.on before = (.ok result, after)) :
    ((around.host directory).expect steps).on before = (.ok result, after) := by
  rw [expect, Steps.recover_on, succeeded]

theorem carryOut_on_of_logsAt (arguments : Arguments) (logsAt : config.LogsAt before.tree place?) :
    ((around.host directory).carryOut config
        (arguments.located? (around.host directory).directory)).on before =
      ((around.host directory).conclude (around.logger config place?)
        (Command.outcome? (before.tree.opened place?) directory around.input config
          arguments.command?)).on { before with tree := before.tree.opened place? } := by
  have performed := Command.perform_run around directory config arguments
    { before with tree := before.tree.opened place? }
  rw [carryOut, Steps.bind_on,
    expect_on_ok around directory (openLogger_on around directory logsAt)]
  dsimp only
  rw [Steps.bind_on, Steps.lift_on, performed]

theorem carryOut_on_of_not_logsAt {command? : Option Command}
    (closed : ∀ place?, ¬ config.LogsAt before.tree place?) : ∃ notice,
    ((around.host directory).carryOut config command?).on before =
      (.error .failure, { before with shown := before.shown ++ earlyLevel.admitted [notice] }) := by
  obtain ⟨notice, failed⟩ := openLogger_on_of_not_logsAt around directory closed
  refine ⟨notice, ?_⟩
  rw [carryOut, Steps.bind_on, expect_on_error around directory failed]

theorem moves_carryOut_shown (config : Config) (arguments : Arguments) :
    ((around.host directory).carryOut config
      (arguments.located? (around.host directory).directory)).Moves (· <+: ·) Effects.shown := by
  intro before
  by_cases logsAt : ∃ place?, config.LogsAt before.tree place?
  · obtain ⟨place?, logsAt⟩ := logsAt
    rw [carryOut_on_of_logsAt around directory arguments logsAt]
    exact Surroundings.moves_conclude_shown config place? _
      { before with tree := before.tree.opened place? }
  · obtain ⟨notice, ended⟩ :=
      carryOut_on_of_not_logsAt around directory (not_exists.mp logsAt)
    rw [ended]
    exact List.prefix_append _ _

variable {tree : FileTree}

theorem steps_on {notices : List Notice}
    (configured : arguments.configure directory (arguments.configFileIn directory tree) =
      .ok (config, notices)) :
    ((around.host directory).steps arguments).on { tree } =
      ((around.host directory).carryOut config
          (arguments.located? (around.host directory).directory)).on
        (.configured tree notices) := by
  have isConfigured : ((around.host directory).configure arguments).on { tree } =
      (.ok (config, notices), { tree }) := by
    rw [configure_on, configured]
  rw [steps, Steps.bind_on, expect_on_ok around directory isConfigured]
  dsimp only
  rw [Steps.bind_on, Surroundings.log_early_on]
  rfl

theorem steps_on_of_error {notice : Notice}
    (failed : arguments.configure directory (arguments.configFileIn directory tree) =
      .error notice) :
    ((around.host directory).steps arguments).on { tree } =
      (.error .failure, .configured tree [notice]) := by
  have unconfigured : ((around.host directory).configure arguments).on { tree } =
      (.error notice, { tree }) := by
    rw [configure_on, failed]
  rw [steps, Steps.bind_on, expect_on_error around directory unconfigured]
  rfl

end Host

namespace FileTree

variable {around : Surroundings} {arguments : Arguments} {directory : String} {config : Config}
  {place? : Option Place} {tree : FileTree}

theorem report_eq {result : Except ExitError Unit} {after : Effects}
    (ended : ((around.host directory).steps arguments).on { tree } = (result, after)) :
    tree.report directory around arguments = { after with status := .ofResult result } := by
  have ran : tree.report directory around arguments =
      { (((around.host directory).steps arguments).on { tree }).2 with
        status := .ofResult (((around.host directory).steps arguments).on { tree }).1 } := rfl
  rw [ran, ended]

theorem report_of_configure_error {notice : Notice}
    (failed : arguments.configure directory (arguments.configFileIn directory tree) =
      .error notice) :
    tree.report directory around arguments =
      { tree, shown := earlyLevel.admitted [notice], status := .failure } :=
  report_eq (Host.steps_on_of_error around directory failed)

/-- What is noticed while a run is configured is shown first. -/
theorem isPrefix_shown_of_configure {notices : List Notice}
    (configured : arguments.configure directory (arguments.configFileIn directory tree) =
      .ok (config, notices)) :
    earlyLevel.admitted notices <+: (tree.report directory around arguments).shown := by
  have moved := Host.moves_carryOut_shown around directory config arguments
    (.configured tree notices)
  rw [← Host.steps_on around directory configured] at moved
  exact moved

theorem report_of_no_config
    (noConfig : ¬ ∃ config, arguments.EffectiveConfig directory tree config) :
    (tree.report directory around arguments).status = .failure ∧
      (tree.report directory around arguments).output = [] := by
  cases configured : arguments.configure directory (arguments.configFileIn directory tree) with
  | error notice =>
      rw [report_of_configure_error configured]
      exact ⟨rfl, rfl⟩
  | ok loaded =>
      have effective := Arguments.configure_eq_ok_iff.mp ⟨loaded.2, configured⟩
      exact absurd ⟨_, effective⟩ noConfig

theorem report_of_log_closed (effective : arguments.EffectiveConfig directory tree config)
    (closed : ∀ place?, ¬ config.LogsAt tree place?) :
    (tree.report directory around arguments).status = .failure ∧
      (tree.report directory around arguments).output = [] := by
  obtain ⟨notices, configured⟩ := Arguments.configure_eq_ok_iff.mpr effective
  have closed : ∀ place?, ¬ config.LogsAt (Effects.configured tree notices).tree place? := closed
  obtain ⟨notice, ended⟩ := Host.carryOut_on_of_not_logsAt around directory closed
  rw [report_eq ((Host.steps_on around directory configured).trans ended)]
  exact ⟨rfl, rfl⟩

/-- A run that has its log file concludes with what its command comes to. -/
theorem report_of_logsAt (around : Surroundings)
    (effective : arguments.EffectiveConfig directory tree config)
    (logsAt : config.LogsAt tree place?) : ∃ result,
    around.Concludes config (tree.opened place?) place?
      (Command.outcome? (tree.opened place?) directory around.input config arguments.command?)
      result (tree.report directory around arguments).output ∧
    (tree.report directory around arguments).status = .ofResult result := by
  obtain ⟨notices, configured⟩ := Arguments.configure_eq_ok_iff.mpr effective
  have logsAt : config.LogsAt (Effects.configured tree notices).tree place? := logsAt
  have carriesOut := Host.carryOut_on_of_logsAt around directory arguments logsAt
  have nothing : { Effects.configured tree notices with tree := tree.opened place? }.output = [] :=
    rfl
  obtain ⟨result, after, ended, concludes⟩ := Surroundings.conclude_on around directory config
    place? (Command.outcome? (tree.opened place?) directory around.input config
      arguments.command?) nothing
  have steps := Host.steps_on around directory configured
  rw [report_eq (steps.trans (carriesOut.trans ended))]
  exact ⟨result, concludes, rfl⟩

end FileTree

namespace Surroundings

variable {around : Surroundings} {config : Config} {tree : FileTree} {place? : Option Place}
  {outcome : Outcome} {result : Except ExitError Unit} {output : Octets}

/-- Standard output takes all that is shown. -/
structure TakesOutput (around : Surroundings) : Prop where
  unlimited : around.output.limit? = none
  passesOn : around.output.failsToFlush = false

/-- Standard output takes octets, or nobody is there to read them. -/
def CanShow (around : Surroundings) (octets : Octets) : Prop :=
  around.output.failure = .brokenPipe ∨
    octets.length ≤ around.output.limit?.getD octets.length ∧ around.output.failsToFlush = false

theorem canShow_iff {octets : Octets} {written : Except FileError Unit × Effects}
    (shows : around.outputLimits.Shows .brokenPipe octets written) :
    written.1 = .ok () ↔ around.CanShow octets := by
  have fails_iff : (∃ failure, written.1 = .error failure) ↔ ¬ around.CanShow octets := by
    rw [shows.fails_iff, CanShow, not_or, not_and_or, Nat.not_le, Bool.not_eq_false]
    rfl
  rw [← not_iff_not, ← fails_iff]
  cases written.1 with
  | ok => exact ⟨fun failed => absurd rfl failed, nofun⟩
  | error failure => exact ⟨fun _ => ⟨failure, rfl⟩, fun _ => nofun⟩

namespace Concludes

theorem success_iff (concludes : around.Concludes config tree place? outcome result output) :
    ExitStatus.ofResult result = .success ↔
      around.HasRoom tree place? (around.logged config outcome.notices) ∧
        outcome.status = .success ∧ around.CanShow (Utf8.ofString outcome.output) := by
  unfold Outcome.status Outcome.output
  cases concludes with
  | unlogged noRoom => exact ⟨nofun, fun succeeds => absurd succeeds.1 noRoom⟩
  | @stopped error _ came =>
      rw [came]
      cases error with
      | failure => exact ⟨nofun, fun succeeds => nomatch succeeds.2.1⟩
      | invalid => exact ⟨nofun, fun succeeds => nomatch succeeds.2.1⟩
  | shown hasRoom came shows =>
      rw [came]
      exact ⟨fun _ => ⟨hasRoom, rfl, (canShow_iff shows).mp rfl⟩, fun _ => rfl⟩
  | unshown _ came shows =>
      rw [came]
      exact ⟨nofun, fun succeeds => nomatch (canShow_iff shows).mpr succeeds.2.2⟩

/-- A run that can log and show all that there is ends as its command does. -/
theorem hasRoom (concludes : around.Concludes config tree place? outcome result output)
    (takesOutput : around.TakesOutput)
    (hasRoom : around.HasRoom tree place? (around.logged config outcome.notices)) :
    ExitStatus.ofResult result = outcome.status ∧ output = Utf8.ofString outcome.output := by
  unfold Outcome.status Outcome.output
  cases concludes with
  | unlogged noRoom => exact absurd hasRoom noRoom
  | stopped _ came =>
      rw [came]
      exact ⟨rfl, rfl⟩
  | shown _ came shows =>
      rw [came]
      exact ⟨rfl, (shows.all takesOutput.unlimited takesOutput.passesOn).2⟩
  | unshown _ _ shows => cases (shows.all takesOutput.unlimited takesOutput.passesOn).1

theorem failure {notice : Notice}
    (concludes : around.Concludes config tree place? (.stopped .failure notice) result output) :
    result = .error .failure := by
  cases concludes with
  | unlogged | unshown => rfl
  | stopped _ came =>
      cases came
      rfl
  | shown _ came => cases came

theorem silent (concludes : around.Concludes config tree place? outcome result output)
    (takesOutput : around.TakesOutput) (unsuccessful : ExitStatus.ofResult result ≠ .success) :
    output = [] := by
  cases concludes with
  | unlogged | stopped => rfl
  | shown => exact absurd rfl unsuccessful
  | unshown _ _ shows => cases (shows.all takesOutput.unlimited takesOutput.passesOn).1

end Concludes

end Surroundings

namespace FileTree

/-- A run stops before its command, or concludes with what its command comes to. -/
theorem stops_or_concludes (tree : FileTree) (directory : String) (around : Surroundings)
    (arguments : Arguments) :
    ((tree.report directory around arguments).status = .failure ∧
        (tree.report directory around arguments).output = []) ∨
      ∃ config place? result, arguments.EffectiveConfig directory tree config ∧
        config.LogsAt tree place? ∧
        around.Concludes config (tree.opened place?) place?
          (Command.outcome? (tree.opened place?) directory around.input config arguments.command?)
          result (tree.report directory around arguments).output ∧
        (tree.report directory around arguments).status = .ofResult result := by
  by_cases configured : ∃ config, arguments.EffectiveConfig directory tree config
  · obtain ⟨config, effective⟩ := configured
    by_cases logsAt : ∃ place?, config.LogsAt tree place?
    · obtain ⟨place?, logsAt⟩ := logsAt
      obtain ⟨result, concludes, status⟩ :=
        report_of_logsAt around effective logsAt
      exact .inr ⟨config, place?, result, effective, logsAt, concludes, status⟩
    · exact .inl (report_of_log_closed effective (not_exists.mp logsAt))
  · exact .inl (report_of_no_config configured)

/-- A run succeeds exactly if it has a configuration and a log file that takes all that is logged,
if its command succeeds, and if standard output takes what the command shows or nobody reads it. -/
theorem report_success_iff (tree : FileTree) (directory : String) (around : Surroundings)
    (arguments : Arguments) :
    (tree.report directory around arguments).status = .success ↔
      ∃ config place?, arguments.EffectiveConfig directory tree config ∧
        config.LogsAt tree place? ∧
        let opened := tree.opened place?
        let outcome := Command.outcome? opened directory around.input config arguments.command?
        around.HasRoom opened place? (around.logged config outcome.notices) ∧
          outcome.status = .success ∧ around.CanShow (Utf8.ofString outcome.output) := by
  constructor
  · intro succeeded
    rcases stops_or_concludes tree directory around arguments with
      ⟨failed, _⟩ | ⟨config, place?, result, effective, logsAt, concludes, status⟩
    · cases succeeded.symm.trans failed
    · exact ⟨config, place?, effective, logsAt, concludes.success_iff.mp (status ▸ succeeded)⟩
  · rintro ⟨config, place?, effective, logsAt, succeeds⟩
    obtain ⟨result, concludes, status⟩ := report_of_logsAt around effective logsAt
    exact status.trans (concludes.success_iff.mpr succeeds)

end FileTree

end Asn1
