import Asn1.Proofs.CommandLine
import Asn1.Proofs.Config.Settings
import Asn1.Proofs.Program
import Asn1.Proofs.Toml.Lines
import Asn1.Proofs.Toml.Table
import Mathlib.Data.String.Basic

/-!
# The layers of a configuration

Each setting is the one that the command line asks for, otherwise the one that the configuration
file has, otherwise the usual one. The file counts as a whole: a defect of a setting in it is not
made good by the command line.
-/

namespace Asn1

namespace Config

/-- What is asked for, otherwise what is written, otherwise what is usual. -/
def layered {α : Type} (asked? written? : Option α) (usual : α) : α :=
  (asked?.or written?).getD usual

theorem getD_getD_eq_layered {α : Type} (asked? written? : Option α) (usual : α) :
    asked?.getD (written?.getD usual) = layered asked? written? usual := by
  cases asked? with
  | none => rfl
  | some asked => rfl

theorem not_mem_keys_iff {key : String} :
    key ∉ keys ↔ ∀ setting : Setting, key ≠ setting.key := by
  rw [Setting.keys_eq, List.mem_map]
  constructor
  · rintro unknown setting rfl
    exact unknown ⟨setting, setting.mem_all, rfl⟩
  · rintro unknown ⟨setting, -, rfl⟩
    exact unknown setting rfl

theorem mem_unknownKeys_iff {table : Toml.Table} {key : String} :
    key ∈ unknownKeys table ↔ key ∈ table.keys ∧ ∀ setting : Setting, key ≠ setting.key := by
  rw [unknownKeys, List.mem_mergeSort, List.mem_filter, decide_eq_true_iff, not_mem_keys_iff]

/-- They are in ascending order, each of them once. -/
theorem pairwise_unknownKeys {table : Toml.Table} (nodup : table.keys.Nodup) :
    (unknownKeys table).Pairwise (· < ·) := by
  have sorted : (unknownKeys table).Pairwise fun first second =>
      decide (first ≤ second) = true := by
    apply List.pairwise_mergeSort
    · intro first second third before after
      exact decide_eq_true (le_trans (of_decide_eq_true before) (of_decide_eq_true after))
    · intro first second
      rw [Bool.or_eq_true, decide_eq_true_iff, decide_eq_true_iff]
      exact le_total first second
  have distinct : (unknownKeys table).Nodup :=
    (List.mergeSort_perm _ _).nodup_iff.mpr (nodup.filter _)
  -- Sorting gives an order in which a key might come twice, but none does.
  refine (sorted.and distinct).imp ?_
  rintro first second ⟨before, differs⟩
  exact lt_of_le_of_ne (of_decide_eq_true before) differs

/-- The warning that some settings in a file mean nothing. -/
def unknownNotices (path : String) (table : Toml.Table) : List Notice :=
  if unknownKeys table = [] then [] else [.settingsUnknown path (unknownKeys table)]

theorem unknownNotices_nil (path : String) : unknownNotices path [] = [] :=
  if_pos List.mergeSort_nil

theorem admitted_unknownNotices (path : String) (table : Toml.Table) :
    earlyLevel.admitted (unknownNotices path table) = unknownNotices path table := by
  unfold unknownNotices
  split
  · rfl
  · rfl

/-- Where messages go. Only on the command line a dash means that they are shown. -/
inductive LogsTo (given : CommandLine.Given) (directory path : String) (table : Toml.Table) :
    Option String → Prop where
  | shown : given.logFile? = some "-" → LogsTo given directory path table none
  | asked {file} : given.logFile? = some file → file ≠ "-" →
      LogsTo given directory path table (some (Path.join directory file))
  | written {file} : given.logFile? = none → table.lookup "log-file" = some (.string file) →
      LogsTo given directory path table (some (Path.join (Path.directory path) file))
  | usual : given.logFile? = none → table.lookup "log-file" = none →
      LogsTo given directory path table none

/-- Each setting is what is given on the command line in a directory, otherwise what is in the
table of a file at a path, otherwise the usual one. -/
structure IsLayered (given : CommandLine.Given) (directory path : String) (table : Toml.Table)
    (config : Config) : Prop where
  mode : config.mode = layered given.mode? ((textIn? table "mode").bind Mode.ofName?) .der
  validateUtf8 : ∃ asked?, given.Chooses .validateUtf8 .noValidateUtf8 asked? ∧
    config.validateUtf8 = layered asked? (flagIn? table "validate-utf8") true
  teletexAsLatin1 : ∃ asked?, given.Chooses .teletexAsLatin1 .noTeletexAsLatin1 asked? ∧
    config.teletexAsLatin1 = layered asked? (flagIn? table "teletex-as-latin1") false
  inputFormat : config.inputFormat =
    layered given.inputFormat? ((textIn? table "input-format").bind InputFormat.ofName?) .raw
  outputFormat : config.outputFormat =
    layered given.outputFormat? ((textIn? table "output-format").bind OutputFormat.ofName?) .text
  logLevel : ∃ asked?, given.AsksForLevel asked? ∧
    config.logLevel = layered asked? ((textIn? table "log-level").bind LogLevel.ofName?) .warn
  logFile? : LogsTo given directory path table config.logFile?

variable {given : CommandLine.Given} {command? : Option Command} {arguments : Arguments}
  {directory path : String} {table : Toml.Table}

theorem logsTo_replaceLogFile (fits : Setting.logFile.Fits table) :
    LogsTo given directory path table (replaceLogFile directory
      ((textIn? table "log-file").map (Path.join (Path.directory path))) given.logFile?) := by
  unfold replaceLogFile
  cases asked : given.logFile? with
  | none =>
      unfold textIn?
      cases found : table.lookup "log-file" with
      | none => exact .usual asked found
      | some value =>
          have allowed := fits value found
          cases value with
          | string file => exact .written asked found
          | _ => exact allowed.elim
  | some file =>
      dsimp only
      split
      next isDash => exact .shown (isDash ▸ asked)
      next notDash => exact .asked asked notDash

theorem isLayered_replace (accepted : given.arguments command? = .ok arguments)
    (fits : Setting.logFile.Fits table) :
    IsLayered given directory path table
      ((written (Path.directory path) table).replace directory arguments) := by
  obtain ⟨agree, rfl⟩ := CommandLine.Given.arguments_eq_ok_iff.mp accepted
  -- That options go together matters for the three settings that have opposite ones.
  simp only [CommandLine.Given.isContradictory, decide_eq_false_iff_not, not_or] at agree
  constructor
  · exact getD_getD_eq_layered _ _ _
  · exact ⟨_, CommandLine.Given.chooses_choice? agree.1, getD_getD_eq_layered _ _ _⟩
  · exact ⟨_, CommandLine.Given.chooses_choice? agree.2.1, getD_getD_eq_layered _ _ _⟩
  · exact getD_getD_eq_layered _ _ _
  · exact getD_getD_eq_layered _ _ _
  · exact ⟨_, CommandLine.Given.asksForLevel_logLevel? agree.2.2, getD_getD_eq_layered _ _ _⟩
  · exact logsTo_replaceLogFile fits

theorem ofTable_congr {others : Toml.Table}
    (same : ∀ setting : Setting, others.lookup setting.key = table.lookup setting.key) :
    ofTable directory others = ofTable directory table := by
  have mode : others.lookup "mode" = table.lookup "mode" := same .mode
  have validateUtf8 : others.lookup "validate-utf8" = table.lookup "validate-utf8" :=
    same .validateUtf8
  have teletexAsLatin1 : others.lookup "teletex-as-latin1" = table.lookup "teletex-as-latin1" :=
    same .teletexAsLatin1
  have inputFormat : others.lookup "input-format" = table.lookup "input-format" := same .inputFormat
  have outputFormat : others.lookup "output-format" = table.lookup "output-format" :=
    same .outputFormat
  have logLevel : others.lookup "log-level" = table.lookup "log-level" := same .logLevel
  have logFile : others.lookup "log-file" = table.lookup "log-file" := same .logFile
  unfold ofTable namedAt? flagAt? textAt?
  rw [mode, validateUtf8, teletexAsLatin1, inputFormat, outputFormat, logLevel, logFile]

end Config

namespace Arguments

variable {given : CommandLine.Given} {command? : Option Command} {arguments : Arguments}
  {directory path : String} {table : Toml.Table} {tree : FileTree}

/-- The configuration that the command line asks for in a directory of a tree of files. -/
def configureIn (arguments : Arguments) (directory : String) (tree : FileTree) :
    Except Notice (Config × List Notice) :=
  arguments.configure directory (arguments.configFileIn directory tree)

/-- The path and the table of the configuration file. The table is empty if there is no file. -/
inductive ConfigTable (arguments : Arguments) (directory : String) (tree : FileTree)
    (path : String) : Toml.Table → Prop where
  | noFile : arguments.configFile? = none → ConfigTable arguments directory tree path []
  | file {name text table} : arguments.configFile? = some name → Path.join directory name = path →
      tree.read path = .ok (Utf8.ofString text) → Toml.parse? text = some table →
      ConfigTable arguments directory tree path table

theorem ConfigTable.nodup (isTable : arguments.ConfigTable directory tree path table) :
    table.keys.Nodup := by
  cases isTable with
  | noFile => exact List.nodup_nil
  | file _ _ _ parsed => exact Toml.keys_nodup_of_parse? parsed

theorem ConfigTable.configureIn_eq (isTable : arguments.ConfigTable directory tree path table) :
    arguments.configureIn directory tree =
      match Config.ofTable (Path.directory path) table with
      | .error defect => .error (.configDefective path defect)
      | .ok base => .ok (base.replace directory arguments, Config.unknownNotices path table) := by
  unfold configureIn configure configFileIn
  cases isTable with
  | noFile noFile =>
      rw [noFile, Config.unknownNotices_nil]
      rfl
  | file isFile isPath isRead parsed =>
      rw [isFile, Option.map_some, isPath, isRead]
      dsimp only
      unfold Config.ofFile
      rw [Utf8.decode_eq_ok_iff.mpr rfl]
      dsimp only
      rw [parsed]
      dsimp only
      cases Config.ofTable (Path.directory path) table with
      | error defect => rfl
      | ok base => rfl

theorem ConfigTable.configureIn_eq_error_iff
    (isTable : arguments.ConfigTable directory tree path table) {notice : Notice} :
    arguments.configureIn directory tree = .error notice ↔
      ∃ defect, Config.FirstDefect table Config.Setting.all defect ∧
        notice = .configDefective path defect := by
  simp only [isTable.configureIn_eq, ← Config.ofTable_eq_error_iff (Path.directory path)]
  cases Config.ofTable (Path.directory path) table with
  | error defect => simp [eq_comm]
  | ok base => simp

theorem ConfigTable.configureIn_eq_ok_iff
    (isTable : arguments.ConfigTable directory tree path table) {config : Config}
    {notices : List Notice} :
    arguments.configureIn directory tree = .ok (config, notices) ↔
      (∀ setting : Config.Setting, setting.Fits table) ∧
        config = (Config.written (Path.directory path) table).replace directory arguments ∧
        notices = Config.unknownNotices path table := by
  rw [isTable.configureIn_eq]
  constructor
  · intro configured
    split at configured
    · cases configured
    next base built =>
      cases configured
      obtain ⟨fit, rfl⟩ := Config.ofTable_eq_ok_iff.mp built
      exact ⟨fit, rfl, rfl⟩
  · rintro ⟨fit, rfl, rfl⟩
    rw [Config.ofTable_eq_ok_iff.mpr ⟨fit, rfl⟩]

end Arguments

namespace Arguments

variable {given : CommandLine.Given} {command? : Option Command} {arguments : Arguments}
  {directory path : String} {table : Toml.Table} {tree : FileTree}

/-- The layers of a configuration: with options that are accepted, and with any table or no file,
there is a configuration exactly if each setting in the file has a value of its kind. Otherwise the
first defect is the one error of the run, whatever the options are. Each setting comes from the
first layer that has it. All that other keys do is that there is one warning, which has them in
ascending order. -/
theorem configureIn_layers (accepted : given.arguments command? = .ok arguments)
    (isTable : arguments.ConfigTable directory tree path table) (around : Surroundings) :
    ((∃ loaded, arguments.configureIn directory tree = .ok loaded) ↔
      ∀ setting : Config.Setting, setting.Fits table) ∧
    (∀ notice, arguments.configureIn directory tree = .error notice ↔
      ∃ defect, Config.FirstDefect table Config.Setting.all defect ∧
        notice = .configDefective path defect) ∧
    (∀ notice, arguments.configureIn directory tree = .error notice →
      notice.level = .error ∧
      tree.report directory around arguments = { status := .failure, shown := [notice], tree }) ∧
    (∀ config notices, arguments.configureIn directory tree = .ok (config, notices) →
      config.IsLayered given directory path table ∧
      ∃ unknown : List String, unknown.Pairwise (· < ·) ∧
        (∀ key, key ∈ unknown ↔ key ∈ table.keys ∧ ∀ setting : Config.Setting, key ≠ setting.key) ∧
        notices = (if unknown = [] then [] else [.settingsUnknown path unknown]) ∧
        notices <+: (tree.report directory around arguments).shown) ∧
    ∀ others otherTable, arguments.ConfigTable directory others path otherTable →
      (∀ setting : Config.Setting, otherTable.lookup setting.key = table.lookup setting.key) →
        (arguments.configureIn directory others).map Prod.fst =
          (arguments.configureIn directory tree).map Prod.fst := by
  refine ⟨?_, fun _ => isTable.configureIn_eq_error_iff, ?_, ?_, ?_⟩
  · constructor
    · rintro ⟨loaded, configured⟩
      exact (isTable.configureIn_eq_ok_iff.mp configured).1
    · intro fit
      exact ⟨_, isTable.configureIn_eq_ok_iff.mpr ⟨fit, rfl, rfl⟩⟩
  · intro notice failed
    obtain ⟨defect, -, rfl⟩ := isTable.configureIn_eq_error_iff.mp failed
    exact ⟨rfl, FileTree.report_of_configure_error failed⟩
  · intro config notices configured
    obtain ⟨fit, rfl, rfl⟩ := isTable.configureIn_eq_ok_iff.mp configured
    refine ⟨Config.isLayered_replace accepted (fit .logFile), Config.unknownKeys table,
      Config.pairwise_unknownKeys isTable.nodup, fun _ => Config.mem_unknownKeys_iff, rfl, ?_⟩
    have shown : earlyLevel.admitted (Config.unknownNotices path table) <+:
        (tree.report directory around arguments).shown :=
      FileTree.isPrefix_shown_of_configure configured
    rwa [Config.admitted_unknownNotices] at shown
  · intro others otherTable isOther same
    rw [isOther.configureIn_eq, isTable.configureIn_eq, Config.ofTable_congr same]
    cases Config.ofTable (Path.directory path) table with
    | error defect => rfl
    | ok base => rfl

/-- The mode that is asked for counts, and the key that means nothing does not stop the run. -/
theorem configureIn_layers_mode_asked :
    ∃ config notices, Arguments.configureIn { configFile? := some "a", mode? := some .der } "/etc"
        ⟨[], [([['e', 't', 'c'], ['a']], Utf8.ofString "mode = \"ber\"\nx = true\n")]⟩ =
          .ok (config, notices) ∧ config.mode = .der := by
  have accepted : CommandLine.Given.arguments { configFile? := some "a", mode? := some .der } none =
      .ok { configFile? := some "a", mode? := some .der } := rfl
  have document : "mode = \"ber\"\nx = true\n" =
      String.ofList ([("mode", .text "ber"), ("x", .flag true)].flatMap Toml.lineOf) := by
    decide
  have bare : ∀ entry ∈ [("mode", Toml.Plain.text "ber"), ("x", .flag true)],
      Toml.IsBare entry.1.toList := by
    simp only [List.forall_mem_cons]
    exact ⟨⟨by decide, by decide⟩, ⟨by decide, by decide⟩, nofun⟩
  have parsed : Toml.parse? "mode = \"ber\"\nx = true\n" =
      some [("mode", .string "ber"), ("x", .boolean true)] := by
    rw [document]
    exact Toml.parse?_ofList_lines bare (by decide)
  have isTable : Arguments.ConfigTable { configFile? := some "a", mode? := some .der } "/etc"
      ⟨[], [([['e', 't', 'c'], ['a']], Utf8.ofString "mode = \"ber\"\nx = true\n")]⟩ "/etc/a"
      [("mode", .string "ber"), ("x", .boolean true)] :=
    .file rfl (by decide) (by decide +kernel) parsed
  have layers := configureIn_layers accepted isTable {}
  have fit : ∀ setting : Config.Setting,
      setting.Fits [("mode", .string "ber"), ("x", .boolean true)] := by
    intro setting value found
    cases setting with
    | mode =>
        cases found
        rfl
    | _ => cases found
  obtain ⟨⟨config, notices⟩, configured⟩ := layers.1.mpr fit
  exact ⟨config, notices, configured, (layers.2.2.2.1 config notices configured).1.mode⟩

end Arguments

end Asn1
