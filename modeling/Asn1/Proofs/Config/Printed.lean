import Asn1.Proofs.Config.Layers
import Asn1.Proofs.Path
import Asn1.Proofs.Toml.Lines

/-!
# A printed configuration reads back as itself

What is printed has each setting on a line of its own, and only settings. Reading undoes it wherever
the file is, since the path of the log file is absolute.
-/

namespace Asn1

theorem Mode.ofName?_name (mode : Mode) : ofName? mode.name = some mode := by
  cases mode <;> rfl

theorem InputFormat.ofName?_name (format : InputFormat) : ofName? format.name = some format := by
  cases format <;> rfl

theorem OutputFormat.ofName?_name (format : OutputFormat) :
    ofName? format.name = some format := by
  cases format <;> rfl

theorem LogLevel.ofName?_name (level : LogLevel) : ofName? level.name = some level := by
  cases level <;> decide

namespace Config

def plain? (config : Config) : Setting → Option Toml.Plain
  | .mode => some (.text config.mode.name)
  | .validateUtf8 => some (.flag config.validateUtf8)
  | .teletexAsLatin1 => some (.flag config.teletexAsLatin1)
  | .inputFormat => some (.text config.inputFormat.name)
  | .outputFormat => some (.text config.outputFormat.name)
  | .logLevel => some (.text config.logLevel.name)
  | .logFile => config.logFile?.map .text

def Setting.ascending : List Setting :=
  [inputFormat, logFile, logLevel, mode, outputFormat, teletexAsLatin1, validateUtf8]

namespace Setting

theorem mem_ascending (setting : Setting) : setting ∈ ascending := by
  cases setting <;> decide

theorem pairwise_ascending : (ascending.map key).Pairwise (· < ·) := by
  decide

theorem key_injective : Function.Injective key := by
  intro first second
  have distinct : (all.map key).Nodup := by decide
  exact List.inj_on_of_nodup_map distinct first.mem_all second.mem_all

variable {α : Type}

theorem sublist_keys (value? : Setting → Option α) (settings : List Setting) :
    ((settings.filterMap fun setting => (value? setting).map (setting.key, ·)).map
      Prod.fst).Sublist (settings.map key) := by
  induction settings with
  | nil => exact List.Sublist.refl []
  | cons setting settings inductionHypothesis =>
      rw [List.filterMap_cons]
      cases value? setting with
      | none => exact inductionHypothesis.cons _
      | some value => exact inductionHypothesis.cons_cons _

/-- Different settings have different keys, so that each is found under its own. -/
theorem lookup_filterMap (value? : Setting → Option α) (settings : List Setting)
    (setting : Setting) :
    (settings.filterMap fun other => (value? other).map (other.key, ·)).lookup setting.key =
      if setting ∈ settings then value? setting else none := by
  induction settings with
  | nil => rfl
  | cons other settings inductionHypothesis =>
      rw [List.filterMap_cons]
      by_cases same : setting = other
      · subst same
        rw [if_pos List.mem_cons_self]
        -- Without a value it is not found further on either, whether it is there again or not.
        cases isValue : value? setting with
        | none =>
            dsimp only [Option.map_none]
            rw [inductionHypothesis, isValue, ite_self]
        | some value => exact List.lookup_cons_self
      · have differs : (setting.key == other.key) = false :=
          beq_false_of_ne fun sameKey => same (key_injective sameKey)
        have membership : setting ∈ other :: settings ↔ setting ∈ settings := by
          rw [List.mem_cons, or_iff_right same]
        simp only [membership]
        cases value? other with
        | none => exact inductionHypothesis
        | some value =>
            dsimp only [Option.map_some]
            rw [List.lookup_cons, differs]
            exact inductionHypothesis

end Setting

def entries (config : Config) : List (String × Toml.Plain) :=
  Setting.ascending.filterMap fun setting => (config.plain? setting).map (setting.key, ·)

theorem textLine_eq (key text : String) :
    textLine key text = String.ofList (Toml.lineOf (key, .text text)) := by
  rw [← String.toList_inj]
  simp [textLine, Toml.lineOf, Toml.Plain.chars]

theorem flagLine_eq (key : String) (flag : Bool) :
    flagLine key flag = String.ofList (Toml.lineOf (key, .flag flag)) := by
  rw [← String.toList_inj]
  cases flag <;> simp [flagLine, Toml.lineOf, Toml.Plain.chars]

theorem document_eq (config : Config) :
    config.document = String.ofList (config.entries.flatMap Toml.lineOf) := by
  cases isFile : config.logFile? with
  | none =>
    simp [document, entries, Setting.ascending, plain?, isFile, textLine_eq, flagLine_eq,
      Setting.key, String.append_assoc]
  | some path =>
    simp [document, entries, Setting.ascending, plain?, isFile, textLine_eq, flagLine_eq,
      Setting.key, String.append_assoc]

def table (config : Config) : Toml.Table :=
  config.entries.map fun entry => (entry.1, entry.2.value)

theorem keys_table (config : Config) : config.table.keys = config.entries.map Prod.fst := by
  rw [Toml.Table.keys, table, List.map_map]
  rfl

theorem exists_setting_of_mem_entries {config : Config} {entry : String × Toml.Plain}
    (membership : entry ∈ config.entries) : ∃ setting : Setting, entry.1 = setting.key := by
  obtain ⟨setting, -, isEntry⟩ := List.mem_filterMap.mp membership
  obtain ⟨value, -, rfl⟩ := Option.map_eq_some_iff.mp isEntry
  exact ⟨setting, rfl⟩

theorem Setting.isBare_key (setting : Setting) : Toml.IsBare setting.key.toList := by
  unfold Toml.IsBare
  cases setting <;> decide

theorem pairwise_entries (config : Config) :
    (config.entries.map Prod.fst).Pairwise (· < ·) :=
  Setting.pairwise_ascending.sublist (Setting.sublist_keys config.plain? Setting.ascending)

theorem parse?_document (config : Config) : Toml.parse? config.document = some config.table := by
  rw [document_eq]
  refine Toml.parse?_ofList_lines ?_ (config.pairwise_entries.imp ne_of_lt)
  intro entry membership
  obtain ⟨setting, isKey⟩ := exists_setting_of_mem_entries membership
  rw [isKey]
  exact setting.isBare_key

theorem unknownNotices_table (path : String) (config : Config) :
    unknownNotices path config.table = [] := by
  apply if_pos
  rw [List.eq_nil_iff_forall_not_mem]
  intro key isUnknown
  obtain ⟨isKey, unknown⟩ := mem_unknownKeys_iff.mp isUnknown
  rw [keys_table] at isKey
  obtain ⟨entry, membership, rfl⟩ := List.mem_map.mp isKey
  obtain ⟨setting, isSetting⟩ := exists_setting_of_mem_entries membership
  exact unknown setting isSetting

theorem lookup_table (config : Config) (setting : Setting) :
    config.table.lookup setting.key = (config.plain? setting).map Toml.Plain.value := by
  have isTable : config.table = Setting.ascending.filterMap fun setting =>
      ((config.plain? setting).map Toml.Plain.value).map (setting.key, ·) := by
    rw [table, entries, List.map_filterMap]
    simp only [Option.map_map]
    rfl
  rw [isTable, Setting.lookup_filterMap, if_pos setting.mem_ascending]

theorem fits_table (config : Config) (setting : Setting) : setting.Fits config.table := by
  intro value found
  rw [lookup_table] at found
  obtain ⟨plain, isPlain, rfl⟩ := Option.map_eq_some_iff.mp found
  cases setting with
  | mode =>
    cases isPlain
    exact Option.isSome_of_eq_some config.mode.ofName?_name
  | inputFormat =>
    cases isPlain
    exact Option.isSome_of_eq_some config.inputFormat.ofName?_name
  | outputFormat =>
    cases isPlain
    exact Option.isSome_of_eq_some config.outputFormat.ofName?_name
  | logLevel =>
    cases isPlain
    exact Option.isSome_of_eq_some config.logLevel.ofName?_name
  | validateUtf8 =>
    cases isPlain
    trivial
  | teletexAsLatin1 =>
    cases isPlain
    trivial
  | logFile =>
    obtain ⟨path, -, rfl⟩ := Option.map_eq_some_iff.mp isPlain
    trivial

/-- The log file, if there is one, is at an absolute path. -/
def LogsAbsolutely (config : Config) : Prop :=
  ∀ path, config.logFile? = some path → Path.isAbsolute path = true

theorem flagIn?_table (config : Config) (setting : Setting) :
    flagIn? config.table setting.key =
      match config.plain? setting with
      | some (.flag isSet) => some isSet
      | _ => none := by
  rw [flagIn?, lookup_table]
  cases config.plain? setting with
  | none => rfl
  | some plain => cases plain <;> rfl

theorem textIn?_table (config : Config) (setting : Setting) :
    textIn? config.table setting.key =
      match config.plain? setting with
      | some (.text content) => some content
      | _ => none := by
  rw [textIn?, lookup_table]
  cases config.plain? setting with
  | none => rfl
  | some plain => cases plain <;> rfl

/-- The settings in the table are those that were printed. -/
theorem written_table {config : Config} (absolute : config.LogsAbsolutely) (directory : String) :
    written directory config.table = config := by
  have mode : textIn? config.table "mode" = some config.mode.name := config.textIn?_table .mode
  have validateUtf8 : flagIn? config.table "validate-utf8" = some config.validateUtf8 :=
    config.flagIn?_table .validateUtf8
  have teletexAsLatin1 : flagIn? config.table "teletex-as-latin1" = some config.teletexAsLatin1 :=
    config.flagIn?_table .teletexAsLatin1
  have inputFormat : textIn? config.table "input-format" = some config.inputFormat.name :=
    config.textIn?_table .inputFormat
  have outputFormat : textIn? config.table "output-format" = some config.outputFormat.name :=
    config.textIn?_table .outputFormat
  have logLevel : textIn? config.table "log-level" = some config.logLevel.name :=
    config.textIn?_table .logLevel
  have logFile : (textIn? config.table "log-file").map (Path.join directory) = config.logFile? := by
    have found := config.textIn?_table .logFile
    rw [Setting.key] at found
    rw [found, plain?]
    cases isFile : config.logFile? with
    | none => rfl
    | some path => exact congrArg some (Path.join_of_isAbsolute (absolute path isFile))
  rw [written, mode, validateUtf8, teletexAsLatin1, inputFormat, outputFormat, logLevel, logFile]
  simp only [Option.bind_some, Option.getD_some, Mode.ofName?_name, InputFormat.ofName?_name,
    OutputFormat.ofName?_name, LogLevel.ofName?_name]

/-- A configuration that logs to an absolute path reads back as itself. -/
theorem ofFile_document {config : Config} (absolute : config.LogsAbsolutely) (path : String) :
    ofFile path (Utf8.ofString config.document) = .ok (config, []) := by
  have built : ofTable (Path.directory path) config.table = .ok config :=
    ofTable_eq_ok_iff.mpr ⟨config.fits_table, (written_table absolute _).symm⟩
  have silent := unknownNotices_table path config
  rw [unknownNotices] at silent
  unfold ofFile
  rw [Utf8.decode_eq_ok_iff.mpr rfl]
  dsimp only
  rw [parse?_document]
  dsimp only
  rw [built]
  dsimp only
  rw [silent]

theorem logsAbsolutely_written {directory : String} (absolute : Path.isAbsolute directory = true)
    (table : Toml.Table) : (written directory table).LogsAbsolutely := by
  intro path isFile
  obtain ⟨file, -, rfl⟩ := Option.map_eq_some_iff.mp isFile
  exact Path.isAbsolute_join absolute file

theorem LogsAbsolutely.replace {base : Config} (baseAbsolute : base.LogsAbsolutely)
    {directory : String} (absolute : Path.isAbsolute directory = true) (arguments : Arguments) :
    (base.replace directory arguments).LogsAbsolutely := by
  intro path isFile
  rw [Config.replace, replaceLogFile.eq_def] at isFile
  split at isFile
  next => exact baseAbsolute path isFile
  next file _ =>
    split at isFile
    · cases isFile
    · cases isFile
      exact Path.isAbsolute_join absolute file

end Config

namespace Arguments

variable {arguments : Arguments} {directory : String} {tree : FileTree} {config : Config}
  {notices : List Notice}

/-- Every path in a configuration is absolute if the directory of the run is. -/
theorem logsAbsolutely_of_configureIn (absolute : Path.isAbsolute directory = true)
    (configured : arguments.configureIn directory tree = .ok (config, notices)) :
    config.LogsAbsolutely := by
  obtain ⟨base, isBase, rfl⟩ := configure_eq_ok_iff.mp ⟨notices, configured⟩
  refine Config.LogsAbsolutely.replace ?_ absolute arguments
  cases isBase with
  | usual => nofun
  | file _ _ _ built =>
      obtain ⟨-, rfl⟩ := Config.ofTable_eq_ok_iff.mp built
      apply Config.logsAbsolutely_written
      exact Path.isAbsolute_directory (Path.isAbsolute_join absolute _)

/-- What is printed of a configuration is a configuration file, in any place, of that same
configuration. Nothing in it is unknown, and it is printed in the same way again. -/
theorem ofFile_document_of_configureIn (absolute : Path.isAbsolute directory = true)
    (configured : arguments.configureIn directory tree = .ok (config, notices)) (path : String) :
    ∃ read, Config.ofFile path (Utf8.ofString config.document) = .ok (read, []) ∧
      read = config ∧ read.document = config.document := by
  have logsAbsolutely := logsAbsolutely_of_configureIn absolute configured
  exact ⟨config, Config.ofFile_document logsAbsolutely path, rfl, rfl⟩

/-- The path of a log file may have quotation marks and line breaks. -/
theorem ofFile_document_marked_path :
    ∃ read, Config.ofFile "/etc/a" (Utf8.ofString (Config.document
        { mode := .ber, logLevel := .off, logFile? := some "/home/\"a\\\n" })) = .ok (read, []) ∧
      read = { mode := .ber, logLevel := .off, logFile? := some "/home/\"a\\\n" } ∧
      read.document = Config.document
        { mode := .ber, logLevel := .off, logFile? := some "/home/\"a\\\n" } := by
  have configured : Arguments.configureIn
      { mode? := some .ber, logLevel? := some .off, logFile? := some "\"a\\\n" } "/home" ⟨[], []⟩ =
      .ok ({ mode := .ber, logLevel := .off, logFile? := some "/home/\"a\\\n" }, []) := by
    decide
  exact ofFile_document_of_configureIn (by decide) configured "/etc/a"

end Arguments

end Asn1
