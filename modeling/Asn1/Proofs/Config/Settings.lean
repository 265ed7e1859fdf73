import Asn1.Config.Table
import Mathlib.Logic.Basic

/-!
# Settings in the table of a configuration file

Each setting has a key and a kind of values. A table is a configuration if each setting that is in
it has a value of its kind. Otherwise the defect of the first setting counts that has not.
-/

namespace Asn1.Config

inductive Kind where
  | flag
  /-- One of some names, and what is said of a text that is none of them. -/
  | name (isName : String → Bool) (reason : String → String)
  | path

namespace Kind

def Allows : Kind → Toml.Value → Prop
  | flag, .boolean _ => True
  | name isName _, .string text => isName text = true
  | path, .string _ => True
  | _, _ => False

/-- What is wrong with a value that is not allowed. -/
def defect (key : String) : Kind → Toml.Value → Defect
  | flag, _ => .notBoolean key
  | name _ reason, .string text => .illegal key (reason text)
  | _, _ => .notText key

end Kind

inductive Setting where
  | mode
  | validateUtf8
  | teletexAsLatin1
  | inputFormat
  | outputFormat
  | logLevel
  | logFile
  deriving DecidableEq

namespace Setting

def key : Setting → String
  | mode => "mode"
  | validateUtf8 => "validate-utf8"
  | teletexAsLatin1 => "teletex-as-latin1"
  | inputFormat => "input-format"
  | outputFormat => "output-format"
  | logLevel => "log-level"
  | logFile => "log-file"

def kind : Setting → Kind
  | mode => .name (fun text => (Mode.ofName? text).isSome) fun _ => Mode.invalidMessage
  | validateUtf8 | teletexAsLatin1 => .flag
  | inputFormat =>
      .name (fun text => (InputFormat.ofName? text).isSome) InputFormat.invalidMessage
  | outputFormat =>
      .name (fun text => (OutputFormat.ofName? text).isSome) OutputFormat.invalidMessage
  | logLevel => .name (fun text => (LogLevel.ofName? text).isSome) fun _ => LogLevel.invalidMessage
  | logFile => .path

/-- The settings in the order in which they are looked at. -/
def all : List Setting :=
  [mode, validateUtf8, teletexAsLatin1, inputFormat, outputFormat, logLevel, logFile]

theorem keys_eq : keys = all.map key := rfl

theorem mem_all (setting : Setting) : setting ∈ all := by
  cases setting <;> decide

/-- A setting has a value of its kind in a table, or none. -/
def Fits (table : Toml.Table) (setting : Setting) : Prop :=
  ∀ value, table.lookup setting.key = some value → setting.kind.Allows value

end Setting

def flagIn? (table : Toml.Table) (key : String) : Option Bool :=
  match table.lookup key with
  | some (.boolean flag) => some flag
  | _ => none

def textIn? (table : Toml.Table) (key : String) : Option String :=
  match table.lookup key with
  | some (.string text) => some text
  | _ => none

/-- The settings of a table, each of which is the usual one if the table does not have it. -/
def written (directory : String) (table : Toml.Table) : Config where
  mode := ((textIn? table "mode").bind Mode.ofName?).getD .der
  validateUtf8 := (flagIn? table "validate-utf8").getD true
  teletexAsLatin1 := (flagIn? table "teletex-as-latin1").getD false
  inputFormat := ((textIn? table "input-format").bind InputFormat.ofName?).getD .raw
  outputFormat := ((textIn? table "output-format").bind OutputFormat.ofName?).getD .text
  logLevel := ((textIn? table "log-level").bind LogLevel.ofName?).getD .warn
  logFile? := (textIn? table "log-file").map (Path.join directory)

/-- The defect of the first of some settings that has a value of another kind. -/
def FirstDefect (table : Toml.Table) (settings : List Setting) (defect : Defect) : Prop :=
  ∃ before setting after value, settings = before ++ setting :: after ∧
    (∀ other ∈ before, other.Fits table) ∧ table.lookup setting.key = some value ∧
    ¬ setting.kind.Allows value ∧ defect = setting.kind.defect setting.key value

theorem firstDefect_cons_iff {table : Toml.Table} {setting : Setting} {settings : List Setting}
    {defect : Defect} :
    FirstDefect table (setting :: settings) defect ↔
      (∃ value, table.lookup setting.key = some value ∧ ¬ setting.kind.Allows value ∧
          defect = setting.kind.defect setting.key value) ∨
        setting.Fits table ∧ FirstDefect table settings defect := by
  constructor
  · rintro ⟨before, found, after, value, split, fit, isValue, notAllowed, rfl⟩
    -- What is in front of the defect is nothing, or has the first setting, which then fits.
    cases before with
    | nil =>
        cases split
        exact .inl ⟨value, isValue, notAllowed, rfl⟩
    | cons first before =>
        cases split
        rw [List.forall_mem_cons] at fit
        exact .inr ⟨fit.1, before, found, after, value, rfl, fit.2, isValue, notAllowed, rfl⟩
  · rintro (⟨value, isValue, notAllowed, rfl⟩ |
      ⟨fits, before, found, after, value, rfl, fit, isValue, notAllowed, rfl⟩)
    · exact ⟨[], setting, settings, value, rfl, nofun, isValue, notAllowed, rfl⟩
    · exact ⟨setting :: before, found, after, value, rfl, List.forall_mem_cons.mpr ⟨fits, fit⟩,
        isValue, notAllowed, rfl⟩

theorem forall_fits_or_firstDefect (table : Toml.Table) (settings : List Setting) :
    (∀ setting ∈ settings, setting.Fits table) ∨ ∃ defect, FirstDefect table settings defect := by
  induction settings with
  | nil => exact .inl nofun
  | cons setting settings inductionHypothesis =>
      by_cases fits : setting.Fits table
      · rcases inductionHypothesis with fit | ⟨defect, isFirst⟩
        · exact .inl (List.forall_mem_cons.mpr ⟨fits, fit⟩)
        · exact .inr ⟨defect, firstDefect_cons_iff.mpr (.inr ⟨fits, isFirst⟩)⟩
      · simp only [Setting.Fits, not_forall] at fits
        obtain ⟨value, isValue, notAllowed⟩ := fits
        exact .inr ⟨_, firstDefect_cons_iff.mpr (.inl ⟨value, isValue, notAllowed, rfl⟩)⟩

/-- A setting is read: it gives a value if it fits, and otherwise its defect. -/
structure Reads {α : Type} (table : Toml.Table) (setting : Setting)
    (read : Except Defect (Option α)) (value? : Option α) : Prop where
  ok : setting.Fits table → read = .ok value?
  error : ∀ value, table.lookup setting.key = some value → ¬ setting.kind.Allows value →
    read = .error (setting.kind.defect setting.key value)

variable {table : Toml.Table}

theorem reads_flagAt? (setting : Setting) (isFlag : setting.kind = .flag) :
    Reads table setting (flagAt? table setting.key) (flagIn? table setting.key) := by
  unfold flagAt? flagIn?
  constructor
  · intro fits
    cases found : table.lookup setting.key with
    | none => rfl
    | some value =>
        have allowed := fits value found
        rw [isFlag] at allowed
        cases value with
        | boolean flag => rfl
        | _ => exact allowed.elim
  · intro value found notAllowed
    rw [isFlag] at notAllowed ⊢
    rw [found]
    cases value with
    | boolean flag => exact absurd trivial notAllowed
    | _ => rfl

theorem reads_textAt? (setting : Setting) (isPath : setting.kind = .path) :
    Reads table setting (textAt? table setting.key) (textIn? table setting.key) := by
  unfold textAt? textIn?
  constructor
  · intro fits
    cases found : table.lookup setting.key with
    | none => rfl
    | some value =>
        have allowed := fits value found
        rw [isPath] at allowed
        cases value with
        | string text => rfl
        | _ => exact allowed.elim
  · intro value found notAllowed
    rw [isPath] at notAllowed ⊢
    rw [found]
    cases value with
    | string text => exact absurd trivial notAllowed
    | _ => rfl

theorem namedAt?_of_text {α : Type} {key text : String} {ofName? : String → Option α}
    {reason : String → String} (found : table.lookup key = some (.string text)) :
    namedAt? table key ofName? reason =
      match ofName? text with
      | some named => .ok (some named)
      | none => .error (.illegal key (reason text)) := by
  unfold namedAt? textAt?
  rw [found]
  rfl

theorem reads_namedAt? {α : Type} {ofName? : String → Option α} {reason : String → String}
    (setting : Setting) (isName : setting.kind = .name (fun text => (ofName? text).isSome) reason) :
    Reads table setting (namedAt? table setting.key ofName? reason)
      ((textIn? table setting.key).bind ofName?) := by
  unfold textIn?
  constructor
  · intro fits
    cases found : table.lookup setting.key with
    | none =>
        unfold namedAt? textAt?
        rw [found]
        rfl
    | some value =>
        have allowed := fits value found
        rw [isName] at allowed
        cases value with
        | string text =>
            obtain ⟨named, isNamed⟩ := Option.isSome_iff_exists.mp allowed
            rw [namedAt?_of_text found, isNamed]
            exact congrArg Except.ok isNamed.symm
        | _ => exact allowed.elim
  · intro value found notAllowed
    rw [isName] at notAllowed ⊢
    cases value with
    | string text =>
        have notNamed : ofName? text = none := Option.not_isSome_iff_eq_none.mp notAllowed
        rw [namedAt?_of_text found, notNamed]
        rfl
    | _ =>
        unfold namedAt? textAt?
        rw [found]
        rfl

/-- What comes of some settings: the configuration that is built if all of them fit, and otherwise
their first defect. -/
structure Settles {α : Type} (table : Toml.Table) (settings : List Setting)
    (result : Except Defect α) (built : α) : Prop where
  ok : (∀ setting ∈ settings, setting.Fits table) → result = .ok built
  error : ∀ defect, FirstDefect table settings defect → result = .error defect

theorem settles_nil {α : Type} (built : α) : Settles table [] (.ok built) built := by
  constructor
  · exact fun _ => rfl
  · rintro defect ⟨before, setting, after, value, split, -⟩
    exact absurd split (by simp)

/-- A defect of the setting that is read first counts, and otherwise those that are read next. -/
theorem Reads.settles {α β : Type} {setting : Setting} {settings : List Setting}
    {read : Except Defect (Option α)} {value? : Option α}
    {next : Option α → Except Defect β} {built : β} (reads : Reads table setting read value?)
    (settles : Settles table settings (next value?) built) :
    Settles table (setting :: settings) (read >>= next) built := by
  constructor
  · intro fit
    rw [List.forall_mem_cons] at fit
    rw [reads.ok fit.1]
    exact settles.ok fit.2
  · intro defect isFirst
    rcases firstDefect_cons_iff.mp isFirst with ⟨value, found, notAllowed, rfl⟩ | ⟨fits, isFirst⟩
    · rw [reads.error value found notAllowed]
      rfl
    · rw [reads.ok fits]
      exact settles.error defect isFirst

theorem Settles.eq_ok_iff {α : Type} {settings : List Setting} {result : Except Defect α}
    {built other : α} (settles : Settles table settings result built) :
    result = .ok other ↔ (∀ setting ∈ settings, setting.Fits table) ∧ other = built := by
  rcases forall_fits_or_firstDefect table settings with fit | ⟨defect, isFirst⟩
  · rw [settles.ok fit, Except.ok.injEq, eq_comm]
    exact (and_iff_right fit).symm
  · rw [settles.error defect isFirst]
    constructor
    · nofun
    · rintro ⟨fit, -⟩
      rw [settles.ok fit] at settles
      cases settles.error defect isFirst

theorem Settles.eq_error_iff {α : Type} {settings : List Setting} {result : Except Defect α}
    {built : α} {defect : Defect} (settles : Settles table settings result built) :
    result = .error defect ↔ FirstDefect table settings defect := by
  constructor
  · intro failed
    rcases forall_fits_or_firstDefect table settings with fit | ⟨other, isFirst⟩
    · rw [settles.ok fit] at failed
      cases failed
    · rw [settles.error other isFirst] at failed
      cases failed
      exact isFirst
  · exact settles.error defect

theorem settles_ofTable (directory : String) (table : Toml.Table) :
    Settles table Setting.all (ofTable directory table) (written directory table) := by
  unfold ofTable
  apply Reads.settles (reads_namedAt? .mode rfl)
  apply Reads.settles (reads_flagAt? .validateUtf8 rfl)
  apply Reads.settles (reads_flagAt? .teletexAsLatin1 rfl)
  apply Reads.settles (reads_namedAt? .inputFormat rfl)
  apply Reads.settles (reads_namedAt? .outputFormat rfl)
  apply Reads.settles (reads_namedAt? .logLevel rfl)
  apply Reads.settles (reads_textAt? .logFile rfl)
  exact settles_nil _

theorem forall_mem_all_fits_iff {table : Toml.Table} :
    (∀ setting ∈ Setting.all, setting.Fits table) ↔ ∀ setting : Setting, setting.Fits table :=
  ⟨fun fit setting => fit setting setting.mem_all, fun fit setting _ => fit setting⟩

/-- A table is a configuration exactly if each setting fits. -/
theorem ofTable_eq_ok_iff {directory : String} {table : Toml.Table} {config : Config} :
    ofTable directory table = .ok config ↔
      (∀ setting : Setting, setting.Fits table) ∧ config = written directory table := by
  rw [(settles_ofTable directory table).eq_ok_iff, forall_mem_all_fits_iff]

theorem ofTable_eq_error_iff (directory : String) {table : Toml.Table} {defect : Defect} :
    ofTable directory table = .error defect ↔ FirstDefect table Setting.all defect :=
  (settles_ofTable directory table).eq_error_iff

end Asn1.Config
