import Asn1.Toml.DateTime
import Asn1.Toml.Written

/-!
The values of TOML, and tables to which sections are added one after another. No setting is ever
replaced.
-/

namespace Asn1.Toml

/-- How a table came to be, which decides whether more can be added to it. -/
inductive Origin where
  /-- It is the value of a setting, and is complete. -/
  | setting
  /-- It is part of the header of another table. Its own header may still follow. -/
  | implied
  /-- It has a header. Only headers of tables within it may follow. -/
  | header
  deriving DecidableEq, Repr

inductive Value where
  | string (text : String)
  | boolean (flag : Bool)
  | number (number : Number)
  /-- A date, a time of day, or both, as it is written. -/
  | dateTime (chars : List Char)
  | array (items : List Value)
  | table (origin : Origin) (entries : List (String × Value))
  /-- An array of values with headers of their own. -/
  | tables (elements : List Value)

/-- Settings in the order in which they were made, under different keys. -/
abbrev Table := List (String × Value)

def Table.keys (table : Table) : List String := table.map Prod.fst

/-- The reserved key of a date. What starts with it is no table but the date that it has as a text,
and whatever else is written there does not count. -/
def dateKey : String := "$__toml_private_datetime"

namespace Value

/-- The date, the time of day, or both, that characters write. -/
def ofDateTime? (chars : List Char) : Option Value :=
  if DateTime.isValid chars then some (.dateTime chars) else none

/-- The table that has some entries, unless a key is given twice. -/
def ofEntries? (origin : Origin) (table : Table) : Option Value :=
  if table.keys.Nodup then some (.table origin table) else none

/-- The date that settings stand for, if they start with its key, and a value otherwise. -/
def ofDateKey? (settings : Settings) (value? : Option Value) : Option Value :=
  match settings with
  | [] => value?
  | (key, written) :: _ =>
      if key = dateKey then
        match written with
        | .string text => ofDateTime? text.toList
        | _ => none
      else
        value?

end Value

mutual

def Written.value? : Written → Option Value
  | .string text => some (.string text)
  | .boolean flag => some (.boolean flag)
  | .number number => some (.number number)
  | .dateTime chars => Value.ofDateTime? chars
  | .array items => (valuesOf? items).map .array
  | .table _ settings =>
      Value.ofDateKey? settings ((entriesOf? settings).bind (Value.ofEntries? .setting))

def valuesOf? : List Written → Option (List Value)
  | [] => some []
  | written :: rest => do return (← written.value?) :: (← valuesOf? rest)

def entriesOf? : List (String × Written) → Option (List (String × Value))
  | [] => some []
  | (key, written) :: rest => do return (key, ← written.value?) :: (← entriesOf? rest)

end

def Value.ofSettings? (settings : Settings) : Option Value :=
  ofDateKey? settings ((entriesOf? settings).bind (ofEntries? .header))

structure Section where
  /-- The names in the header; there are none before the first header. -/
  path : List String
  /-- Whether the header makes an element of an array of tables. -/
  repeated : Bool
  settings : Settings

namespace Table

/-- Adds an entry that a header makes. It cannot be a date, so it may not start a table with the
key of one. -/
def open? (key : String) (value : Value) (table : Table) : Option Table :=
  if table = [] ∧ key = dateKey then none else some (table ++ [(key, value)])

/-- Adds the settings of a section whose header has one name. -/
def addNamed? (repeated : Bool) (settings : Settings) (key : String) (table : Table) :
    Option Table := do
  match table.lookup key with
  | none =>
      let value ← Value.ofSettings? settings
      table.open? key (if repeated then .tables [value] else value)
  | some (.table .implied nested) =>
      if repeated then none
      else
        let value ← Value.ofEntries? .header (nested ++ (← entriesOf? settings))
        return replaceFirst key value table
  | some (.tables elements) =>
      if repeated then
        return replaceFirst key (.tables (elements ++ [← Value.ofSettings? settings])) table
      else none
  | some _ => none

/-- Adds the settings of a section. Names in front of the last one may mean an array of tables,
the last element of which is meant then. -/
def addBelow? (repeated : Bool) (settings : Settings) : List String → Table → Option Table
  | [], _ => none
  | [key], table => addNamed? repeated settings key table
  | key :: rest, table =>
      match table.lookup key with
      | none => do table.open? key (.table .implied (← addBelow? repeated settings rest []))
      | some (.table .implied nested) => do
          let nested ← addBelow? repeated settings rest nested
          return replaceFirst key (.table .implied nested) table
      | some (.table .header nested) => do
          let nested ← addBelow? repeated settings rest nested
          return replaceFirst key (.table .header nested) table
      | some (.tables elements) =>
          match elements.getLast? with
          | some (.table .header nested) => do
              let nested ← addBelow? repeated settings rest nested
              return replaceFirst key (.tables (elements.dropLast ++ [.table .header nested])) table
          | _ => none
      | some _ => none

/-- The table with the settings before the first header, which cannot be a date. -/
def ofSettings? (settings : Settings) : Option Table :=
  match Value.ofSettings? settings with
  | some (.table _ table) => some table
  | _ => none

def addSection? (table : Table) (part : Section) : Option Table :=
  if part.path = [] then ofSettings? part.settings
  else addBelow? part.repeated part.settings part.path table

end Table

end Asn1.Toml
