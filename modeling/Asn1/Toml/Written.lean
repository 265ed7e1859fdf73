import Asn1.Toml.Number

/-!
TOML values as they are written. Nothing is said yet about whether dates exist and keys differ.
-/

namespace Asn1.Toml

inductive Written where
  | string (text : String)
  | boolean (flag : Bool)
  | number (number : Number)
  /-- What looks like a date, a time of day, or both. -/
  | dateTime (chars : List Char)
  | array (items : List Written)
  /-- Settings in braces, or those below a key with dots. -/
  | table (dotted : Bool) (settings : List (String × Written))

def replaceFirst {α : Type} (key : String) (value : α) :
    List (String × α) → List (String × α)
  | [] => []
  | entry :: rest =>
      if entry.1 = key then (key, value) :: rest else entry :: replaceFirst key value rest

/-- Settings in the order in which they are written. -/
abbrev Settings := List (String × Written)

/-- Adds a setting under a key with dots. Its parts other than the last one mean tables of settings
that are added in the same way. -/
def Settings.add? (value : Written) : List String → Settings → Option Settings
  | [], _ => none
  | [key], settings => some (settings ++ [(key, value)])
  | key :: rest, settings =>
      match settings.lookup key with
      | none => (add? value rest []).map fun nested => settings ++ [(key, .table true nested)]
      | some (.table true nested) =>
          (add? value rest nested).map fun nested =>
            replaceFirst key (.table true nested) settings
      | some _ => none

end Asn1.Toml
