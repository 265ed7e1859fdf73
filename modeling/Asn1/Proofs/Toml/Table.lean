import Asn1.Toml.Document
import Mathlib.Data.List.Nodup

/-!
# The keys of a table

Sections only ever add keys that a table does not have, so that no key of a document is there twice.
-/

namespace Asn1.Toml

theorem map_fst_replaceFirst {α : Type} (key : String) (value : α)
    (entries : List (String × α)) :
    (replaceFirst key value entries).map Prod.fst = entries.map Prod.fst := by
  induction entries with
  | nil => rfl
  | cons entry entries inductionHypothesis =>
      rw [replaceFirst]
      split
      next same => rw [List.map_cons, List.map_cons, same]
      next => rw [List.map_cons, List.map_cons, inductionHypothesis]

namespace Table

/-- A table has the keys of another one, and possibly one that is new. -/
def Extends (result table : Table) : Prop :=
  result.keys = table.keys ∨ ∃ key, key ∉ table.keys ∧ result.keys = table.keys.concat key

variable {table result : Table} {repeated : Bool} {settings : Settings} {key : String}

theorem Extends.nodup (isExtended : result.Extends table) (nodup : table.keys.Nodup) :
    result.keys.Nodup := by
  rcases isExtended with same | ⟨key, isNew, added⟩
  · rwa [same]
  · rw [added]
    exact List.Nodup.concat isNew nodup

theorem not_mem_keys_of_lookup_eq_none (absent : table.lookup key = none) : key ∉ table.keys := by
  intro membership
  obtain ⟨entry, isEntry, rfl⟩ := List.mem_map.mp membership
  have differs := List.lookup_eq_none_iff.mp absent entry isEntry
  exact absurd rfl (bne_iff_ne.mp differs)

theorem extends_of_open? {value : Value} (absent : table.lookup key = none)
    (opened : table.open? key value = some result) : result.Extends table := by
  rw [open?, Option.ite_none_left_eq_some] at opened
  obtain ⟨-, same⟩ := opened
  cases same
  refine .inr ⟨key, not_mem_keys_of_lookup_eq_none absent, ?_⟩
  rw [keys, List.map_append, List.concat_eq_append]
  rfl

theorem extends_replaceFirst (key : String) (value : Value) (table : Table) :
    Extends (replaceFirst key value table) table :=
  .inl (map_fst_replaceFirst key value table)

/-- A value that replaces another one adds no key. -/
theorem extends_of_map_replaceFirst {α : Type} {value? : Option α} {change : α → Value}
    (added : (value?.bind fun value => some (replaceFirst key (change value) table)) =
      some result) : result.Extends table := by
  rw [Option.bind_eq_some_iff] at added
  obtain ⟨value, -, same⟩ := added
  cases same
  exact extends_replaceFirst key _ table

theorem extends_of_addNamed? (added : addNamed? repeated settings key table = some result) :
    result.Extends table := by
  unfold addNamed? at added
  split at added
  next absent =>
    rw [Option.bind_eq_bind, Option.bind_eq_some_iff] at added
    obtain ⟨value, -, opened⟩ := added
    exact extends_of_open? absent opened
  next =>
    split at added
    · cases added
    · rw [Option.bind_eq_bind, Option.bind_eq_some_iff] at added
      obtain ⟨entries, -, added⟩ := added
      exact extends_of_map_replaceFirst added
  next =>
    split at added
    · exact extends_of_map_replaceFirst added
    · cases added
  next => cases added

theorem extends_of_addBelow? {path : List String}
    (added : addBelow? repeated settings path table = some result) : result.Extends table := by
  unfold addBelow? at added
  split at added
  next => cases added
  next => exact extends_of_addNamed? added
  next =>
    split at added
    next absent =>
      rw [Option.bind_eq_bind, Option.bind_eq_some_iff] at added
      obtain ⟨value, -, opened⟩ := added
      exact extends_of_open? absent opened
    next => exact extends_of_map_replaceFirst added
    next => exact extends_of_map_replaceFirst added
    next =>
      split at added
      next => exact extends_of_map_replaceFirst added
      next => cases added
    next => cases added

theorem eq_some_of_ofDateKey? {value? : Option Value} {origin : Origin}
    (isTable : Value.ofDateKey? settings value? = some (.table origin table)) :
    value? = some (.table origin table) := by
  unfold Value.ofDateKey? at isTable
  split at isTable
  next => exact isTable
  next =>
    split at isTable
    next =>
      -- The date that stands for the settings is no table.
      split at isTable
      next text =>
        rw [Value.ofDateTime?, Option.ite_none_right_eq_some] at isTable
        cases isTable.2
      next => cases isTable
    next => exact isTable

theorem keys_nodup_of_ofSettings? (made : ofSettings? settings = some result) :
    result.keys.Nodup := by
  unfold ofSettings? at made
  split at made
  next origin table isTable =>
    cases made
    have isTable := eq_some_of_ofDateKey? isTable
    rw [Option.bind_eq_some_iff] at isTable
    obtain ⟨entries, -, isTable⟩ := isTable
    rw [Value.ofEntries?, Option.ite_none_right_eq_some] at isTable
    obtain ⟨nodup, same⟩ := isTable
    cases same
    exact nodup
  next => cases made

theorem keys_nodup_of_addSection? {part : Section} (nodup : table.keys.Nodup)
    (added : table.addSection? part = some result) : result.keys.Nodup := by
  unfold addSection? at added
  split at added
  · exact keys_nodup_of_ofSettings? added
  · exact (extends_of_addBelow? added).nodup nodup

end Table

theorem keys_nodup_of_build? {table result : Table} {current : Section} {lines : List Line}
    (nodup : table.keys.Nodup) (built : build? table current lines = some result) :
    result.keys.Nodup := by
  induction lines generalizing table current with
  | nil => exact Table.keys_nodup_of_addSection? nodup built
  | cons line lines inductionHypothesis =>
      cases line with
      | header names repeated =>
          rw [build?, Option.bind_eq_bind, Option.bind_eq_some_iff] at built
          obtain ⟨extended, added, built⟩ := built
          exact inductionHypothesis (Table.keys_nodup_of_addSection? nodup added) built
      | setting names value =>
          rw [build?, Option.bind_eq_bind, Option.bind_eq_some_iff] at built
          obtain ⟨settings, -, built⟩ := built
          exact inductionHypothesis nodup built

/-- No key of a document is there twice. -/
theorem keys_nodup_of_parse? {document : String} {table : Table}
    (parsed : parse? document = some table) : table.keys.Nodup := by
  simp only [parse?, Option.bind_eq_bind, Option.bind_eq_some_iff] at parsed
  obtain ⟨tokens, -, lines, -, built⟩ := parsed
  have empty : (Table.keys []).Nodup := List.nodup_nil
  exact keys_nodup_of_build? empty built

end Asn1.Toml
