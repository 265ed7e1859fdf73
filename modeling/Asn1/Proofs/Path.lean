import Asn1.Path
import Mathlib.Data.List.Basic

/-!
# Absolute paths

A path in an absolute directory is absolute, and so is the directory of an absolute path.
-/

namespace Asn1.Path

variable {directory path : String}

theorem join_of_isAbsolute (absolute : isAbsolute path = true) : join directory path = path :=
  if_pos absolute

example : join "/home" "/a" = "/a" := by decide

theorem isAbsolute_append (absolute : isAbsolute directory = true) (text : String) :
    isAbsolute (directory ++ text) = true := by
  rw [isAbsolute, decide_eq_true_iff] at absolute ⊢
  rw [String.toList_append, List.head?_append, absolute]
  rfl

theorem isAbsolute_join (absolute : isAbsolute directory = true) (path : String) :
    isAbsolute (join directory path) = true := by
  unfold join
  split
  next isAbsolutePath => exact isAbsolutePath
  next =>
    split
    · exact isAbsolute_append absolute path
    · rw [String.append_assoc]
      exact isAbsolute_append absolute _

example : join "/home" "a" = "/home/a" := by decide

/-- Leaving out what means nothing keeps the root, which comes last. -/
theorem getLast?_trim {chars : List Char} (fromRoot : chars.getLast? = some '/') :
    (trim chars).getLast? = some '/' := by
  fun_induction trim chars with
  | case1 => rfl
  | case2 rest notRoot inductionHypothesis =>
      apply inductionHypothesis
      cases rest with
      | nil => exact absurd rfl notRoot
      | cons char rest => rwa [List.getLast?_cons_cons] at fromRoot
  | case3 rest inductionHypothesis =>
      apply inductionHypothesis
      rwa [List.getLast?_cons_cons] at fromRoot
  | case4 => exact fromRoot

theorem isAbsolute_directory (absolute : isAbsolute path = true) :
    isAbsolute (Path.directory path) = true := by
  rw [isAbsolute, decide_eq_true_iff] at absolute ⊢
  obtain ⟨rest, isPath⟩ := List.head?_eq_some_iff.mp absolute
  rw [Path.directory, String.toList_ofList, List.head?_reverse, isPath, List.reverse_cons]
  apply getLast?_trim
  -- The slash in front stays, as no more than the last name is dropped.
  rw [List.dropWhile_append]
  split
  · rfl
  · exact List.getLast?_concat

example : Path.directory "//a.conf" = "/" := by decide

end Asn1.Path
