import Asn1.Steps
import Mathlib.Order.Defs.Unbundled

/-!
# Steps on a target

What steps come to on a target, one after another up to the first failure. Steps that fail have
still changed the target.
-/

namespace Asn1.Steps

variable {Target Failure Failure' Result Result' : Type} {target : Target}

theorem pure_on (result : Result) :
    (pure result : Steps (StateM Target) Failure Result).on target = (.ok result, target) := rfl

theorem lift_on (action : StateM Target Result) :
    (liftM action : Steps (StateM Target) Failure Result).on target =
      (.ok (action.run target).1, (action.run target).2) := rfl

theorem bind_on (first : Steps (StateM Target) Failure Result)
    (next : Result → Steps (StateM Target) Failure Result') :
    (first >>= next).on target =
      match first.on target with
      | (.ok result, after) => (next result).on after
      | (.error failure, after) => (.error failure, after) := by
  have ends : StateT.run (ExceptT.run first) target = first.on target := rfl
  rw [on, ExceptT.run_bind, StateT.run_bind, ends]
  obtain ⟨result, after⟩ := first.on target
  cases result <;> rfl

theorem recover_on (steps : Steps (StateM Target) Failure Result)
    (handle : Failure → Steps (StateM Target) Failure' Result) :
    (steps.recover handle).on target =
      match steps.on target with
      | (.ok result, after) => (.ok result, after)
      | (.error failure, after) => (handle failure).on after := by
  have ends : StateT.run (ExceptT.run steps) target = steps.on target := rfl
  rw [on, recover, ExceptT.run_mk, StateT.run_bind, ends]
  obtain ⟨result, after⟩ := steps.on target
  cases result <;> rfl

theorem adapt_on (change : Failure → Failure') (steps : Steps (StateM Target) Failure Result) :
    Steps.on (steps.adapt change) target =
      ((steps.on target).1.mapError change, (steps.on target).2) := rfl

/-- What is seen of the target changes as a relation has it, whether or not the steps fail. -/
def Moves {Seen : Type} (relation : Seen → Seen → Prop) (seen : Target → Seen)
    (steps : Steps (StateM Target) Failure Result) : Prop :=
  ∀ target, relation (seen target) (seen (steps.on target).2)

variable {Seen : Type} {relation : Seen → Seen → Prop} [IsPreorder Seen relation]
  {seen : Target → Seen} {first : Steps (StateM Target) Failure Result}

theorem moves_pure (result : Result) :
    (pure result : Steps (StateM Target) Failure Result).Moves relation seen :=
  fun target => refl_of relation (seen target)

theorem moves_throw (failure : Failure) :
    (throw failure : Steps (StateM Target) Failure Result).Moves relation seen :=
  fun target => refl_of relation (seen target)

theorem Moves.bind {next : Result → Steps (StateM Target) Failure Result'}
    (first_moves : first.Moves relation seen)
    (next_moves : ∀ result, (next result).Moves relation seen) :
    (first >>= next).Moves relation seen := by
  intro target
  have moved := first_moves target
  rw [bind_on]
  generalize first.on target = outcome at moved ⊢
  obtain ⟨failure | result, after⟩ := outcome
  · exact moved
  · exact trans_of relation moved (next_moves result after)

theorem Moves.recover {handle : Failure → Steps (StateM Target) Failure' Result}
    (first_moves : first.Moves relation seen)
    (handle_moves : ∀ failure, (handle failure).Moves relation seen) :
    (first.recover handle).Moves relation seen := by
  intro target
  have moved := first_moves target
  rw [recover_on]
  generalize first.on target = outcome at moved ⊢
  obtain ⟨failure | result, after⟩ := outcome
  · exact trans_of relation moved (handle_moves failure after)
  · exact moved

theorem moves_forM {Item : Type} {steps : Item → Steps (StateM Target) Failure Unit}
    (each : ∀ item, (steps item).Moves relation seen) (items : List Item) :
    (forM items steps).Moves relation seen := by
  induction items with
  | nil => exact moves_pure ()
  | cons item items inductionHypothesis => exact (each item).bind fun _ => inductionHypothesis

end Asn1.Steps
