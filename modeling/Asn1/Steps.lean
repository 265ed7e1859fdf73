/-!
Steps that end at the first failure, in whatever monad a program runs.
-/

namespace Asn1

abbrev Steps (m : Type → Type) (Failure : Type) := ExceptT Failure m

namespace Steps

variable {Target Failure Failure' Result : Type}

def on (steps : Steps (StateM Target) Failure Result) (target : Target) :
    Except Failure Result × Target :=
  StateT.run (ExceptT.run steps) target

variable {m : Type → Type} [Monad m]

/-- Goes on with other steps after a failure. -/
def recover (steps : Steps m Failure Result) (handle : Failure → Steps m Failure' Result) :
    Steps m Failure' Result :=
  ExceptT.mk do
    match ← ExceptT.run steps with
    | .ok result => return .ok result
    | .error failure => ExceptT.run (handle failure)

end Steps

end Asn1
