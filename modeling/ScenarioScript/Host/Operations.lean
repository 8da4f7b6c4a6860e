import ScenarioScript.Host.Basic

/-!
# Simple operations

Small operations that a host can lend beside the standard functions.
-/

namespace ScenarioScript.Operation

variable {State : Type}

def constant (value : Value) : Operation State := fun _ => return .ok value

def failing (reason : String) : Operation State := fun _ => return .error reason

/-- The first argument, or zero without arguments. -/
def firstArgument : Operation State := fun args => return .ok (args.headD .zero)

def argumentCount : Operation State := fun args => return .ok (.number (Number.ofNat args.length))

def readGlobal (name : String) : Operation State := fun _ => do
  match (← get).global? name with
  | some value => return .ok (.number value)
  | none => return .error ("no global " ++ name)

/-- Sets a global to the first argument, or to zero without arguments. -/
def writeGlobal (name : String) : Operation State := fun args => do
  let value := (args.headD .zero).toNumber
  modify fun host => host.setGlobal name value
  return .ok (.number value)

end ScenarioScript.Operation
