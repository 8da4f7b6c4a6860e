import ScenarioScript.NameTable
import ScenarioScript.Value

/-!
# The host

The host owns the global variables and lends operations to expressions. Beside the globals it has a state of any type.
An operation may read and write both. It answers with a value or with the reason why there is none.
-/

namespace ScenarioScript

abbrev VarTable := NameTable Float

/-- Why a run cannot go on. -/
inductive Crash where
  /-- An interval between bounds of which one is a NaN. -/
  | unorderedBounds
deriving DecidableEq, Repr

structure Host (State : Type) where
  globals : VarTable
  state : State

variable {State : Type}

namespace Host

/-- The global that holds the number of the current tick. -/
def tickName : String := "tick"

/-- The global that holds the position of the own vehicle. -/
def egoPositionName : String := "ego.position"

def setGlobal (host : Host State) (name : String) (value : Float) : Host State :=
  { host with globals := host.globals.set name value }

def global? (host : Host State) (name : String) : Option Float := host.globals.get? name

def beginTick (host : Host State) (tick : Nat) : Host State := host.setGlobal tickName (Number.ofNat tick)

end Host

/-! ## Operations -/

/-- A run on the host. One that crashes leaves the host as it was when it crashed. -/
abbrev HostAction (State : Type) := EStateM Crash (Host State)

abbrev Operation (State : Type) := List Value → HostAction State (Except String Value)

abbrev FunctionTable (State : Type) := NameTable (Operation State)

end ScenarioScript
