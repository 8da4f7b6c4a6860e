import ScenarioScript.Diagnostic
import ScenarioScript.Host.Basic
import ScenarioScript.PatternCache

/-!
# Evaluators

An evaluator looks up the names of one component, and has an engine for the patterns in its expressions. A variable is
local to the evaluator or comes from its source. A name that is nowhere is reported. A report goes to the log that all
evaluators of a world share, with the place of the statement that is being worked on.
-/

namespace ScenarioScript

/-- Where variables that are not local come from. -/
inductive VariableSource where
  | nowhere
  | host
  | table (table : VarTable)

/-- What becomes of a report. -/
inductive Sink where
  | log
  | discard
deriving DecidableEq, Repr

structure Evaluator (State : Type) where
  component : String
  engine : PatternEngine
  locals : VarTable
  source : VariableSource
  functions : FunctionTable State
  sink : Sink
  origin : Option Origin
  patterns : PatternCache

/-! ## The world of the evaluators -/

structure World (State : Type) where
  host : Host State
  log : Array Diagnostic

variable {State : Type}

/-- A run in the world. One that crashes leaves the world as it was when it crashed. -/
abbrev WorldAction (State : Type) := EStateM Crash (World State)

/-- Runs an operation of the host. -/
def WorldAction.ofHost {α : Type} (action : HostAction State α) : WorldAction State α := fun world =>
  match action world.host with
  | .ok result host => .ok result { world with host }
  | .error crash host => .error crash { world with host }

/-! ## Names -/

def VariableSource.get? (source : VariableSource) (host : Host State) (name : String) : Option Float :=
  match source with
  | nowhere => none
  | .host => host.global? name
  | table known => known.get? name

namespace Evaluator

/-- An evaluator without variables and functions that reports to nobody. -/
def bare (engine : PatternEngine) (component : String) : Evaluator State :=
  ⟨component, engine, .empty, .nowhere, .empty, .discard, none, .empty⟩

/-- A local variable hides one of the source. -/
def lookup? (evaluator : Evaluator State) (host : Host State) (name : String) : Option Float :=
  (evaluator.locals.get? name).or (evaluator.source.get? host name)

def report (evaluator : Evaluator State) (diagnostic : Diagnostic) (world : World State) : World State :=
  match evaluator.sink with
  | .log => { world with log := world.log.push (diagnostic.orAt evaluator.origin) }
  | .discard => world

/-- Reports a problem of the component. -/
def complain (evaluator : Evaluator State) (problem : Problem) (world : World State) : World State :=
  evaluator.report (.about evaluator.component problem) world

/-- The value of a variable, and whether there is one. A name that is nowhere stands for zero, and is reported. -/
def resolve (evaluator : Evaluator State) (name : String) (world : World State) : (Float × Bool) × World State :=
  match evaluator.lookup? world.host name with
  | some value => ((value, true), world)
  | none => ((Number.ofNat 0, false), evaluator.complain (.unknownVariable name) world)

/-- The function of a name. A name that is nowhere has none, and is reported. -/
def function (evaluator : Evaluator State) (name : String) (world : World State) :
    Option (Operation State) × World State :=
  match evaluator.functions.get? name with
  | some operation => (some operation, world)
  | none => (none, evaluator.complain (.callFailure (.unknownFunction name)) world)

/-- Calls a function. A failure is reported as well as returned. -/
def call (evaluator : Evaluator State) (name : String) (args : List Value) :
    WorldAction State (Except CallFailure Value) := do
  match ← modifyGet (evaluator.function name) with
  | none => return .error (.unknownFunction name)
  | some operation =>
    match ← WorldAction.ofHost (operation args) with
    | .ok value => return .ok value
    | .error reason =>
      let failure := .failed name reason
      modify (evaluator.complain (.callFailure failure))
      return .error failure

end Evaluator

end ScenarioScript
