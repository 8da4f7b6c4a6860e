import ScenarioScript.Evaluator.Eval
import ScenarioScript.Statement

/-!
# Scenarios

A scenario holds the statements of a file that can be read. The others are errors of its loading.
A run evaluates the statements one after the other, and a label can make the number of its statement
a global variable for all that follow.
-/

namespace ScenarioScript

structure Scenario where
  file : String
  statements : List Statement

namespace Scenario

/-- The scenario in a text, and the errors in it from front to back. -/
def load (text file : String) : Scenario × List ParseError :=
  let results := Statement.ofTokens (Token.ofText text file)
  (⟨file, results.filterMap Except.toOption⟩,
    results.filterMap fun
      | .ok _ => none
      | .error error => some error)

def size (scenario : Scenario) : Nat := scenario.statements.length

def isEmpty (scenario : Scenario) : Bool := scenario.statements.isEmpty

def get? (scenario : Scenario) (label : String) : Option Statement :=
  scenario.statements.find? fun statement => statement.label = some label

def origin (scenario : Scenario) (statement : Statement) : Origin := ⟨scenario.file, statement.line⟩

end Scenario

/-! ## Runs -/

/-- How the statements of a scenario are run. -/
structure RunMode where
  /-- Whether reports name the place of the statement. -/
  locates : Bool
  /-- Whether labels become globals. -/
  publishes : Bool

structure LabelledEvaluation where
  label : Option String
  evaluation : Evaluation

namespace RunMode

/-- How a simulation runs a scenario at each tick. -/
def simulation : RunMode := ⟨true, true⟩

/-- Gives the number of a labelled statement to the host. -/
def publish {State : Type} (mode : RunMode) (label : Option String) (number : Float) (world : World State) :
    World State :=
  match label with
  | some name =>
    if mode.publishes then { world with host := world.host.setGlobal name number } else world
  | none => world

end RunMode

namespace Scenario

variable {State : Type}

/-- Evaluates one statement. -/
def runStatement (scenario : Scenario) (mode : RunMode) (evaluator : Evaluator State) (statement : Statement) :
    WorldAction State (Evaluation × Evaluator State) := do
  let (evaluation, evaluator) ←
    if mode.locates then evaluator.evaluateAt statement.expr (scenario.origin statement)
    else evaluator.evaluate statement.expr
  modify (mode.publish statement.label evaluation.value.toNumber)
  return (evaluation, evaluator)

/-- Evaluates statements in their order. -/
def runStatements (scenario : Scenario) (mode : RunMode) :
    Evaluator State → List Statement → WorldAction State (List LabelledEvaluation × Evaluator State)
  | evaluator, [] => return ([], evaluator)
  | evaluator, statement :: rest => do
    let (evaluation, evaluator) ← scenario.runStatement mode evaluator statement
    let (evaluations, evaluator) ← scenario.runStatements mode evaluator rest
    return (⟨statement.label, evaluation⟩ :: evaluations, evaluator)

def run (scenario : Scenario) (mode : RunMode) (evaluator : Evaluator State) :
    WorldAction State (List LabelledEvaluation × Evaluator State) :=
  scenario.runStatements mode evaluator scenario.statements

end Scenario

end ScenarioScript
