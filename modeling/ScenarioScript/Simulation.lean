import ScenarioScript.Scenario

/-!
# Simulations

A simulation runs a scenario at every tick, with one evaluator and one world for all ticks. It keeps
a record of each evaluation. If it crashes, the records up to the crash remain.
-/

namespace ScenarioScript

/-- How a statement came out at a tick. -/
structure Record where
  tick : Nat
  /-- Its label, or its number. -/
  name : String
  evaluation : Evaluation

/-- The record as a line of output. The tick is shown if there are several. -/
def Record.line (showsTick : Bool) (record : Record) : String :=
  (if showsTick then "[" ++ toString record.tick ++ "] " else "") ++
    record.name ++ " = " ++ record.evaluation.value.toText

/-- How a statement without a label is named by its index. -/
def Statement.name (statement : Statement) (index : Nat) : String :=
  statement.label.getD ("#" ++ toString (index + 1))

structure Simulation where
  world : World Unit
  evaluator : Evaluator Unit
  records : Array Record

namespace Simulation

abbrev Action := EStateM Crash Simulation Unit

def start (globals : VarTable) (evaluator : Evaluator Unit) : Simulation :=
  ⟨⟨⟨globals, ()⟩, #[]⟩, evaluator, #[]⟩

def report (diagnostic : Diagnostic) (simulation : Simulation) : Simulation :=
  { simulation with world := simulation.evaluator.report diagnostic simulation.world }

def runStatement (scenario : Scenario) (tick index : Nat) (statement : Statement) : Action :=
  fun simulation =>
    let action := scenario.runStatement .simulation simulation.evaluator statement
    match action simulation.world with
    | .ok (evaluation, evaluator) world =>
      let record := ⟨tick, statement.name index, evaluation⟩
      .ok () ⟨world, evaluator, simulation.records.push record⟩
    | .error crash world => .error crash { simulation with world }

/-- Runs statements of which the first has the given index. -/
def runStatements (scenario : Scenario) (tick : Nat) : (index : Nat) → List Statement → Action
  | _, [] => return
  | index, statement :: rest => do
    runStatement scenario tick index statement
    runStatements scenario tick (index + 1) rest

def beginTick (tick : Nat) (simulation : Simulation) : Simulation :=
  { simulation with world :=
      { simulation.world with host := simulation.world.host.beginTick tick } }

def runTick (scenario : Scenario) (tick : Nat) : Action := do
  modify (beginTick tick)
  runStatements scenario tick 0 scenario.statements

/-- Runs a number of ticks of which the first is given. -/
def runTicks (scenario : Scenario) : (first count : Nat) → Action
  | _, 0 => return
  | first, count + 1 => do
    runTick scenario first
    runTicks scenario (first + 1) count

/-- Whether a call failed at some tick. -/
def hasFailed (simulation : Simulation) : Bool :=
  simulation.records.any fun record => !record.evaluation.isOk

end Simulation

end ScenarioScript
