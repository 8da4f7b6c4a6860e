import ScenarioScript.Evaluator.Step
import ScenarioScript.Scenario

/-!
# Sessions

A session is a world with named evaluators and scenarios in it. It goes on in steps, and each step
has an answer and may add to the log. A step that crashes is the last one.
-/

namespace ScenarioScript

variable {State : Type}

structure Session (State : Type) where
  evaluators : NameTable (Evaluator State)
  scenarios : NameTable Scenario

inductive SessionStep (State : Type) where
  | create (name : String) (evaluator : Evaluator State)
  /-- Gives a copy of an evaluator a name of its own. -/
  | clone (source target : String)
  | ask (name : String) (step : EvaluatorStep State)
  | setGlobal (name : String) (value : Float)
  | getGlobal (name : String)
  | beginTick (tick : Nat)
  | load (scenario text file : String)
  | run (evaluator scenario : String) (mode : RunMode)

inductive SessionAnswer (State : Type) where
  | done
  | evaluator (answer : EvaluatorAnswer State)
  | global (value : Option Float)
  | loaded (scenario : Scenario) (errors : List ParseError)
  | ran (results : List LabelledEvaluation)
  /-- No evaluator or scenario has the name. -/
  | absent

namespace Session

def empty : Session State := ⟨.empty, .empty⟩

def setEvaluator (session : Session State) (name : String) (evaluator : Evaluator State) : Session State :=
  { session with evaluators := session.evaluators.set name evaluator }

/-- The answer to a step, and the session after it. -/
def step (session : Session State) : SessionStep State → WorldAction State (SessionAnswer State × Session State)
  | .create name evaluator => return (.done, session.setEvaluator name evaluator)
  | .clone source target =>
    match session.evaluators.get? source with
    | some evaluator => return (.done, session.setEvaluator target evaluator)
    | none => return (.absent, session)
  | .ask name step =>
    match session.evaluators.get? name with
    | some evaluator => do
      let (answer, evaluator) ← evaluator.step step
      return (.evaluator answer, session.setEvaluator name evaluator)
    | none => return (.absent, session)
  | .setGlobal name value => do
    modify fun world => { world with host := world.host.setGlobal name value }
    return (.done, session)
  | .getGlobal name => return (.global ((← get).host.global? name), session)
  | .beginTick tick => do
    modify fun world => { world with host := world.host.beginTick tick }
    return (.done, session)
  | .load name text file =>
    let (scenario, errors) := Scenario.load text file
    return (.loaded scenario errors,
      { session with scenarios := session.scenarios.set name scenario })
  | .run evaluator scenario mode =>
    match session.evaluators.get? evaluator, session.scenarios.get? scenario with
    | some found, some scenario => do
      let (results, after) ← scenario.run mode found
      return (.ran results, session.setEvaluator evaluator after)
    | _, _ => return (.absent, session)

/-- What a session shows of a step: its answer, or nothing if it crashed, and what it logged. -/
structure Shown (State : Type) where
  answer : Option (SessionAnswer State)
  logged : List Diagnostic

/-- Goes through steps up to the first that crashes. -/
def run (session : Session State) : World State → List (SessionStep State) → List (Shown State)
  | _, [] => []
  | world, step :: steps =>
    let logged (after : World State) := after.log.toList.drop world.log.size
    match session.step step world with
    | .ok (answer, session) after => ⟨some answer, logged after⟩ :: session.run after steps
    | .error _ after => [⟨none, logged after⟩]

end Session

end ScenarioScript
