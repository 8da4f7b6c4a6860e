import ScenarioScript.Evaluator.Eval
import ScenarioScript.Host.Functions

/-!
# Steps of an evaluator

What can be asked of an evaluator one step at a time, and what it answers. A step on one evaluator
changes no other. What it writes to the host and to the log is seen by all.
-/

namespace ScenarioScript

variable {State : Type}

inductive EvaluatorStep (State : Type) where
  | setLocal (name : String) (value : Float)
  | unsetLocal (name : String)
  | locals
  | resolve (name : String)
  | findFunction (name : String)
  | functions
  | bind (name : String) (operation : Operation State)
  | call (name : String) (args : List Value)
  | origin
  | replaceOrigin (origin : Option Origin)
  | report (diagnostic : Diagnostic)
  | complain (problem : Problem) (origin : Option Origin)
  | evaluate (expr : Expr)
  | evaluateAt (expr : Expr) (origin : Origin)
  | evaluateText (text : String)
  /-- Reads a text of no file and evaluates it as if it had been written at a place. -/
  | evaluateTextAt (text : String) (origin : Origin)

inductive EvaluatorAnswer (State : Type) where
  | done
  | locals (table : VarTable)
  | unset (wasThere : Bool) (locals : VarTable)
  | resolved (value : Float) (isFound : Bool)
  | foundFunction (isFound isBound : Bool)
  | functions (table : FunctionTable State)
  | called (result : Except CallFailure Value)
  | origin (origin : Option Origin)
  | evaluated (result : Except ParseError Evaluation)

namespace Evaluator

/-- An evaluator with the globals and all functions of the simulation, which writes to the log. -/
def simulation (engine : PatternEngine) (component : String) : Evaluator State :=
  { (bare engine component : Evaluator State) with source := .host, functions := .simulation, sink := .log }

def setLocal (evaluator : Evaluator State) (name : String) (value : Float) : Evaluator State :=
  { evaluator with locals := evaluator.locals.set name value }

def unsetLocal (evaluator : Evaluator State) (name : String) : Evaluator State :=
  { evaluator with locals := evaluator.locals.erase name }

def bind (evaluator : Evaluator State) (name : String) (operation : Operation State) : Evaluator State :=
  { evaluator with functions := evaluator.functions.set name operation }

/-- Reads a text of no file and evaluates it as if it had been written at a place. -/
def evaluateTextAt (evaluator : Evaluator State) (text : String) (origin : Origin) :
    WorldAction State (Except ParseError Evaluation × Evaluator State) := do
  match Expr.parse text ParseError.unnamedFile with
  | .error error => return (.error error, evaluator)
  | .ok e =>
    let (evaluation, after) ← evaluator.evaluateAt e origin
    return (.ok evaluation, after)

/-- The answer to a step, and the evaluator after it. -/
def step (evaluator : Evaluator State) :
    EvaluatorStep State → WorldAction State (EvaluatorAnswer State × Evaluator State)
  | .setLocal name value =>
    let after := evaluator.setLocal name value
    return (.locals after.locals, after)
  | .unsetLocal name =>
    let after := evaluator.unsetLocal name
    return (.unset (evaluator.locals.contains name) after.locals, after)
  | .locals => return (.locals evaluator.locals, evaluator)
  | .resolve name => do
    let (value, isFound) ← modifyGet (evaluator.resolve name)
    return (.resolved value isFound, evaluator)
  | .findFunction name => do
    let found ← modifyGet (evaluator.function name)
    return (.foundFunction found.isSome (evaluator.functions.contains name), evaluator)
  | .functions => return (.functions evaluator.functions, evaluator)
  | .bind name operation => return (.done, evaluator.bind name operation)
  | .call name args => return (.called (← evaluator.call name args), evaluator)
  | .origin => return (.origin evaluator.origin, evaluator)
  | .replaceOrigin origin => return (.origin evaluator.origin, { evaluator with origin })
  | .report diagnostic => do
    modify (evaluator.report diagnostic)
    return (.done, evaluator)
  | .complain problem origin => do
    modify (evaluator.report { Diagnostic.about evaluator.component problem with origin })
    return (.done, evaluator)
  | .evaluate e => do
    let (evaluation, after) ← evaluator.evaluate e
    return (.evaluated (.ok evaluation), after)
  | .evaluateAt e origin => do
    let (evaluation, after) ← evaluator.evaluateAt e origin
    return (.evaluated (.ok evaluation), after)
  | .evaluateText text => do
    let (result, after) ← evaluator.evaluateText text
    return (.evaluated result, after)
  | .evaluateTextAt text origin => do
    let (result, after) ← evaluator.evaluateTextAt text origin
    return (.evaluated result, after)

end Evaluator

end ScenarioScript
