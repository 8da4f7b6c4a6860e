import ScenarioScript.Evaluator.Basic
import ScenarioScript.Expr.Grammar
import ScenarioScript.Glob

/-!
# Evaluation

Evaluation always ends with a value. Where an operation has no value, zero stands for it, and the
world is told. Results that are not finite numbers count as missing too. Calls that fail are listed
beside the value in the order in which they were made.

Operands and arguments are evaluated from left to right. Of a conditional only the chosen branch is
evaluated, and the right operand of `&&` and `||` only if the left one does not decide.
-/

namespace ScenarioScript

/-! ## Results -/

structure Evaluation where
  value : Value
  failures : List CallFailure
deriving DecidableEq

namespace Evaluation

def isOk (evaluation : Evaluation) : Bool := evaluation.failures.isEmpty

/-- The value, or the first failure. -/
def toExcept (evaluation : Evaluation) : Except CallFailure Value :=
  match evaluation.failures with
  | [] => .ok evaluation.value
  | failure :: _ => .error failure

end Evaluation

/-- What changes while an expression is evaluated. -/
structure Pass (State : Type) where
  world : World State
  patterns : PatternCache
  failures : Array CallFailure

abbrev Eval (State : Type) := EStateM Crash (Pass State)

variable {State : Type}

def Eval.ofWorld {α : Type} (action : WorldAction State α) : Eval State α := fun pass =>
  match action pass.world with
  | .ok result world => .ok result { pass with world }
  | .error crash world => .error crash { pass with world }

/-! ## Operators -/

/-- Whether a comparison holds of two operands in a given order. Of operands without an order only
`!=` holds. -/
def BinaryOp.holds : BinaryOp → Option Ordering → Bool
  | eq, order => order == some .eq
  | ne, order => order != some .eq
  | lt, order => order == some .lt
  | le, order => order == some .lt || order == some .eq
  | gt, order => order == some .gt
  | ge, order => order == some .gt || order == some .eq
  | _, _ => false

namespace Evaluator

/-- Puts zero for a missing value and tells why it is missing. -/
def missing (evaluator : Evaluator State) (problem : Problem) : Eval State Value := do
  Eval.ofWorld (modify (evaluator.complain problem))
  return .zero

/-- Lets texts and finite numbers pass. -/
def finite (evaluator : Evaluator State) (maker : String) : Value → Eval State Value
  | .number x =>
    if x.isFinite then return .number x else evaluator.missing (.notFinite maker)
  | .text s => return .text s

/-- Whether a text matches a pattern, if the pattern can be read. -/
def patternMatch (evaluator : Evaluator State) (pattern text : String) : Eval State (Option Bool) := do
  let answer := (← get).patterns.find evaluator.engine pattern
  modify fun pass => { pass with patterns := answer.cache }
  if let some error := answer.error then
    Eval.ofWorld (modify (evaluator.complain (.badPattern pattern error)))
  return answer.matcher.map (· text)

def combine (evaluator : Evaluator State) (op : BinaryOp) (a b : Value) : Eval State Value :=
  match op with
  | .add => evaluator.finite op.symbol.text (a.add b)
  | .sub => evaluator.finite op.symbol.text (a.sub b)
  | .mul => evaluator.finite op.symbol.text (a.mul b)
  | .div =>
    match a.div? b with
    | some quotient => evaluator.finite op.symbol.text quotient
    | none => evaluator.missing .divisionByZero
  | .rem =>
    match a.rem? b with
    | some remainder => evaluator.finite op.symbol.text remainder
    | none => evaluator.missing .remainderByZero
  | .eq | .ne | .lt | .le | .gt | .ge => return .ofBool (op.holds (a.compare? b))
  | .globMatch => return .ofBool (Glob.isMatch b.toText.toList a.toText.toList)
  | .notGlobMatch => return .ofBool !(Glob.isMatch b.toText.toList a.toText.toList)
  | .patternMatch => return ((← evaluator.patternMatch b.toText a.toText).map .ofBool).getD .zero
  | .notPatternMatch =>
    return ((← evaluator.patternMatch b.toText a.toText).map fun m => .ofBool !m).getD .zero
  | .and => return .ofBool (a.isTrue && b.isTrue)
  | .or => return .ofBool (a.isTrue || b.isTrue)

def apply (evaluator : Evaluator State) : UnaryOp → Value → Eval State Value
  | .neg, value => evaluator.finite UnaryOp.neg.symbol.text value.neg
  | .not, value => return .ofBool !value.isTrue

def callNoting (evaluator : Evaluator State) (name : String) (args : List Value) : Eval State Value := do
  match ← Eval.ofWorld (evaluator.call name args) with
  | .ok value => evaluator.finite name value
  | .error failure =>
    modify fun pass => { pass with failures := pass.failures.push failure }
    return .zero

/-! ## Expressions -/

mutual

def eval (evaluator : Evaluator State) : Expr → Eval State Value
  | .literal value => return value
  | .var name => do
    let (value, _) ← Eval.ofWorld (modifyGet (evaluator.resolve name))
    return .number value
  | .call name args => do
    let values ← evaluator.evalAll args
    evaluator.callNoting name values
  | .unary op operand => do
    let value ← evaluator.eval operand
    evaluator.apply op value
  | .binary .and left right => do
    let a ← evaluator.eval left
    if a.isTrue then
      let b ← evaluator.eval right
      return .ofBool b.isTrue
    else return .ofBool false
  | .binary .or left right => do
    let a ← evaluator.eval left
    if a.isTrue then return .ofBool true
    else
      let b ← evaluator.eval right
      return .ofBool b.isTrue
  | .binary op left right => do
    let a ← evaluator.eval left
    let b ← evaluator.eval right
    evaluator.combine op a b
  | .conditional condition yes no => do
    let value ← evaluator.eval condition
    if value.isTrue then evaluator.eval yes else evaluator.eval no

def evalAll (evaluator : Evaluator State) : List Expr → Eval State (List Value)
  | [] => return []
  | e :: es => do
    let value ← evaluator.eval e
    let values ← evaluator.evalAll es
    return value :: values

end

/-- Evaluates an expression. The evaluator comes back with the patterns that it has met. -/
def evaluate (evaluator : Evaluator State) (e : Expr) : WorldAction State (Evaluation × Evaluator State) :=
  fun world =>
    match evaluator.eval e ⟨world, evaluator.patterns, #[]⟩ with
    | .ok value pass =>
      .ok (⟨value, pass.failures.toList⟩, { evaluator with patterns := pass.patterns }) pass.world
    | .error crash pass => .error crash pass.world

def evaluateAt (evaluator : Evaluator State) (e : Expr) (origin : Origin) :
    WorldAction State (Evaluation × Evaluator State) := do
  let (evaluation, after) ← { evaluator with origin := some origin }.evaluate e
  return (evaluation, { after with origin := evaluator.origin })

/-- Reads and evaluates a text. Errors of reading name the component as the file. -/
def evaluateText (evaluator : Evaluator State) (text : String) :
    WorldAction State (Except ParseError Evaluation × Evaluator State) := do
  match Expr.parse text evaluator.component with
  | .error error => return (.error error, evaluator)
  | .ok e =>
    let (evaluation, after) ← evaluator.evaluate e
    return (.ok evaluation, after)

end Evaluator

end ScenarioScript
