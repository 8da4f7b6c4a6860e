import ScenarioScript.Host.Basic

/-!
# Standard functions

Functions on numbers and texts that every host can lend. They do not touch the host. One more
function measures the distance to the own vehicle and reads its position from the globals.
-/

namespace ScenarioScript

/-- Why a standard function has no value. -/
inductive ArgumentFault where
  | missing (function : String) (index : Nat)
  | negativeRoot (x : Float)
  | crossedBounds (low high : Float)
deriving DecidableEq

def ArgumentFault.message : ArgumentFault → String
  | missing function index => function ++ ": argument " ++ toString index ++ " missing"
  | negativeRoot x => "sqrt: negative argument " ++ Number.render x
  | crossedBounds low high =>
    "clamp: lower bound " ++ Number.render low ++ " above upper bound " ++ Number.render high

namespace Standard

abbrev Result := ExceptT ArgumentFault (Except Crash)

def argument (function : String) (args : List Value) (index : Nat) : Result Value :=
  match args[index]? with
  | some value => return value
  | none => throw (.missing function index)

/-- An argument read as a number. -/
def number (function : String) (args : List Value) (index : Nat) : Result Float :=
  Value.toNumber <$> argument function args index

def sqrt (args : List Value) : Result Value := do
  let x ← number "sqrt" args 0
  if x < Number.ofNat 0 then throw (.negativeRoot x)
  return .number x.sqrt

def pow (args : List Value) : Result Value := do
  let base ← number "pow" args 0
  let exponent ← number "pow" args 1
  return .number (base.pow exponent)

/-- Puts all arguments together from left to right. -/
def foldNumbers (function : String) (combine : Float → Float → Float) (args : List Value) :
    Result Value := do
  let first ← number function args 0
  return .number ((args.tail.map Value.toNumber).foldl combine first)

def clamp (args : List Value) : Result Value := do
  let x ← number "clamp" args 0
  let low ← number "clamp" args 1
  let high ← number "clamp" args 2
  if high < low then throw (.crossedBounds low high)
  if low.isNaN || high.isNaN then ExceptT.lift (throw .unorderedBounds)
  return .number (Number.clamp x low high)

def map (function : String) (f : Float → Float) (args : List Value) : Result Value :=
  (fun x => Value.number (f x)) <$> number function args 0

/-- The number of characters. -/
def strlen (args : List Value) : Result Value := do
  let text ← argument "strlen" args 0
  return .number (Number.ofNat text.toText.length)

def strcat (args : List Value) : Result Value :=
  return .text (String.join (args.map Value.toText))

def functions : List (String × (List Value → Result Value)) :=
  [("abs", map "abs" Float.abs),
    ("sqrt", sqrt),
    ("floor", map "floor" Float.floor),
    ("ceil", map "ceil" Float.ceil),
    ("round", map "round" Float.round),
    ("pow", pow),
    ("min", foldNumbers "min" Number.least),
    ("max", foldNumbers "max" Number.greatest),
    ("clamp", clamp),
    ("strlen", strlen),
    ("strcat", strcat)]

/-- The answer of a function to its caller. -/
def Result.toAnswer (result : Result Value) : Except Crash (Except String Value) := do
  match ← result.run with
  | .ok value => return .ok value
  | .error fault => return .error fault.message

def toOperation {State : Type} (f : List Value → Result Value) : Operation State := fun args =>
  match (f args).toAnswer with
  | .ok answer => return answer
  | .error crash => throw crash

end Standard

namespace FunctionTable

variable {State : Type}

def standard : FunctionTable State :=
  .ofList (Standard.functions.map fun (name, f) => (name, Standard.toOperation f))

/-- The distance from a position to the own vehicle, which is at zero unless the host knows. -/
def distanceTo : Operation State := fun args => do
  let host ← get
  Standard.toOperation (Standard.map "distanceTo" fun position =>
    (position - (host.global? Host.egoPositionName).getD (Number.ofNat 0)).abs) args

/-- The functions of a simulation. -/
def simulation : FunctionTable State := standard.set "distanceTo" distanceTo

end FunctionTable

end ScenarioScript
