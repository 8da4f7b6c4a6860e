import ScenarioScript.Number.Order
import ScenarioScript.Number.Text
import ScenarioScript.Text.Blank

/-!
# Values

What an expression stands for: a number or a text. Each reads as the other kind where an operation
asks for it, so every operation is defined on every pair of values.
-/

namespace ScenarioScript

inductive Value where
  | number (value : Float)
  | text (value : String)
deriving BEq, DecidableEq

namespace Value

def zero : Value := .number (Number.ofNat 0)

instance : Inhabited Value := ⟨zero⟩

def ofBool (b : Bool) : Value := .number (Number.ofNat (if b then 1 else 0))

/-! ## Readings -/

/-- A text reads as a number if it spells one between blanks. -/
def spelledNumber? (text : String) : Option Float := Number.readChars? (trim text.toList)

/-- Zero, NaN, the empty text and the text `0` are false. -/
def isTrue : Value → Bool
  | number x => !(x == Number.ofNat 0) && !x.isNaN
  | text s => !s.isEmpty && s != "0"

/-- A text that spells no number reads as zero. -/
def toNumber : Value → Float
  | number x => x
  | text s => (spelledNumber? s).getD (Number.ofNat 0)

def toText : Value → String
  | number x => Number.render x
  | text s => s

def typeName : Value → String
  | number _ => "number"
  | text _ => "string"

/-! ## Arithmetic -/

/-- Two texts are joined. Any other pair is added as numbers. -/
def add : Value → Value → Value
  | text a, text b => text (a ++ b)
  | a, b => number (a.toNumber + b.toNumber)

def sub (a b : Value) : Value := number (a.toNumber - b.toNumber)

def mul (a b : Value) : Value := number (a.toNumber * b.toNumber)

/-- There is no quotient by zero. -/
def div? (a b : Value) : Option Value :=
  if b.toNumber == Number.ofNat 0 then none else some (number (a.toNumber / b.toNumber))

/-- There is no remainder by zero. -/
def rem? (a b : Value) : Option Value :=
  if b.toNumber == Number.ofNat 0 then none
  else some (number (Number.remainder a.toNumber b.toNumber))

def neg (a : Value) : Value := number (-a.toNumber)

/-! ## Comparison -/

/-- Two texts of which at least one spells no number are compared character by character, all other
pairs as numbers. A NaN cannot be compared. -/
def compare? : Value → Value → Option Ordering
  | text a, text b =>
    match spelledNumber? a, spelledNumber? b with
    | some x, some y => Number.compare? x y
    | _, _ => some (Ord.compare a b)
  | a, b => Number.compare? a.toNumber b.toNumber

end Value

end ScenarioScript
