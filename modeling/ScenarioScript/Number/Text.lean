import ScenarioScript.Number.Decimal

/-!
# The text of a number

Numbers are written in positional notation, never with an exponent, and with the fewest digits that
read back to the same double. Reading takes more: an exponent, a point at either end of the digits,
and the words `inf`, `infinity` and `nan` in any mixture of cases.
-/

namespace ScenarioScript.Number

/-! ## Writing -/

/-- Digits with the point `count` places from the right, and no zeros at the end of the fraction. -/
def withPoint (digits : List Char) (count : Nat) : List Char :=
  let padded := List.replicate (count + 1 - digits.length) '0' ++ digits
  let split := padded.length - count
  let fraction := ((padded.drop split).reverse.dropWhile (· == '0')).reverse
  padded.take split ++ (if fraction.isEmpty then [] else '.' :: fraction)

def positional (d : Decimal) : List Char :=
  let digits := Nat.toDigits 10 d.digits
  if 0 ≤ d.exponent then digits ++ List.replicate d.exponent.toNat '0'
  else withPoint digits (-d.exponent).toNat

/-- The text of a double without its sign. -/
def unsigned (rank : Nat) : List Char :=
  if rank = 0 then ['0']
  else if rank < infinityRank then positional (Decimal.shortest rank)
  else "inf".toList

/-- The text of a double. A NaN has no sign, a zero has one. -/
def render (x : Float) : String :=
  if x.isNaN then "NaN"
  else String.ofList (if isNegative x then '-' :: unsigned (rank x) else unsigned (rank x))

/-! ## Reading -/

def digitsValue (digits : List Char) : Nat :=
  digits.foldl (fun value c => value * 10 + (c.toNat - '0'.toNat)) 0

/-- The exponent part at the end of a number, which may be missing. -/
def readExponent? : List Char → Option Int
  | [] => some 0
  | e :: text =>
    let (negative, digits) := match text with
      | '-' :: digits => (true, digits)
      | '+' :: digits => (false, digits)
      | digits => (false, digits)
    if (e = 'e' ∨ e = 'E') ∧ digits ≠ [] ∧ digits.all Char.isDigit then
      some (if negative then -(digitsValue digits) else digitsValue digits)
    else none

/-- Digits with an optional point and exponent. At least one digit stands before the exponent. -/
def readDecimal? (text : List Char) : Option Decimal :=
  let whole := text.takeWhile Char.isDigit
  let afterWhole := text.dropWhile Char.isDigit
  let (fraction, rest) := match afterWhole with
    | '.' :: more => (more.takeWhile Char.isDigit, more.dropWhile Char.isDigit)
    | more => ([], more)
  if whole = [] ∧ fraction = [] then none
  else (readExponent? rest).map fun exponent =>
    ⟨digitsValue (whole ++ fraction), exponent - fraction.length⟩

/-- A number without its sign, as a rank. -/
def readUnsigned? (text : List Char) : Option Nat :=
  let word := String.ofList (text.map Char.toLower)
  if word = "inf" ∨ word = "infinity" then some infinityRank
  else if word = "nan" then some nanRank
  else (readDecimal? text).map Decimal.nearestRank

def readChars? : List Char → Option Float
  | '-' :: text => (readUnsigned? text).map (ofRank true)
  | '+' :: text => (readUnsigned? text).map (ofRank false)
  | text => (readUnsigned? text).map (ofRank false)

/-- The number that a text spells, if the whole text spells one. -/
def read? (text : String) : Option Float := readChars? text.toList

end ScenarioScript.Number
