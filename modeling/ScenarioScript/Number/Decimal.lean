import ScenarioScript.Number.Steps

/-!
# Decimals

A decimal is a natural number times a power of ten. This module finds the double nearest to a
decimal, and the shortest decimal whose nearest double is a given one.
-/

namespace ScenarioScript

/-- The number `digits * 10 ^ exponent`. -/
structure Decimal where
  digits : Nat
  exponent : Int
deriving DecidableEq, Repr

namespace Decimal

open Number

/-! ## From a decimal to the nearest double -/

/-- The factor of ten above the line when `exponent` is positive. -/
def above (exponent : Int) : Nat := Nat.pow 10 exponent.toNat

/-- The factor of ten below the line when `exponent` is negative. -/
def below (exponent : Int) : Nat := Nat.pow 10 (-exponent).toNat

/-- The rank of the nearest double. Decimals far out of range are settled without their powers of
ten: `10 ^ 310` is beyond every double, and `10 ^ (-324)` is less than half a step. -/
def nearestRank (d : Decimal) : Nat :=
  if d.digits = 0 then 0
  else if 310 ≤ d.exponent then infinityRank
  else if d.exponent + (d.digits.log2 / 3 + 1) < -323 then 0
  else Number.nearestRank (d.digits * above d.exponent * stepsPerOne) (below d.exponent)

/-! ## From a double to the shortest decimal -/

/-- Whether the nearest double has the given rank. The two ends of the interval lie half way to the
neighbours and belong to the even rank. -/
def roundsTo (rank : Nat) (d : Decimal) : Bool :=
  let value := 2 * d.digits * above d.exponent * stepsPerOne
  let low := (stepsAt (rank - 1) + stepsAt rank) * below d.exponent
  let high := (stepsAt rank + stepsAt (rank + 1)) * below d.exponent
  if rank % 2 = 0 then low ≤ value && value ≤ high else low < value && value < high

/-- How many digits stand before the point, negative if zeros follow it. -/
def place (rank : Nat) : Int :=
  let digitCount (n : Nat) : Int := (Nat.toDigits 10 n).length
  if stepsPerOne ≤ stepsAt rank then digitCount (stepsAt rank / stepsPerOne)
  else digitCount (stepsAt rank * Nat.pow 10 324 / stepsPerOne) - 324

/-- The best multiple of `10 ^ exponent` that rounds to the given rank: the nearer one of the two
next to the double itself. Of two equally near ones it is the larger. -/
def onGrid? (rank : Nat) (exponent : Int) : Option Decimal :=
  let num := stepsAt rank * below exponent
  let den := stepsPerOne * above exponent
  let lower : Decimal := ⟨num / den, exponent⟩
  let upper : Decimal := ⟨num / den + 1, exponent⟩
  match roundsTo rank lower, roundsTo rank upper with
  | true, true => some (if 2 * (num % den) < den then lower else upper)
  | true, false => some lower
  | false, true => some upper
  | false, false => none

/-- All digits of the double, of which there are at most 767. -/
def exact (rank : Nat) : Decimal := ⟨stepsAt rank * Nat.pow 5 1074, -1074⟩

/-- The decimal with the fewest digits that rounds to the given rank. -/
def shortest (rank : Nat) : Decimal :=
  let place := place rank
  ((List.range 17).findSome? fun (i : Nat) => onGrid? rank (place - (i + 1))).getD (exact rank)

end Decimal

end ScenarioScript
