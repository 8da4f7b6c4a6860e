import ScenarioScript.Number.Steps

/-!
# Order and remainder of numbers

Comparison has no answer for a NaN. The smaller and the larger of two numbers ignore a NaN, and the
remainder is exact.
-/

namespace ScenarioScript.Number

def compare? (x y : Float) : Option Ordering :=
  if x < y then some .lt else if x == y then some .eq else if y < x then some .gt else none

/-- The smaller of two numbers, the first one if they are equal. A NaN gives way to the other. -/
def least (x y : Float) : Float := if x.isNaN || y < x then y else x

/-- The larger of two numbers, the first one if they are equal. A NaN gives way to the other. -/
def greatest (x y : Float) : Float := if x.isNaN || x < y then y else x

/-- The number in an interval that is nearest to `x`. A NaN stays. -/
def clamp (x low high : Float) : Float :=
  let x := if x < low then low else x
  if high < x then high else x

/-- What is left of `x` after taking away `y` as often as possible, with the sign of `x`. Both are
whole numbers of steps, so nothing is rounded. -/
def remainder (x y : Float) : Float :=
  if rank y = 0 || infinityRank ≤ rank x || infinityRank < rank y then notANumber
  else if rank y = infinityRank then x
  else ofRank (isNegative x) (nearestRank (stepsAt (rank x) % stepsAt (rank y)) 1)

end ScenarioScript.Number
