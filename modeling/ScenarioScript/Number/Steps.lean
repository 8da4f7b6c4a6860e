/-!
# Doubles as whole counts

Every finite double is a whole number of steps of `2 ^ (-1074)`. Its bit pattern without the sign
is its rank among the doubles from zero upwards, so to round a fraction is to find a rank, and that
needs only natural numbers.
-/

namespace ScenarioScript.Number

/-- How many steps make one. -/
def stepsPerOne : Nat := Nat.pow 2 1074

/-- How many ranks make a block. The steps between neighbours are the same all over a block. -/
def blockSize : Nat := Nat.pow 2 52

/-- The rank of infinity. The finite doubles come before it, and no number comes after it. -/
def infinityRank : Nat := 2047 * blockSize

/-- The rank of the NaN that results from operations. -/
def nanRank : Nat := infinityRank + Nat.pow 2 51

/-! ## Ranks and steps -/

/-- How far from zero the double of a rank is. From rank to rank the distance is one step at first,
and it doubles with every block from the third on. -/
def stepsAt (rank : Nat) : Nat :=
  match rank / blockSize with
  | 0 => rank
  | block + 1 => (blockSize + rank % blockSize) * Nat.pow 2 block

/-- The whole number nearest to a quotient. A half goes to the even neighbour. -/
def roundQuotient (num den : Nat) : Nat :=
  let whole := num / den
  let twice := 2 * (num % den)
  if twice < den then whole
  else if twice = den then whole + whole % 2
  else whole + 1

/-- The rank of the double nearest to `num / den` steps. A tie goes to the even rank. -/
def nearestRank (num den : Nat) : Nat :=
  let block := (num / den).log2 - 52
  min infinityRank (block * blockSize + roundQuotient num (den * Nat.pow 2 block))

/-! ## Signs -/

def signBit : Nat := Nat.pow 2 63

/-- The distance of a double from zero as a rank. A NaN has a rank beyond that of infinity. -/
def rank (x : Float) : Nat := x.toBits.toNat % signBit

/-- Whether the sign is set. Zero has both signs. -/
def isNegative (x : Float) : Bool := signBit ≤ x.toBits.toNat

def ofRank (negative : Bool) (rank : Nat) : Float :=
  Float.ofBits (UInt64.ofNat (if negative then signBit + rank else rank))

def notANumber : Float := ofRank false nanRank

def ofNat (n : Nat) : Float := ofRank false (nearestRank (n * stepsPerOne) 1)

end ScenarioScript.Number
