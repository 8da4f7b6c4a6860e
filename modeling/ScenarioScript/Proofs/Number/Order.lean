import ScenarioScript.Number.Order
import ScenarioScript.Proofs.Number.Bits
import ScenarioScript.Proofs.Number.Rounding

/-!
# The order of numbers

Doubles are ordered by how many steps they stand from zero. The infinities stand beyond all others, and a
NaN stands nowhere.
-/

namespace ScenarioScript.Number

open Float.Model (Format)
open Float.Model.UnpackedFloat

/-- How many steps a number stands from zero. Negative numbers stand on the other side. -/
def steps (x : Float) : Int := if isNegative x then -stepsAt (rank x) else stepsAt (rank x)

/-! ## Unpacked numbers -/

def onSide (sign : Sign) (distance : Int) : Int :=
  match sign with
  | .negative => -distance
  | .positive => distance

/-- The rank of a number that is so many units of a power of two, beginning with the smallest step. -/
def unitRank (mantissa : Nat) (exponent : Int) : Int := (exponent + 1074) * 2 ^ 52 + mantissa

/-- The rank of an unpacked number with its sign. -/
def place : Float.Model.UnpackedFloat → Int
  | .infinity sign => onSide sign infinityRank
  | .notANumber | .zero _ => 0
  | .finite sign mantissa exponent _ => onSide sign (unitRank mantissa exponent)

/-- The units of a number are as large as they can be, and as small as the smallest step at most. -/
def IsCanonical : Float.Model.UnpackedFloat → Prop
  | .finite _ mantissa exponent _ =>
    -1074 ≤ exponent ∧ exponent ≤ 971 ∧ mantissa < 2 ^ 53 ∧ (exponent = -1074 ∨ 2 ^ 52 ≤ mantissa)
  | _ => True

theorem unitRank_bounds {sign : Sign} {mantissa : Nat} {exponent : Int} {hpos : 0 < mantissa}
    (h : IsCanonical (finite sign mantissa exponent hpos)) :
    0 < unitRank mantissa exponent ∧ unitRank mantissa exponent < infinityRank := by
  obtain ⟨hlow, hhigh, hmantissa, -⟩ := h
  unfold unitRank
  change _ ∧ _ < ((2047 * 2 ^ 52 : Nat) : Int)
  omega

theorem compare_unitRank {sign sign' : Sign} {m m' : Nat} {e e' : Int} {hpos : 0 < m} {hpos' : 0 < m'}
    (h : IsCanonical (finite sign m e hpos)) (h' : IsCanonical (finite sign' m' e' hpos')) :
    (compare e e').then (compare m m') = compare (unitRank m e) (unitRank m' e') := by
  obtain ⟨hlow, -, hm, hunit⟩ := h
  obtain ⟨hlow', -, hm', hunit'⟩ := h'
  unfold unitRank
  rcases Int.lt_trichotomy e e' with hlt | rfl | hgt
  · rw [Int.compare_eq_lt.2 hlt, Int.compare_eq_lt.2 (by omega)]
    rfl
  · rw [Int.compare_eq_eq.2 rfl, Ordering.then]
    rcases Nat.lt_trichotomy m m' with hlt | rfl | hgt
    · rw [Nat.compare_eq_lt.2 hlt, Int.compare_eq_lt.2 (by omega)]
    · rw [Nat.compare_eq_eq.2 rfl, Int.compare_eq_eq.2 rfl]
    · rw [Nat.compare_eq_gt.2 hgt, Int.compare_eq_gt.2 (by omega)]
  · rw [Int.compare_eq_gt.2 hgt, Int.compare_eq_gt.2 (by omega)]
    rfl

theorem compare_congr {a b c d : Int} (hlt : a < b ↔ c < d) (hgt : b < a ↔ d < c) : compare a b = compare c d := by
  rcases Int.lt_trichotomy c d with h | h | h
  · rw [Int.compare_eq_lt.2 h, Int.compare_eq_lt.2 (by omega)]
  · rw [Int.compare_eq_eq.2 h, Int.compare_eq_eq.2 (by omega)]
  · rw [Int.compare_eq_gt.2 h, Int.compare_eq_gt.2 (by omega)]

theorem compare_neg (a b : Int) : compare (-a) (-b) = (compare a b).swap := by
  rw [Int.compare_swap]
  exact compare_congr Int.neg_lt_neg_iff Int.neg_lt_neg_iff

theorem compare_place {a b : Float.Model.UnpackedFloat} (ha : IsCanonical a) (hb : IsCanonical b)
    (hanan : a.isNaN = false) (hbnan : b.isNaN = false) : a.compare b = some (compare (place a) (place b)) := by
  have hlt {x y : Int} (h : x < y) : some Ordering.lt = some (compare x y) := by rw [Int.compare_eq_lt.2 h]
  have hgt {x y : Int} (h : y < x) : some Ordering.gt = some (compare x y) := by rw [Int.compare_eq_gt.2 h]
  cases a with
  | notANumber => cases hanan
  | infinity sign =>
    cases b with
    | notANumber => cases hbnan
    | infinity sign' => cases sign <;> cases sign' <;> rfl
    | zero sign' => cases sign <;> rfl
    | finite sign' m e hpos =>
      obtain ⟨hlow, hhigh⟩ := unitRank_bounds hb
      cases sign <;> cases sign'
      · exact hlt (show -(infinityRank : Int) < -unitRank m e by omega)
      · exact hlt (show -(infinityRank : Int) < unitRank m e by omega)
      · exact hgt (show -unitRank m e < (infinityRank : Int) by omega)
      · exact hgt (show unitRank m e < (infinityRank : Int) by omega)
  | zero sign =>
    cases b with
    | notANumber => cases hbnan
    | infinity sign' => cases sign' <;> rfl
    | zero sign' => rfl
    | finite sign' m e hpos =>
      obtain ⟨hlow, hhigh⟩ := unitRank_bounds hb
      cases sign'
      · exact hgt (show -unitRank m e < 0 by omega)
      · exact hlt (show 0 < unitRank m e by omega)
  | finite sign m e hpos =>
    obtain ⟨hlow, hhigh⟩ := unitRank_bounds ha
    cases b with
    | notANumber => cases hbnan
    | infinity sign' =>
      cases sign <;> cases sign'
      · exact hgt (show -(infinityRank : Int) < -unitRank m e by omega)
      · exact hlt (show -unitRank m e < (infinityRank : Int) by omega)
      · exact hgt (show -(infinityRank : Int) < unitRank m e by omega)
      · exact hlt (show unitRank m e < (infinityRank : Int) by omega)
    | zero sign' =>
      cases sign
      · exact hlt (show -unitRank m e < 0 by omega)
      · exact hgt (show 0 < unitRank m e by omega)
    | finite sign' m' e' hpos' =>
      obtain ⟨hlow', hhigh'⟩ := unitRank_bounds hb
      cases sign <;> cases sign'
      · exact congrArg some ((congrArg Ordering.swap (compare_unitRank ha hb)).trans (compare_neg _ _).symm)
      · exact hlt (show -unitRank m e < unitRank m' e' by omega)
      · exact hgt (show -unitRank m' e' < unitRank m e by omega)
      · exact congrArg some (compare_unitRank ha hb)

theorem unpack_spec (bits : BitVec Format.binary64.numBits) :
    IsCanonical (unpack Format.binary64 bits) ∧ (isNaN (unpack Format.binary64 bits) = false →
      place (unpack Format.binary64 bits) =
        onSide (Sign.ofBitVec (unpackSign bits)) ((bits.toNat % 2 ^ 63 : Nat) : Int)) := by
  have hexponent := unpackExponent_toNat bits
  have hmantissa := unpackMantissa_toNat bits
  have hmant : (1#1 ++ unpackMantissa bits).toNat = 2 ^ 52 + (unpackMantissa bits).toNat := by
    rw [append_toNat]
    rfl
  unfold unpack
  dsimp only
  by_cases hlast : unpackExponent bits = -1#_
  · rw [if_pos hlast]
    by_cases hzero : unpackMantissa bits = 0#_
    · rw [if_pos hzero]
      refine ⟨trivial, fun _ => congrArg (onSide _) ?_⟩
      rw [hlast] at hexponent
      rw [hzero] at hmantissa
      change 2047 = _ at hexponent
      change 0 = _ at hmantissa
      change ((2047 * 2 ^ 52 : Nat) : Int) = _
      omega
    · rw [if_neg hzero]
      refine ⟨trivial, fun h => ?_⟩
      cases h
  rw [if_neg hlast]
  have hinside : (unpackExponent bits).toNat ≠ 2047 := fun h => hlast (BitVec.eq_of_toNat_eq h)
  by_cases hsmall : unpackExponent bits = 0#_
  · rw [if_pos hsmall]
    have hfirst : (unpackExponent bits).toNat = 0 := congrArg BitVec.toNat hsmall
    by_cases hzero : unpackMantissa bits = 0#_
    · rw [dif_pos hzero]
      rw [hzero] at hmantissa
      change 0 = _ at hmantissa
      refine ⟨trivial, fun _ => ?_⟩
      have hrank : bits.toNat % 2 ^ 63 = 0 := by omega
      rw [hrank]
      cases Sign.ofBitVec (unpackSign bits) <;> rfl
    · rw [dif_neg hzero]
      refine ⟨?_, fun _ => congrArg (onSide _) ?_⟩
      · change -1074 ≤ ((unpackExponent bits).toNat : Int) - 1075 + 1 ∧
          ((unpackExponent bits).toNat : Int) - 1075 + 1 ≤ 971 ∧ (unpackMantissa bits).toNat < 2 ^ 53 ∧
          (((unpackExponent bits).toNat : Int) - 1075 + 1 = -1074 ∨ 2 ^ 52 ≤ (unpackMantissa bits).toNat)
        omega
      · change (((unpackExponent bits).toNat : Int) - 1075 + 1 + 1074) * 2 ^ 52 + (unpackMantissa bits).toNat = _
        omega
  · rw [if_neg hsmall]
    have hfirst : (unpackExponent bits).toNat ≠ 0 := fun h => hsmall (BitVec.eq_of_toNat_eq h)
    refine ⟨?_, fun _ => congrArg (onSide _) ?_⟩
    · change -1074 ≤ ((unpackExponent bits).toNat : Int) - 1075 ∧
        ((unpackExponent bits).toNat : Int) - 1075 ≤ 971 ∧ (1#1 ++ unpackMantissa bits).toNat < 2 ^ 53 ∧
        (((unpackExponent bits).toNat : Int) - 1075 = -1074 ∨ 2 ^ 52 ≤ (1#1 ++ unpackMantissa bits).toNat)
      omega
    · change (((unpackExponent bits).toNat : Int) - 1075 + 1074) * 2 ^ 52 + (1#1 ++ unpackMantissa bits).toNat = _
      omega

/-! ## Doubles -/

theorem sign_eq (bits : BitVec Format.binary64.numBits) :
    Sign.ofBitVec (unpackSign bits) = if signBit ≤ bits.toNat then .negative else .positive := by
  have hlt : bits.toNat < 2 ^ 64 := bits.isLt
  have hsign := unpackSign_toNat bits
  change _ = if 2 ^ 63 ≤ bits.toNat then _ else _
  unfold Sign.ofBitVec
  by_cases hbit : unpackSign bits = 0#1
  · have hzero : (unpackSign bits).toNat = 0 := congrArg BitVec.toNat hbit
    rw [if_pos hbit, if_neg (by omega)]
  · have hone : (unpackSign bits).toNat ≠ 0 := fun h => hbit (BitVec.eq_of_toNat_eq h)
    rw [if_neg hbit, if_pos (by omega)]

/-- The rank of a number with its sign. -/
def signedRank (x : Float) : Int := if isNegative x then -rank x else rank x

section
variable {x y : Float}

theorem place_toModel (h : x.isNaN = false) : place x.toModel.unpack = signedRank x := by
  have hplace : place x.toModel.unpack =
      onSide (if signBit ≤ x.toBits.toNat then .negative else .positive) (rank x : Int) :=
    ((unpack_spec _).2 h).trans (congrArg (onSide · _) (sign_eq _))
  rw [hplace]
  unfold signedRank isNegative
  by_cases hsign : signBit ≤ x.toBits.toNat
  · rw [if_pos hsign, if_pos (decide_eq_true hsign)]
    rfl
  · rw [if_neg hsign, if_neg (by rwa [decide_eq_true_iff])]
    rfl

variable (x y) in
theorem steps_lt_iff : steps x < steps y ↔ signedRank x < signedRank y := by
  have hzero : stepsAt 0 = 0 := stepsAt_of_lt (by decide)
  have hlt : stepsAt (rank x) < stepsAt (rank y) ↔ rank x < rank y := stepsAt_strictMono.lt_iff_lt
  have hgt : stepsAt (rank y) < stepsAt (rank x) ↔ rank y < rank x := stepsAt_strictMono.lt_iff_lt
  have hx : stepsAt 0 < stepsAt (rank x) ↔ 0 < rank x := stepsAt_strictMono.lt_iff_lt
  have hy : stepsAt 0 < stepsAt (rank y) ↔ 0 < rank y := stepsAt_strictMono.lt_iff_lt
  unfold steps signedRank
  split <;> split <;> omega

theorem compare_steps : compare (steps x) (steps y) = compare (signedRank x) (signedRank y) :=
  compare_congr (steps_lt_iff x y) (steps_lt_iff y x)

theorem compare_unpack (hx : x.isNaN = false) (hy : y.isNaN = false) :
    x.toModel.unpack.compare y.toModel.unpack = some (compare (steps x) (steps y)) := by
  rw [compare_steps, ← place_toModel hx, ← place_toModel hy]
  exact compare_place (unpack_spec _).1 (unpack_spec _).1 hx hy

theorem eq_notANumber {a : Float.Model.UnpackedFloat} (h : a.isNaN) : a = .notANumber := by
  cases a with
  | notANumber => rfl
  | infinity | zero | finite => cases h

theorem compare_unpack_of_isNaN (h : x.isNaN || y.isNaN) : x.toModel.unpack.compare y.toModel.unpack = none := by
  rcases Bool.or_eq_true _ _ ▸ h with h | h
  · have hx : x.toModel.unpack = .notANumber := eq_notANumber h
    rw [hx]
    rfl
  · have hy : y.toModel.unpack = .notANumber := eq_notANumber h
    rw [hy]
    cases x.toModel.unpack <;> rfl

/-! ## Comparison -/

theorem lt_iff (x y : Float) : x < y ↔ x.toModel.unpack.compare y.toModel.unpack = some .lt := by
  change decide (_ = true) = true ↔ _
  rw [decide_eq_true_iff]
  exact beq_iff_eq

theorem le_iff (x y : Float) : x ≤ y ↔ (x.toModel.unpack.compare y.toModel.unpack).any Ordering.isLE := by
  change decide (_ = true) = true ↔ _
  rw [decide_eq_true_iff]
  rfl

theorem beq_iff (x y : Float) : (x == y) = true ↔ x.toModel.unpack.compare y.toModel.unpack = some .eq := by
  change (Float.Model.UnpackedFloat.compare _ _ == some .eq) = true ↔ _
  rw [beq_iff_eq]

section
variable (hx : x.isNaN = false) (hy : y.isNaN = false)
include hx hy

theorem lt_iff_steps : x < y ↔ steps x < steps y := by
  rw [lt_iff, compare_unpack hx hy, Option.some_inj, Int.compare_eq_lt]

theorem le_iff_steps : x ≤ y ↔ steps x ≤ steps y := by
  rw [le_iff, compare_unpack hx hy, Option.any_some, Int.isLE_compare]

theorem beq_iff_steps : (x == y) = true ↔ steps x = steps y := by
  rw [beq_iff, compare_unpack hx hy, Option.some_inj, Int.compare_eq_eq]

end

section
variable (h : x.isNaN || y.isNaN)
include h

theorem not_lt_of_isNaN : ¬ x < y := by
  rw [lt_iff, compare_unpack_of_isNaN h]
  simp

theorem not_le_of_isNaN : ¬ x ≤ y := by
  rw [le_iff, compare_unpack_of_isNaN h]
  simp

theorem beq_of_isNaN : (x == y) = false := by
  rw [Bool.eq_false_iff, ne_eq, beq_iff, compare_unpack_of_isNaN h]
  simp

end

theorem compare?_eq (x y : Float) :
    compare? x y = if x.isNaN || y.isNaN then none else some (compare (steps x) (steps y)) := by
  unfold compare?
  cases hnan : x.isNaN || y.isNaN with
  | true =>
    have hnan' : y.isNaN || x.isNaN := by rwa [Bool.or_comm]
    rw [if_neg (not_lt_of_isNaN hnan), beq_of_isNaN hnan, if_neg (not_lt_of_isNaN hnan')]
    rfl
  | false =>
    obtain ⟨hx, hy⟩ := Bool.or_eq_false_iff.1 hnan
    simp only [lt_iff_steps hx hy, lt_iff_steps hy hx, beq_iff_steps hx hy]
    rcases Int.lt_trichotomy (steps x) (steps y) with h | h | h
    · rw [if_pos h, Int.compare_eq_lt.2 h]
      rfl
    · rw [if_neg (by omega), if_pos h, Int.compare_eq_eq.2 h]
      rfl
    · rw [if_neg (by omega), if_neg (by omega), if_pos h, Int.compare_eq_gt.2 h]
      rfl

end

end ScenarioScript.Number
