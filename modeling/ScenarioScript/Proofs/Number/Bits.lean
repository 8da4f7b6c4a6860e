import Mathlib.Algebra.Group.Nat.Defs
import ScenarioScript.Number.Steps

/-!
# Ranks and bit patterns

Below the rank of the first NaN, every rank is the bit pattern of one double without a sign, and
the doubles before infinity are the finite ones.
-/

namespace ScenarioScript.Number

open Float.Model (Format)
open Float.Model.UnpackedFloat

/-! ## Fields of a bit pattern -/

theorem toBitVec_ofBitVec (bit : BitVec 1) : (Sign.ofBitVec bit).toBitVec = bit := by
  rcases BitVec.eq_zero_or_eq_one bit with rfl | rfl <;> rfl

theorem append_toNat {m n : Nat} (x : BitVec m) (y : BitVec n) :
    (x ++ y).toNat = x.toNat * 2 ^ n + y.toNat := by
  rw [BitVec.toNat_append, ← Nat.shiftLeft_add_eq_or_of_lt y.isLt, Nat.shiftLeft_eq]

section
variable (bits : BitVec Format.binary64.numBits)

theorem unpackSign_toNat : (unpackSign bits).toNat = bits.toNat / 2 ^ 63 % 2 := by
  change (bits.toNat >>> 63) % 2 = _
  rw [Nat.shiftRight_eq_div_pow]

theorem unpackExponent_toNat : (unpackExponent bits).toNat = bits.toNat / 2 ^ 52 % 2 ^ 11 := by
  change (bits.toNat >>> 52) % 2 ^ 11 = _
  rw [Nat.shiftRight_eq_div_pow]

theorem unpackMantissa_toNat : (unpackMantissa bits).toNat = bits.toNat % 2 ^ 52 := by
  change (bits.toNat >>> 0) % 2 ^ 52 = _
  rw [Nat.shiftRight_zero]

theorem packComponents_fields :
    packComponents Format.binary64 (Sign.ofBitVec (unpackSign bits)) (unpackExponent bits)
      (unpackMantissa bits) = bits := by
  have hlt : bits.toNat < 2 ^ 64 := bits.isLt
  apply BitVec.eq_of_toNat_eq
  unfold packComponents
  rw [append_toNat, append_toNat, toBitVec_ofBitVec, unpackSign_toNat, unpackExponent_toNat,
    unpackMantissa_toNat]
  change (bits.toNat / 2 ^ 63 % 2 * 2 ^ 11 + bits.toNat / 2 ^ 52 % 2 ^ 11) * 2 ^ 52 + bits.toNat % 2 ^ 52 = _
  omega

end

theorem unpackExponent_eq_iff (bits : BitVec Format.binary64.numBits) :
    unpackExponent bits = -1#_ ↔ infinityRank ≤ bits.toNat % signBit := by
  rw [← BitVec.toNat_inj, unpackExponent_toNat]
  change _ = 2047 ↔ 2047 * 2 ^ 52 ≤ bits.toNat % 2 ^ 63
  omega

theorem packComponents_eq {bits : BitVec Format.binary64.numBits} {exponent : BitVec 11}
    {mantissa : BitVec 52} (hexponent : unpackExponent bits = exponent)
    (hmantissa : unpackMantissa bits = mantissa) :
    packComponents Format.binary64 (Sign.ofBitVec (unpackSign bits)) exponent mantissa = bits := by
  rw [← hexponent, ← hmantissa, packComponents_fields]

theorem pack_subnormal (sign : Sign) (mantissa : BitVec 52) (hpos : 0 < mantissa.toNat) :
    pack Format.binary64 (.finite sign mantissa.toNat (-1074) hpos) =
      packComponents Format.binary64 sign 0#_ mantissa := by
  have hlog : mantissa.toNat.log2 < 52 := (Nat.log2_lt (by omega)).2 mantissa.isLt
  unfold pack
  dsimp only
  rw [if_neg (by decide), if_neg, BitVec.ofNat_toNat, BitVec.setWidth_eq]
  change ¬ mantissa.toNat.log2 + 1 = 53
  omega

theorem pack_normal (sign : Sign) (exponent : BitVec 11) (mantissa : BitVec 52)
    (hpos : 0 < (1#1 ++ mantissa).toNat) (hexponent : exponent ≠ -1#_) :
    pack Format.binary64 (.finite sign (1#1 ++ mantissa).toNat (exponent.toNat - 1075) hpos) =
      packComponents Format.binary64 sign exponent mantissa := by
  have hlt := exponent.isLt
  have hmantissa := mantissa.isLt
  have hne : exponent.toNat ≠ 2047 := fun h => hexponent (BitVec.eq_of_toNat_eq h)
  have happend : (1#1 ++ mantissa).toNat = 2 ^ 52 + mantissa.toNat := by
    rw [append_toNat]
    rfl
  have hlog : (2 ^ 52 + mantissa.toNat).log2 = 52 := by
    rw [Nat.log2_eq_iff (by omega)]
    omega
  have hbiased : (exponent.toNat - 1075 + (1023 : Nat) + (52 : Nat) : Int).toNat = exponent.toNat := by
    omega
  unfold pack
  dsimp only
  rw [happend, hlog]
  change (if 2 ^ 11 ≤ (exponent.toNat - 1075 + (1023 : Nat) + (52 : Nat) : Int).toNat + 1 then _
    else packComponents Format.binary64 sign
      (BitVec.ofNat 11 (exponent.toNat - 1075 + (1023 : Nat) + (52 : Nat) : Int).toNat)
      (BitVec.ofNat 52 _)) = _
  rw [hbiased, if_neg (by omega)]
  congr 1
  · simp
  · apply BitVec.eq_of_toNat_eq
    rw [BitVec.toNat_ofNat]
    omega

theorem pack_unpack {bits : BitVec Format.binary64.numBits}
    (h : unpackExponent bits = -1#_ → unpackMantissa bits = 0#_) :
    pack Format.binary64 (unpack Format.binary64 bits) = bits := by
  unfold unpack
  dsimp only
  by_cases hexponent : unpackExponent bits = -1#_
  · rw [if_pos hexponent, if_pos (h hexponent)]
    exact packComponents_eq hexponent (h hexponent)
  rw [if_neg hexponent]
  by_cases hzero : unpackExponent bits = 0#_
  · rw [if_pos hzero]
    by_cases hmantissa : unpackMantissa bits = 0#_
    · rw [dif_pos hmantissa]
      exact packComponents_eq hzero hmantissa
    · rw [dif_neg hmantissa, hzero]
      exact (pack_subnormal _ _ _).trans (packComponents_eq hzero rfl)
  · rw [if_neg hzero]
    exact (pack_normal _ _ _ _ hexponent).trans (packComponents_fields bits)

theorem isFinite_unpack (bits : BitVec Format.binary64.numBits) :
    isFinite (unpack Format.binary64 bits) ↔ unpackExponent bits ≠ -1#_ := by
  unfold unpack
  dsimp only
  by_cases hexponent : unpackExponent bits = -1#_
  · refine iff_of_false ?_ (not_not_intro hexponent)
    rw [if_pos hexponent]
    split <;> exact Bool.false_ne_true
  · refine iff_of_true ?_ hexponent
    rw [if_neg hexponent]
    by_cases hzero : unpackExponent bits = 0#_
    · rw [if_pos hzero]
      by_cases hmantissa : unpackMantissa bits = 0#_
      · rw [dif_pos hmantissa]
        rfl
      · rw [dif_neg hmantissa]
        rfl
    · rw [if_neg hzero]
      rfl

/-! ## Doubles -/

theorem toBits_injective {x y : Float} (h : x.toBits = y.toBits) : x = y := by
  obtain ⟨⟨bits, hbits⟩⟩ := x
  obtain ⟨⟨bits', hbits'⟩⟩ := y
  change bits = bits' at h
  subst h
  rfl

theorem toBits_ofBits {bits : UInt64} (h : bits.toNat % signBit ≤ infinityRank) :
    (Float.ofBits bits).toBits = bits := by
  let fields : BitVec Format.binary64.numBits := bits.toBitVec
  have hpack : pack Format.binary64 (unpack Format.binary64 fields) = fields := by
    apply pack_unpack
    intro hexponent
    rw [unpackExponent_eq_iff] at hexponent
    apply BitVec.eq_of_toNat_eq
    rw [unpackMantissa_toNat]
    change 2047 * 2 ^ 52 ≤ bits.toNat % 2 ^ 63 at hexponent
    change bits.toNat % 2 ^ 63 ≤ 2047 * 2 ^ 52 at h
    change bits.toNat % 2 ^ 52 = 0
    omega
  exact congrArg UInt64.ofBitVec hpack

theorem isFinite_iff (x : Float) : x.isFinite ↔ rank x < infinityRank := by
  let fields : BitVec Format.binary64.numBits := x.toBits.toBitVec
  have hfinite : x.isFinite ↔ unpackExponent fields ≠ -1#_ := isFinite_unpack fields
  have hrank : infinityRank ≤ rank x ↔ unpackExponent fields = -1#_ := (unpackExponent_eq_iff fields).symm
  rw [hfinite, ← Nat.not_le, hrank]

theorem isNaN_of_isFinite {x : Float} (h : x.isFinite) : x.isNaN = false := by
  change isFinite x.toModel.unpack = true at h
  change isNaN x.toModel.unpack = false
  cases hx : x.toModel.unpack with
  | notANumber =>
    rw [hx] at h
    cases h
  | infinity sign | zero sign | finite sign mantissa exponent hpos => rfl

section
variable {k : Nat}

theorem toBits_ofRank (h : k ≤ infinityRank) : (ofRank false k).toBits.toNat = k := by
  have hk : k ≤ 2047 * 2 ^ 52 := h
  have hbits : (UInt64.ofNat k).toNat = k := by
    rw [UInt64.toNat_ofNat']
    omega
  have hle : (UInt64.ofNat k).toNat % signBit ≤ infinityRank := by
    rw [hbits]
    exact Nat.le_trans (Nat.mod_le _ _) h
  unfold ofRank
  rw [if_neg (by decide), toBits_ofBits hle, hbits]

theorem rank_ofRank (h : k ≤ infinityRank) : rank (ofRank false k) = k := by
  have hk : k ≤ 2047 * 2 ^ 52 := h
  unfold rank
  rw [toBits_ofRank h]
  change k % 2 ^ 63 = k
  omega

theorem isNegative_ofRank (h : k ≤ infinityRank) : isNegative (ofRank false k) = false := by
  have hk : k ≤ 2047 * 2 ^ 52 := h
  unfold isNegative
  rw [toBits_ofRank h, decide_eq_false_iff_not]
  change ¬ 2 ^ 63 ≤ k
  omega

theorem isFinite_ofRank (h : k < infinityRank) : (ofRank false k).isFinite := by
  rw [isFinite_iff, rank_ofRank (Nat.le_of_lt h)]
  exact h

end

theorem ofRank_rank {x : Float} (hfinite : x.isFinite) (hsign : isNegative x = false) :
    ofRank false (rank x) = x := by
  rw [isFinite_iff] at hfinite
  have hbits : rank x = x.toBits.toNat := by
    unfold isNegative at hsign
    rw [decide_eq_false_iff_not, Nat.not_le] at hsign
    exact Nat.mod_eq_of_lt hsign
  apply toBits_injective
  apply UInt64.toNat_inj.1
  rw [toBits_ofRank (Nat.le_of_lt hfinite), hbits]

end ScenarioScript.Number
