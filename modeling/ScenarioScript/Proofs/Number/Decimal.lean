import ScenarioScript.Proofs.Number.Rounding

/-!
# Decimals and their nearest doubles

Whether a decimal rounds to a double depends on its value alone. The shortest decimal of a finite
double rounds to it, so the double is the nearest one to its shortest decimal.
-/

namespace ScenarioScript.Decimal

open Number

/-! ## Values -/

theorem below_pos (exponent : Int) : 0 < below exponent := Nat.pos_of_ne_zero (by simp [below])

/-- How many steps a decimal is, as a fraction. -/
def steps (d : Decimal) : Nat := d.digits * above d.exponent * stepsPerOne

theorem roundsTo_iff {rank : Nat} {d : Decimal} :
    d.roundsTo rank ↔ RoundsTo rank d.steps (below d.exponent) := by
  have hvalue : 2 * d.digits * above d.exponent * stepsPerOne = 2 * d.steps := by
    unfold steps
    ring
  unfold roundsTo
  dsimp only
  rw [hvalue]
  split
  · rename_i heven
    simp only [Bool.and_eq_true, decide_eq_true_eq]
    exact ⟨fun h => ⟨h.1, h.2, fun hodd => by omega⟩, fun h => ⟨h.low, h.high⟩⟩
  · rename_i hodd
    simp only [Bool.and_eq_true, decide_eq_true_eq]
    constructor
    · exact fun h => ⟨h.1.le, h.2.le, fun _ => ⟨h.1.ne, h.2.ne⟩⟩
    · intro h
      have hends := h.ends (by omega)
      exact ⟨lt_of_le_of_ne h.low hends.1, lt_of_le_of_ne h.high hends.2⟩

theorem roundsTo_of_eq_value {rank : Nat} {d d' : Decimal}
    (hvalue : d.steps * below d'.exponent = d'.steps * below d.exponent) (h : d.roundsTo rank) :
    d'.roundsTo rank := by
  rw [roundsTo_iff] at h ⊢
  exact h.of_eq_value (below_pos _) (below_pos _) hvalue

/-! ## The nearest double -/

theorem above_eq_one {exponent : Int} (h : exponent ≤ 0) : above exponent = 1 := by
  unfold above
  rw [Int.toNat_of_nonpos h]

theorem below_eq_one {exponent : Int} (h : 0 ≤ exponent) : below exponent = 1 := by
  unfold below
  rw [Int.toNat_of_nonpos (by omega)]

theorem not_roundsTo_of_large {rank : Nat} (n : Nat) {d : Decimal} (hdigits : d.digits ≠ 0)
    (hexponent : n ≤ d.exponent) (hlarge : stepsAt infinityRank < 10 ^ n * stepsPerOne)
    (hrank : rank < infinityRank) : ¬ d.roundsTo rank := by
  rw [roundsTo_iff]
  intro h
  have hhigh := h.high
  rw [below_eq_one (by omega), Nat.mul_one] at hhigh
  have hhere : stepsAt rank ≤ stepsAt infinityRank := stepsAt_strictMono.monotone hrank.le
  have hnext : stepsAt (rank + 1) ≤ stepsAt infinityRank := stepsAt_strictMono.monotone hrank
  have hsteps : 10 ^ n * stepsPerOne ≤ d.steps := by
    have habove : 10 ^ n ≤ above d.exponent := Nat.pow_le_pow_right (by decide) (by omega)
    refine Nat.mul_le_mul_right _ (habove.trans ?_)
    exact Nat.le_mul_of_pos_left _ (Nat.pos_of_ne_zero hdigits)
  omega

theorem roundsTo_zero_of_small (n : Nat) {d : Decimal}
    (hexponent : d.exponent + (d.digits.log2 / 3 + 1) ≤ -n) (hhalf : 2 * stepsPerOne ≤ 10 ^ n) :
    d.roundsTo 0 := by
  rw [roundsTo_iff]
  apply roundsTo_zero
  have hdigits : d.digits < 10 ^ (d.digits.log2 / 3 + 1) := calc
    d.digits < 2 ^ (d.digits.log2 + 1) := Nat.lt_log2_self
    _ ≤ 2 ^ (3 * (d.digits.log2 / 3 + 1)) := Nat.pow_le_pow_right (by decide) (by omega)
    _ = 8 ^ (d.digits.log2 / 3 + 1) := Nat.pow_mul 2 3 _
    _ ≤ 10 ^ (d.digits.log2 / 3 + 1) := Nat.pow_le_pow_left (by decide) _
  have hbelow : 10 ^ (d.digits.log2 / 3 + 1) * 10 ^ n ≤ below d.exponent := by
    rw [← Nat.pow_add]
    exact Nat.pow_le_pow_right (by decide) (by omega)
  calc 2 * d.steps = d.digits * (2 * stepsPerOne) := by
        unfold steps
        rw [above_eq_one (by omega)]
        ring
    _ ≤ d.digits * 10 ^ n := Nat.mul_le_mul_left _ hhalf
    _ < 10 ^ (d.digits.log2 / 3 + 1) * 10 ^ n :=
      Nat.mul_lt_mul_of_pos_right hdigits (Nat.pow_pos (by decide))
    _ ≤ below d.exponent := hbelow

theorem nearestRank_of_roundsTo {rank : Nat} {d : Decimal} (hrank : rank < infinityRank)
    (h : d.roundsTo rank) : d.nearestRank = rank := by
  have unique {rank' : Nat} (h' : d.roundsTo rank') : rank' = rank :=
    (roundsTo_iff.1 h').unique (below_pos _) (roundsTo_iff.1 h)
  unfold nearestRank
  split
  · rename_i hdigits
    apply unique
    rw [roundsTo_iff]
    apply roundsTo_zero
    rw [steps, hdigits, Nat.zero_mul, Nat.zero_mul]
    exact below_pos _
  rename_i hdigits
  split
  · rename_i hexponent
    refine absurd h (not_roundsTo_of_large 310 hdigits hexponent ?_ hrank)
    rw [stepsAt_infinityRank]
    decide +kernel
  split
  · rename_i hsmall
    refine unique (roundsTo_zero_of_small 324 ?_ ?_)
    · omega
    · decide +kernel
  · exact nearestRank_eq (below_pos _) (roundsTo_iff.1 h) hrank

theorem nearestRank_le (d : Decimal) : d.nearestRank ≤ infinityRank := by
  unfold nearestRank
  split
  · exact Nat.zero_le _
  split
  · exact le_refl _
  split
  · exact Nat.zero_le _
  · exact Number.nearestRank_le _ _

/-! ## The shortest decimal -/

theorem roundsTo_of_onGrid? {rank : Nat} {exponent : Int} {d : Decimal}
    (h : onGrid? rank exponent = some d) : d.roundsTo rank := by
  unfold onGrid? at h
  extract_lets num den lower upper at h
  split at h
  · rename_i hlower hupper
    rw [← Option.some.inj h]
    split
    · exact hlower
    · exact hupper
  · rename_i hlower _
    rw [← Option.some.inj h]
    exact hlower
  · rename_i hupper
    rw [← Option.some.inj h]
    exact hupper
  · exact absurd h.symm (Option.some_ne_none d)

theorem roundsTo_of_eq_steps {rank : Nat} {d : Decimal}
    (h : d.steps = stepsAt rank * below d.exponent) : d.roundsTo rank := by
  rw [roundsTo_iff, h]
  have hpos := below_pos d.exponent
  have hlow : stepsAt (rank - 1) ≤ stepsAt rank := stepsAt_strictMono.monotone (Nat.sub_le _ _)
  have hhigh : stepsAt rank < stepsAt (rank + 1) := stepsAt_strictMono (Nat.lt_succ_self _)
  have htwice : 2 * (stepsAt rank * below d.exponent) = (stepsAt rank + stepsAt rank) * below d.exponent := by
    ring
  constructor
  · rw [htwice]
    exact Nat.mul_le_mul_right _ (by omega)
  · rw [htwice]
    exact Nat.mul_le_mul_right _ (by omega)
  · intro hodd
    have hlt : stepsAt (rank - 1) < stepsAt rank := stepsAt_strictMono (by omega)
    rw [htwice]
    constructor
    · exact (Nat.mul_lt_mul_of_pos_right (by omega) hpos).ne
    · exact (Nat.mul_lt_mul_of_pos_right (by omega) hpos).ne

theorem roundsTo_exact (rank : Nat) : (exact rank).roundsTo rank := by
  apply roundsTo_of_eq_steps
  have hten : Nat.pow 5 1074 * stepsPerOne = below (-1074) := by decide +kernel
  change stepsAt rank * Nat.pow 5 1074 * above (-1074) * stepsPerOne = stepsAt rank * below (-1074)
  rw [above_eq_one (by decide), Nat.mul_one, Nat.mul_assoc, hten]

theorem roundsTo_shortest (rank : Nat) : (shortest rank).roundsTo rank := by
  unfold shortest
  dsimp only
  cases h : (List.range 17).findSome? fun (i : Nat) => onGrid? rank (place rank - (i + 1)) with
  | none => exact roundsTo_exact rank
  | some d =>
    obtain ⟨i, -, hd⟩ := List.exists_of_findSome?_eq_some h
    exact roundsTo_of_onGrid? hd

end ScenarioScript.Decimal
