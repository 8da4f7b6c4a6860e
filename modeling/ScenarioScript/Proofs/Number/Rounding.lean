import Mathlib.Tactic.Ring
import Mathlib.Tactic.Linarith
import ScenarioScript.Number.Decimal

/-!
# Rounding

Every fraction of steps rounds to one rank: the doubles have one order, and the interval between
two neighbours is cut in the middle. The nearest rank is the one whose interval holds the fraction.
-/

namespace ScenarioScript.Number

/-! ## Steps by blocks -/

theorem blockSize_eq : blockSize = 4503599627370496 := rfl

theorem stepsAt_of_lt {rank : Nat} (h : rank < blockSize) : stepsAt rank = rank := by
  unfold stepsAt
  rw [Nat.div_eq_of_lt h]

theorem stepsAt_of_div {rank block : Nat} (h : rank / blockSize = block + 1) :
    stepsAt rank = (blockSize + rank % blockSize) * 2 ^ block := by
  unfold stepsAt
  rw [h]
  rfl

theorem stepsAt_later {block m : Nat} (hm : m < blockSize) :
    stepsAt ((block + 1) * blockSize + m) = (blockSize + m) * 2 ^ block := by
  have hdiv : ((block + 1) * blockSize + m) / blockSize = block + 1 := by
    rw [blockSize_eq] at hm ⊢
    omega
  have hmod : ((block + 1) * blockSize + m) % blockSize = m := by
    rw [blockSize_eq] at hm ⊢
    omega
  rw [stepsAt_of_div hdiv, hmod]

theorem stepsAt_block {block m : Nat} (hm : m ≤ 2 * blockSize) (h : block = 0 ∨ blockSize ≤ m) :
    stepsAt (block * blockSize + m) = m * 2 ^ block := by
  rcases Nat.lt_or_ge m blockSize with hlt | hge
  · obtain rfl : block = 0 := h.resolve_right (Nat.not_le.2 hlt)
    rw [Nat.zero_mul, Nat.zero_add, stepsAt_of_lt hlt, Nat.pow_zero, Nat.mul_one]
  obtain ⟨more, rfl⟩ := Nat.exists_eq_add_of_le hge
  rcases Nat.lt_or_ge more blockSize with hlt | hge
  · have hrank : block * blockSize + (blockSize + more) = (block + 1) * blockSize + more := by ring
    rw [hrank, stepsAt_later hlt]
  · obtain rfl : more = blockSize := by omega
    have hrank : block * blockSize + (blockSize + blockSize) = (block + 1 + 1) * blockSize + 0 := by ring
    rw [hrank, stepsAt_later (by decide)]
    ring

theorem exists_block (rank : Nat) :
    ∃ block m, rank = block * blockSize + m ∧ m < 2 * blockSize ∧ (block = 0 ∨ blockSize ≤ m) := by
  rcases Nat.lt_or_ge rank blockSize with hlt | hge
  · exact ⟨0, rank, by omega, by omega, .inl rfl⟩
  · refine ⟨rank / blockSize - 1, blockSize + rank % blockSize, ?_, ?_, .inr ?_⟩
    all_goals
      rw [blockSize_eq] at *
      omega

theorem stepsAt_succ_le {block m : Nat} (hm : m ≤ 2 * blockSize) (h : block = 0 ∨ blockSize ≤ m) :
    (m + 1) * 2 ^ block ≤ stepsAt (block * blockSize + m + 1) := by
  rcases Nat.lt_or_eq_of_le hm with hlt | rfl
  · rw [Nat.add_assoc, stepsAt_block hlt (h.imp_right Nat.le_succ_of_le)]
  · have hrank : block * blockSize + 2 * blockSize + 1 = (block + 1 + 1) * blockSize + 1 := by ring
    have hpow : 0 < 2 ^ block := Nat.two_pow_pos block
    rw [hrank, stepsAt_later (by decide), Nat.pow_succ]
    linarith

theorem stepsAt_strictMono : StrictMono stepsAt := by
  refine strictMono_nat_of_lt_succ fun rank => ?_
  obtain ⟨block, m, rfl, hm, h⟩ := exists_block rank
  have hpow : 0 < 2 ^ block := Nat.two_pow_pos block
  have hsucc := stepsAt_succ_le hm.le h
  rw [stepsAt_block hm.le h]
  linarith

/-! ## Whole quotients -/

theorem roundQuotient_spec (num : Nat) {den : Nat} (hden : 0 < den) :
    2 * (roundQuotient num den * den) ≤ 2 * num + den ∧
      2 * num ≤ 2 * (roundQuotient num den * den) + den ∧
      (roundQuotient num den % 2 = 1 →
        2 * (roundQuotient num den * den) ≠ 2 * num + den ∧
          2 * num ≠ 2 * (roundQuotient num den * den) + den) := by
  have hnum := Nat.div_add_mod' num den
  have hmod := Nat.mod_lt num hden
  have hsucc : (num / den + 1) * den = num / den * den + den := Nat.succ_mul _ _
  unfold roundQuotient
  dsimp only
  split
  · omega
  split
  · rcases Nat.mod_two_eq_zero_or_one (num / den) with hparity | hparity
    · rw [hparity, Nat.add_zero]
      omega
    · rw [hparity, hsucc]
      omega
  · rw [hsucc]
    omega

/-! ## Intervals -/

/-- Whether `num / den` steps lie in the interval that rounds to a rank. The ends of the interval
lie half way to the neighbours and belong to the even rank. -/
structure RoundsTo (rank num den : Nat) : Prop where
  low : (stepsAt (rank - 1) + stepsAt rank) * den ≤ 2 * num
  high : 2 * num ≤ (stepsAt rank + stepsAt (rank + 1)) * den
  ends : rank % 2 = 1 → (stepsAt (rank - 1) + stepsAt rank) * den ≠ 2 * num ∧
    2 * num ≠ (stepsAt rank + stepsAt (rank + 1)) * den

theorem RoundsTo.not_lt {rank rank' num den : Nat} (hden : 0 < den) (h : RoundsTo rank num den)
    (h' : RoundsTo rank' num den) : ¬ rank < rank' := by
  intro hlt
  have hprev : rank' - 1 + 1 = rank' := by omega
  have hmono : stepsAt rank ≤ stepsAt (rank' - 1) := stepsAt_strictMono.monotone (by omega)
  have hsucc : stepsAt (rank + 1) ≤ stepsAt rank' := stepsAt_strictMono.monotone hlt
  -- The fraction is at most the upper end of one interval and at least the lower end of the other.
  have hle : (stepsAt rank + stepsAt (rank + 1)) * den ≤ (stepsAt (rank' - 1) + stepsAt rank') * den :=
    Nat.mul_le_mul_right den (Nat.add_le_add hmono hsucc)
  have heq : (stepsAt rank + stepsAt (rank + 1)) * den = (stepsAt (rank' - 1) + stepsAt rank') * den :=
    le_antisymm hle (h'.low.trans h.high)
  have hsum := Nat.eq_of_mul_eq_mul_right hden heq
  have hneighbour : rank + 1 = rank' := stepsAt_strictMono.injective (by omega)
  have hhigh : 2 * num = (stepsAt rank + stepsAt (rank + 1)) * den :=
    le_antisymm h.high (heq ▸ h'.low)
  rcases Nat.mod_two_eq_zero_or_one rank with heven | hodd
  · exact (h'.ends (by omega)).1 (heq ▸ hhigh).symm
  · exact (h.ends hodd).2 hhigh

theorem RoundsTo.unique {rank rank' num den : Nat} (hden : 0 < den) (h : RoundsTo rank num den)
    (h' : RoundsTo rank' num den) : rank = rank' :=
  le_antisymm (Nat.not_lt.1 (h'.not_lt hden h)) (Nat.not_lt.1 (h.not_lt hden h'))

theorem RoundsTo.of_eq_value {rank num den num' den' : Nat} (hden : 0 < den) (hden' : 0 < den')
    (hvalue : num * den' = num' * den) (h : RoundsTo rank num den) : RoundsTo rank num' den' := by
  have hswap (s : Nat) : s * den * den' = s * den' * den := by ring
  have htwice : 2 * num * den' = 2 * num' * den := by rw [Nat.mul_assoc, hvalue, Nat.mul_assoc]
  have hle (s : Nat) : s * den ≤ 2 * num ↔ s * den' ≤ 2 * num' := by
    rw [← Nat.mul_le_mul_right_iff hden', hswap, htwice, Nat.mul_le_mul_right_iff hden]
  have hge (s : Nat) : 2 * num ≤ s * den ↔ 2 * num' ≤ s * den' := by
    rw [← Nat.mul_le_mul_right_iff hden', hswap, htwice, Nat.mul_le_mul_right_iff hden]
  constructor
  · exact (hle _).1 h.low
  · exact (hge _).1 h.high
  · intro hodd
    obtain ⟨hlow, hhigh⟩ := h.ends hodd
    constructor
    · exact fun heq => hlow (le_antisymm h.low ((hge _).2 heq.ge))
    · exact fun heq => hhigh (le_antisymm h.high ((hle _).2 heq.ge))

theorem roundsTo_zero {num den : Nat} (h : 2 * num < den) : RoundsTo 0 num den := by
  have hzero : stepsAt 0 = 0 := stepsAt_of_lt (by decide)
  have hone : stepsAt 1 = 1 := stepsAt_of_lt (by decide)
  constructor
  · rw [hzero]
    omega
  · rw [hzero, hone]
    omega
  · intro hodd
    cases hodd

/-! ## The nearest rank -/

theorem roundQuotient_block {num den block : Nat} (hden : 0 < den)
    (hblock : block = (num / den).log2 - 52) :
    roundQuotient num (den * 2 ^ block) ≤ 2 * blockSize ∧
      (block = 0 ∨ blockSize ≤ roundQuotient num (den * 2 ^ block) ∧
        blockSize * (den * 2 ^ block) ≤ num) := by
  have hunit : 0 < den * 2 ^ block := Nat.mul_pos hden (Nat.two_pow_pos block)
  obtain ⟨hlow, hhigh, -⟩ := roundQuotient_spec num hunit
  generalize roundQuotient num (den * 2 ^ block) = m at *
  have hlt : num < 2 * blockSize * (den * 2 ^ block) := by
    have hquotient : num / den < 2 ^ (53 + block) := by
      refine Nat.lt_log2_self.trans_le (Nat.pow_le_pow_right (by decide) ?_)
      omega
    have hnum := (Nat.div_lt_iff_lt_mul hden).1 hquotient
    have hpow : 2 * blockSize * (den * 2 ^ block) = 2 ^ (53 + block) * den := by
      rw [Nat.pow_add, blockSize_eq]
      ring
    omega
  constructor
  · by_contra hm
    have hmul : (2 * blockSize + 1) * (den * 2 ^ block) ≤ m * (den * 2 ^ block) :=
      Nat.mul_le_mul_right _ (by omega)
    rw [Nat.add_mul] at hmul
    omega
  rcases Nat.eq_zero_or_pos block with hzero | hpos
  · exact .inl hzero
  right
  have hle : blockSize * (den * 2 ^ block) ≤ num := by
    have hne : num / den ≠ 0 := by
      intro hzero
      rw [hzero, Nat.log2_zero] at hblock
      omega
    have hquotient : 2 ^ (52 + block) ≤ num / den := by
      refine (Nat.pow_le_pow_right (by decide) ?_).trans (Nat.log2_self_le hne)
      omega
    have hnum := (Nat.le_div_iff_mul_le hden).1 hquotient
    have hpow : blockSize * (den * 2 ^ block) = 2 ^ (52 + block) * den := by
      rw [Nat.pow_add, blockSize_eq]
      ring
    omega
  refine ⟨?_, hle⟩
  by_contra hm
  have hmul : (m + 1) * (den * 2 ^ block) ≤ blockSize * (den * 2 ^ block) :=
    Nat.mul_le_mul_right _ (by omega)
  rw [Nat.add_mul] at hmul
  omega

/-- The rank before the cut at infinity holds the fraction in its interval. -/
theorem roundsTo_block {num den block : Nat} (hden : 0 < den) (hblock : block = (num / den).log2 - 52) :
    RoundsTo (block * blockSize + roundQuotient num (den * 2 ^ block)) num den := by
  have hunit : 0 < den * 2 ^ block := Nat.mul_pos hden (Nat.two_pow_pos block)
  obtain ⟨hlow, hhigh, hodd⟩ := roundQuotient_spec num hunit
  obtain ⟨hm, hstart⟩ := roundQuotient_block hden hblock
  generalize roundQuotient num (den * 2 ^ block) = m at *
  have hsteps {k : Nat} (hk : k ≤ 2 * blockSize) (h : block = 0 ∨ blockSize ≤ k) :
      stepsAt (block * blockSize + k) * den = k * (den * 2 ^ block) := by
    rw [stepsAt_block hk h]
    ring
  have hhere := hsteps hm (hstart.imp_right And.left)
  have hnext : m * (den * 2 ^ block) + den * 2 ^ block ≤ stepsAt (block * blockSize + m + 1) * den := by
    have hle := Nat.mul_le_mul_right den (stepsAt_succ_le hm (hstart.imp_right And.left))
    have hunits : (m + 1) * 2 ^ block * den = m * (den * 2 ^ block) + den * 2 ^ block := by ring
    omega
  -- Before the first rank of a block the steps are only half as long, but the block starts there.
  have hprev : stepsAt (block * blockSize + m - 1) * den + den * 2 ^ block = m * (den * 2 ^ block) ∨
      block * blockSize + m = 0 ∨
      m * (den * 2 ^ block) ≤ num ∧ stepsAt (block * blockSize + m - 1) * den < m * (den * 2 ^ block) := by
    by_cases hinside : block = 0 ∨ blockSize < m
    · rcases m with _ | m
      · obtain rfl : block = 0 := hinside.resolve_right (Nat.not_lt_zero _)
        exact .inr (.inl (by omega))
      · left
        have hrank : block * blockSize + (m + 1) - 1 = block * blockSize + m := by omega
        rw [hrank, hsteps (by omega) (hinside.imp_right Nat.le_of_lt_succ)]
        ring
    · right; right
      obtain ⟨hblock, hnotlt⟩ := not_or.1 hinside
      obtain ⟨hge, hle⟩ := hstart.resolve_left hblock
      obtain rfl : m = blockSize := by omega
      have hlt : stepsAt (block * blockSize + blockSize - 1) < stepsAt (block * blockSize + blockSize) := by
        refine stepsAt_strictMono (Nat.sub_lt ?_ Nat.one_pos)
        exact Nat.add_pos_right _ (by decide)
      exact ⟨hle, hhere ▸ Nat.mul_lt_mul_of_pos_right hlt hden⟩
  have hparity : (block * blockSize + m) % 2 = m % 2 := by
    rw [blockSize_eq]
    omega
  constructor
  · rw [Nat.add_mul, hhere]
    rcases hprev with hprev | hzero | hprev
    · omega
    · rw [hzero, Nat.zero_sub, ← hzero, hhere]
      obtain rfl : m = 0 := by omega
      omega
    · omega
  · rw [Nat.add_mul, hhere]
    omega
  · intro h
    have hodd := hodd (hparity ▸ h)
    rw [Nat.add_mul, Nat.add_mul, hhere]
    rcases hprev with hprev | hzero | hprev
    · omega
    · rw [hzero] at h
      cases h
    · omega

theorem stepsAt_infinityRank : stepsAt infinityRank = blockSize * 2 ^ 2046 := by
  have hrank : infinityRank = (2046 + 1) * blockSize + 0 := by decide
  rw [hrank, stepsAt_later (by decide), Nat.add_zero]

theorem nearestRank_eq {rank num den : Nat} (hden : 0 < den) (h : RoundsTo rank num den)
    (hrank : rank < infinityRank) : nearestRank num den = rank := by
  have heq := (roundsTo_block hden rfl).unique hden h
  unfold nearestRank
  simp only [Nat.pow_eq]
  rw [heq]
  exact Nat.min_eq_right hrank.le

theorem nearestRank_lt {num den : Nat} (hden : 0 < den) (h : 2 * num < stepsAt infinityRank * den) :
    nearestRank num den < infinityRank := by
  have hlow := (@roundsTo_block num den _ hden rfl).low
  unfold nearestRank
  simp only [Nat.pow_eq]
  generalize (num / den).log2 - 52 = block at *
  generalize block * blockSize + roundQuotient num (den * 2 ^ block) = rank at *
  refine (Nat.min_le_right _ _).trans_lt ?_
  by_contra hge
  have hsteps : stepsAt infinityRank ≤ stepsAt (rank - 1) + stepsAt rank :=
    (stepsAt_strictMono.monotone (Nat.not_lt.1 hge)).trans (Nat.le_add_left _ _)
  have hmul := Nat.mul_le_mul_right den hsteps
  omega

theorem nearestRank_whole_lt {n : Nat} (h : n < 2 ^ 64) : nearestRank (n * stepsPerOne) 1 < infinityRank := by
  apply nearestRank_lt Nat.one_pos
  have hlimit : 2 * (2 ^ 64 * stepsPerOne) < stepsAt infinityRank := by
    rw [stepsAt_infinityRank]
    decide +kernel
  have hsteps : n * stepsPerOne ≤ 2 ^ 64 * stepsPerOne := Nat.mul_le_mul_right _ h.le
  omega

theorem nearestRank_le (num den : Nat) : nearestRank num den ≤ infinityRank := Nat.min_le_left _ _

end ScenarioScript.Number
