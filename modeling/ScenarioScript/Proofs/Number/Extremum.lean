import ScenarioScript.Proofs.Number.Order

/-!
# The smallest and the largest number

Putting numbers together by `least` or `greatest` gives an extremum of them all, in whatever order and groups. A NaN
does not count unless there is nothing else.
-/

namespace ScenarioScript

/-! ## Numbers that cannot be told apart -/

/-- Equal as numbers, or both a NaN. -/
def Number.Alike (x y : Float) : Prop := x == y ∨ x.isNaN ∧ y.isNaN

/-- Which end of the order. -/
inductive Extremum where
  | least
  | greatest
deriving DecidableEq, Repr

namespace Extremum

/-- How two numbers are put together. -/
def combine : Extremum → Float → Float → Float
  | least => Number.least
  | greatest => Number.greatest

/-- The first number is as far towards the end as the second one. -/
def Reaches : Extremum → Float → Float → Prop
  | least, x, y => x ≤ y
  | greatest, x, y => x ≥ y

/-- What an extremum of some numbers is. -/
structure IsOf (extremum : Extremum) (x : Float) (numbers : List Float) : Prop where
  isNaN_iff : x.isNaN ↔ ∀ y ∈ numbers, y.isNaN
  mem : x.isNaN = false → x ∈ numbers
  reaches : ∀ y ∈ numbers, y.isNaN = false → extremum.Reaches x y

section
variable {extremum : Extremum} {x y z : Float}

/-! ## Two numbers -/

theorem reaches_iff_steps (hx : x.isNaN = false) (hy : y.isNaN = false) : extremum.Reaches x y ↔
    match extremum with
    | least => Number.steps x ≤ Number.steps y
    | greatest => Number.steps y ≤ Number.steps x := by
  cases extremum with
  | least => exact Number.le_iff_steps hx hy
  | greatest => exact Number.le_iff_steps hy hx

theorem reaches_refl (hx : x.isNaN = false) : extremum.Reaches x x := by
  rw [reaches_iff_steps hx hx]
  cases extremum <;> exact Int.le_refl _

theorem Reaches.trans (hxy : extremum.Reaches x y) (hyz : extremum.Reaches y z) (hx : x.isNaN = false)
    (hy : y.isNaN = false) (hz : z.isNaN = false) : extremum.Reaches x z := by
  rw [reaches_iff_steps hx hy] at hxy
  rw [reaches_iff_steps hy hz] at hyz
  rw [reaches_iff_steps hx hz]
  cases extremum with
  | least => exact Int.le_trans hxy hyz
  | greatest => exact Int.le_trans hyz hxy

theorem Reaches.antisymm (hxy : extremum.Reaches x y) (hyx : extremum.Reaches y x) (hx : x.isNaN = false)
    (hy : y.isNaN = false) : x == y := by
  rw [reaches_iff_steps hx hy] at hxy
  rw [reaches_iff_steps hy hx] at hyx
  rw [Number.beq_iff_steps hx hy]
  cases extremum with
  | least => exact Int.le_antisymm hxy hyx
  | greatest => exact Int.le_antisymm hyx hxy

theorem combine_of_isNaN_left (hx : x.isNaN) : extremum.combine x y = y := by
  cases extremum with
  | least => exact if_pos (by rw [hx, Bool.true_or])
  | greatest => exact if_pos (by rw [hx, Bool.true_or])

theorem combine_of_isNaN_right (hy : y.isNaN) (hx : x.isNaN = false) : extremum.combine x y = x := by
  have hlt : ¬ x < y := Number.not_lt_of_isNaN (by rw [hy, Bool.or_true])
  have hgt : ¬ y < x := Number.not_lt_of_isNaN (by rw [hy, Bool.true_or])
  cases extremum with
  | least => exact if_neg (by rwa [hx, Bool.false_or, decide_eq_true_iff])
  | greatest => exact if_neg (by rwa [hx, Bool.false_or, decide_eq_true_iff])

variable (extremum) in
theorem combine_cases (hx : x.isNaN = false) (hy : y.isNaN = false) :
    extremum.combine x y = x ∧ extremum.Reaches x y ∨ extremum.combine x y = y ∧ extremum.Reaches y x := by
  rw [reaches_iff_steps hx hy, reaches_iff_steps hy hx]
  cases extremum with
  | least =>
    by_cases hlt : y < x
    · refine .inr ⟨if_pos (by rw [decide_eq_true hlt, Bool.or_true]), ?_⟩
      exact Int.le_of_lt ((Number.lt_iff_steps hy hx).1 hlt)
    · refine .inl ⟨if_neg (by rwa [hx, Bool.false_or, decide_eq_true_iff]), ?_⟩
      rwa [Number.lt_iff_steps hy hx, Int.not_lt] at hlt
  | greatest =>
    by_cases hlt : x < y
    · refine .inr ⟨if_pos (by rw [decide_eq_true hlt, Bool.or_true]), ?_⟩
      exact Int.le_of_lt ((Number.lt_iff_steps hx hy).1 hlt)
    · refine .inl ⟨if_neg (by rwa [hx, Bool.false_or, decide_eq_true_iff]), ?_⟩
      rwa [Number.lt_iff_steps hx hy, Int.not_lt] at hlt

/-! ## Lists of numbers -/

theorem isOf_singleton (x : Float) : extremum.IsOf x [x] where
  isNaN_iff := by simp
  mem _ := List.mem_singleton_self x
  reaches y hy hnan := by
    obtain rfl := List.mem_singleton.1 hy
    exact reaches_refl hnan

section
variable {numbers others : List Float}

theorem IsOf.append_of_reaches (hx : extremum.IsOf x numbers) (hy : extremum.IsOf y others)
    (hxnan : x.isNaN = false) (hynan : y.isNaN = false) (hxy : extremum.Reaches x y) :
    extremum.IsOf x (numbers ++ others) where
  isNaN_iff := by
    rw [List.forall_mem_append, ← hx.isNaN_iff, hxnan]
    simp
  mem _ := List.mem_append_left others (hx.mem hxnan)
  reaches z hz hznan := by
    rcases List.mem_append.1 hz with hz | hz
    · exact hx.reaches z hz hznan
    · exact hxy.trans (hy.reaches z hz hznan) hxnan hynan hznan

theorem IsOf.append_of_isNaN (hx : extremum.IsOf x numbers) (hy : extremum.IsOf y others) (hynan : y.isNaN) :
    extremum.IsOf x (numbers ++ others) where
  isNaN_iff := by
    have hothers : ∀ z ∈ others, z.isNaN := hy.isNaN_iff.1 hynan
    rw [List.forall_mem_append, ← hx.isNaN_iff]
    exact (and_iff_left hothers).symm
  mem hxnan := List.mem_append_left others (hx.mem hxnan)
  reaches z hz hznan := by
    rcases List.mem_append.1 hz with hz | hz
    · exact hx.reaches z hz hznan
    · cases (hy.isNaN_iff.1 hynan z hz).symm.trans hznan

theorem IsOf.congr (hx : extremum.IsOf x numbers) (h : ∀ y, y ∈ numbers ↔ y ∈ others) : extremum.IsOf x others where
  isNaN_iff := by simp only [hx.isNaN_iff, h]
  mem hxnan := (h x).1 (hx.mem hxnan)
  reaches y hy := hx.reaches y ((h y).2 hy)

theorem IsOf.combine (hx : extremum.IsOf x numbers) (hy : extremum.IsOf y others) :
    extremum.IsOf (extremum.combine x y) (numbers ++ others) := by
  have hswap {z : Float} (h : extremum.IsOf z (others ++ numbers)) : extremum.IsOf z (numbers ++ others) :=
    h.congr fun _ => List.perm_append_comm.mem_iff
  -- a NaN gives way to the other number, and only without one the order decides
  cases hxnan : x.isNaN with
  | true =>
    rw [combine_of_isNaN_left hxnan]
    exact hswap (hy.append_of_isNaN hx hxnan)
  | false =>
    cases hynan : y.isNaN with
    | true =>
      rw [combine_of_isNaN_right hynan hxnan]
      exact hx.append_of_isNaN hy hynan
    | false =>
      rcases combine_cases extremum hxnan hynan with ⟨hcombine, hreaches⟩ | ⟨hcombine, hreaches⟩
      · rw [hcombine]
        exact hx.append_of_reaches hy hxnan hynan hreaches
      · rw [hcombine]
        exact hswap (hy.append_of_reaches hx hynan hxnan hreaches)

theorem IsOf.foldl (hx : extremum.IsOf x numbers) (others : List Float) :
    extremum.IsOf (others.foldl extremum.combine x) (numbers ++ others) := by
  induction others generalizing x numbers with
  | nil => simpa using hx
  | cons y others ih => simpa using ih (hx.combine (isOf_singleton y))

theorem IsOf.alike (hx : extremum.IsOf x numbers) (hy : extremum.IsOf y numbers) : Number.Alike x y := by
  cases hxnan : x.isNaN with
  | true => exact .inr ⟨hxnan, hy.isNaN_iff.2 (hx.isNaN_iff.1 hxnan)⟩
  | false =>
    have hynan : y.isNaN = false := by
      rw [Bool.eq_false_iff, ne_eq, hy.isNaN_iff, ← hx.isNaN_iff, hxnan]
      simp
    have hxy : extremum.Reaches x y := hx.reaches y (hy.mem hynan) hynan
    exact .inl (hxy.antisymm (hy.reaches x (hx.mem hxnan) hxnan) hxnan hynan)

end

end

end Extremum

end ScenarioScript
