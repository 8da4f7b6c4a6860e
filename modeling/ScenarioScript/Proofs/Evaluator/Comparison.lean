import Mathlib.Data.String.Basic
import Mathlib.Order.Compare
import ScenarioScript.Evaluator.Eval
import ScenarioScript.Proofs.Number.Order
import ScenarioScript.Proofs.PatternCache

/-!
# Comparisons

Texts are compared as texts unless both spell a number. All other operands are compared as numbers, by their
exact values. With a NaN only `!=` holds.
-/

namespace ScenarioScript

variable {State : Type}

inductive Comparison where
  | eq
  | ne
  | lt
  | le
  | gt
  | ge
deriving DecidableEq

namespace Comparison

def op : Comparison → BinaryOp
  | eq => .eq
  | ne => .ne
  | lt => .lt
  | le => .le
  | gt => .gt
  | ge => .ge

section
variable {α : Type} [BEq α] [LT α] [LE α] [DecidableLT α] [DecidableLE α]

/-- What a comparison says of two things that have an order. -/
def holds : Comparison → α → α → Bool
  | eq, x, y => x == y
  | ne, x, y => x != y
  | lt, x, y => x < y
  | le, x, y => x ≤ y
  | gt, x, y => x > y
  | ge, x, y => x ≥ y

end

/-- What a comparison says of two values. If one of two texts spells no number, both are compared as texts. -/
def relates (comparison : Comparison) : Value → Value → Bool
  | .text s, .text t =>
    if (Value.spelledNumber? s).isSome && (Value.spelledNumber? t).isSome then
      comparison.holds (Value.text s).toNumber (Value.text t).toNumber
    else comparison.holds s t
  | a, b => comparison.holds a.toNumber b.toNumber

/-! ## Orders -/

theorem holds_compare {α : Type} [LinearOrder α] [BEq α] [LawfulBEq α] (comparison : Comparison) (x y : α) :
    comparison.op.holds (some (compare x y)) = comparison.holds x y := by
  rcases lt_trichotomy x y with h | rfl | h
  · rw [compare_lt_iff_lt.2 h]
    cases comparison <;> simp [op, BinaryOp.holds, holds, bne, h, h.le, h.ne, h.not_gt, h.not_ge]
  · rw [compare_eq_iff_eq.2 rfl]
    cases comparison <;> simp [op, BinaryOp.holds, holds]
  · rw [compare_gt_iff_gt.2 h]
    cases comparison <;> simp [op, BinaryOp.holds, holds, bne, h, h.le, h.ne', h.not_gt, h.not_ge]

theorem holds_number (comparison : Comparison) (x y : Float) :
    comparison.holds x y =
      if x.isNaN || y.isNaN then comparison == ne else comparison.holds (Number.steps x) (Number.steps y) := by
  cases hnan : x.isNaN || y.isNaN with
  | true =>
    have hnan' : y.isNaN || x.isNaN := by rwa [Bool.or_comm]
    have hlt := Number.not_lt_of_isNaN hnan
    have hgt := Number.not_lt_of_isNaN hnan'
    have hle := Number.not_le_of_isNaN hnan
    have hge := Number.not_le_of_isNaN hnan'
    cases comparison <;> simp [holds, bne, hlt, hgt, hle, hge, Number.beq_of_isNaN hnan]
  | false =>
    obtain ⟨hx, hy⟩ := Bool.or_eq_false_iff.1 hnan
    have heq : (x == y) = (Number.steps x == Number.steps y) := by
      rw [Bool.eq_iff_iff, Number.beq_iff_steps hx hy, beq_iff_eq]
    cases comparison <;>
      simp [holds, bne, heq, Number.lt_iff_steps hx hy, Number.lt_iff_steps hy hx, Number.le_iff_steps hx hy,
        Number.le_iff_steps hy hx]

theorem holds_compare? (comparison : Comparison) (x y : Float) :
    comparison.op.holds (Number.compare? x y) = comparison.holds x y := by
  rw [Number.compare?_eq, holds_number]
  split
  · cases comparison <;> rfl
  · exact holds_compare comparison _ _

theorem holds_text (comparison : Comparison) (s t : String) :
    comparison.op.holds (some (Ord.compare s t)) = comparison.holds s t := holds_compare comparison s t

theorem holds_value (comparison : Comparison) (a b : Value) :
    comparison.op.holds (a.compare? b) = comparison.relates a b := by
  cases a with
  | number x => exact holds_compare? comparison x b.toNumber
  | text s =>
    cases b with
    | number y => exact holds_compare? comparison (Value.text s).toNumber y
    | text t =>
      unfold Value.compare? relates
      cases hs : Value.spelledNumber? s with
      | none => simpa [hs] using holds_text comparison s t
      | some x =>
        cases ht : Value.spelledNumber? t with
        | none => simpa [hs, ht] using holds_text comparison s t
        | some y => simpa [hs, ht, Value.toNumber] using holds_compare? comparison x y

end Comparison

namespace Evaluator

theorem combine_comparison (evaluator : Evaluator State) (comparison : Comparison) (a b : Value) :
    evaluator.combine comparison.op a b = pure (.ofBool (comparison.relates a b)) := by
  rw [← comparison.holds_value]
  cases comparison <;> rfl

/-- A comparison evaluates both operands and says how they are ordered. Numbers are ordered by their steps,
and with a NaN only `!=` holds. -/
theorem eval_comparison (evaluator : Evaluator State) (comparison : Comparison) (left right : Expr) :
    (evaluator.eval (.binary comparison.op left right) = do
      let a ← evaluator.eval left
      let b ← evaluator.eval right
      return .ofBool (comparison.relates a b)) ∧
    ∀ x y : Float, comparison.holds x y =
      if x.isNaN || y.isNaN then comparison == .ne else comparison.holds (Number.steps x) (Number.steps y) := by
  refine ⟨?_, comparison.holds_number⟩
  simp only [← combine_comparison evaluator]
  cases comparison <;> simp only [Comparison.op, eval]

/-- Of two texts only one spells a number. The other one reads as the same number, but they are not equal. -/
theorem eval_comparison_word :
    (if (Value.spelledNumber? "abc").isNone && (Value.spelledNumber? "0").isNone then Comparison.eq.holds "abc" "0"
      else Comparison.eq.holds (Value.text "abc").toNumber (Value.text "0").toNumber) = true ∧
    ∃ after found, (bare .words "c").evaluate (.binary .eq (.literal (.text "abc")) (.literal (.text "0")))
      ⟨⟨.empty, ()⟩, #[]⟩ = .ok (⟨.ofBool false, []⟩, after) found :=
  ⟨by decide +kernel, _, _, rfl⟩

end Evaluator

end ScenarioScript
