import Mathlib.Algebra.Order.Round
import Mathlib.Data.Int.Log
import Mathlib.Data.Rat.Floor
import Mathlib.Tactic.Linarith

/-!
Owns rounding as floating-point arithmetic does it: what is assumed of a rounding
function, and the one of the 64-bit format, to the nearest number with 53 binary
digits and to the even one of two. The result is the error it makes.

Does not own overflow: the exponent has no upper bound.
-/

set_option autoImplicit false

namespace Sidewalk.Foundation.Binary64

/-- Numbers up to `range` are rounded by at most `error`. -/
def Close (round : ℚ → ℚ) (range error : ℚ) : Prop := ∀ x, |x| ≤ range → |round x - x| ≤ error

/-- Rounding something close to a number. -/
theorem Close.of_near {round : ℚ → ℚ} {range error : ℚ} (close : Close round range error)
    {x target distance : ℚ} (near : |x - target| ≤ distance) (inRange : |x| ≤ range) :
    |round x - target| ≤ distance + error :=
  calc |round x - target| ≤ |round x - x| + |x - target| := abs_sub_le _ _ _
    _ ≤ error + distance := add_le_add (close x inRange) near
    _ = distance + error := add_comm _ _

theorem Close.abs_round_le {round : ℚ → ℚ} {range error : ℚ} (close : Close round range error)
    {x : ℚ} (inRange : |x| ≤ range) : |round x| ≤ |x| + error := by
  have grown := abs_sub_abs_le_abs_sub (round x) x
  linarith [close x inRange]

/-- The nearest integer, and the even one of two. -/
def nearestEven (x : ℚ) : Int :=
  if Int.fract x = 1 / 2 then if ⌊x⌋ % 2 = 0 then ⌊x⌋ else ⌊x⌋ + 1 else round x

theorem abs_nearestEven_sub (x : ℚ) : |(nearestEven x : ℚ) - x| ≤ 1 / 2 := by
  unfold nearestEven
  split
  next half =>
    have split : (⌊x⌋ : ℚ) + 1 / 2 = x := half ▸ Int.floor_add_fract x
    split
    next =>
      rw [abs_le]
      constructor <;> linarith
    next =>
      rw [Int.cast_add, Int.cast_one, abs_le]
      constructor <;> linarith
  next =>
    rw [abs_sub_comm]
    exact abs_sub_round x

/-- The distance of the numbers of the format around `x`. -/
def quantum (x : ℚ) : ℚ := 2 ^ max (Int.log 2 |x| - 52) (-1074)

/-- `x` in the format. -/
def binary64 (x : ℚ) : ℚ := nearestEven (x / quantum x) * quantum x

theorem quantum_pos (x : ℚ) : 0 < quantum x := zpow_pos zero_lt_two _

theorem abs_binary64_sub (x : ℚ) : |binary64 x - x| ≤ quantum x / 2 := by
  have positive := quantum_pos x
  have scaled : binary64 x - x = (nearestEven (x / quantum x) - x / quantum x) * quantum x := by
    rw [sub_mul, div_mul_cancel₀ x positive.ne']
    rfl
  rw [scaled, abs_mul, abs_of_pos positive]
  calc |(nearestEven (x / quantum x) : ℚ) - x / quantum x| * quantum x
      ≤ 1 / 2 * quantum x := mul_le_mul_of_nonneg_right (abs_nearestEven_sub _) positive.le
    _ = quantum x / 2 := by ring

theorem quantum_le {x : ℚ} {k : Nat} (small : |x| ≤ 2 ^ k) : quantum x ≤ 2 ^ k / 2 ^ 52 := by
  have exponent : Int.log 2 |x| ≤ k := by
    by_cases zero : x = 0
    · simp [zero]
    · have mono := Int.log_mono_right (b := 2) (abs_pos.mpr zero) small
      have top : Int.log 2 ((2 : ℚ) ^ k) = k := by
        exact_mod_cast Int.log_zpow (R := ℚ) (b := 2) one_lt_two k
      exact top ▸ mono
  have bound : max (Int.log 2 |x| - 52) (-1074) ≤ (k : Int) - 52 := by omega
  calc quantum x ≤ 2 ^ ((k : Int) - 52) := zpow_le_zpow_right₀ one_le_two bound
    _ = 2 ^ k / 2 ^ 52 := by
        rw [zpow_sub₀ two_ne_zero]
        norm_cast

/-- Numbers up to a power of two are rounded by at most half the distance of the
numbers just below it. -/
theorem binary64_close (k : Nat) : Close binary64 (2 ^ k) (2 ^ k / 2 ^ 53) := by
  intro x small
  calc |binary64 x - x| ≤ quantum x / 2 := abs_binary64_sub x
    _ ≤ 2 ^ k / 2 ^ 52 / 2 := div_le_div_of_nonneg_right (quantum_le small) zero_le_two
    _ = 2 ^ k / 2 ^ 53 := by ring

/-- `0.4 * 5`, whose exact product is above 2. -/
example : binary64 (binary64 (2 / 5) * 5) = 2 := by decide +kernel

end Sidewalk.Foundation.Binary64
