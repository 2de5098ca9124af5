import Mathlib.Algebra.BigOperators.Intervals
import Mathlib.Algebra.Order.BigOperators.Group.Finset
import Mathlib.Data.Nat.Log

/-!
# Chains of halved rectangles

The sides of a rectangle are halved over and over, rounding down but not below 1, until both
are 1. The measure of all rectangles on the way is a sum over the levels.
-/
namespace SdkPort.MipChain

open Finset (range)

variable {n n' k w w' h h' c : Nat} {area : Nat → Nat → Nat}

/-- A side after some halvings. -/
def half (k w : Nat) : Nat := max 1 (w / 2 ^ k)

/-- The number of rectangles down to the one with both sides 1. -/
def levels (w h : Nat) : Nat := Nat.log 2 (max w h) + 1

def chainSum (area : Nat → Nat → Nat) (n w h : Nat) : Nat :=
  ∑ k ∈ range (min n (levels w h)), area (half k w) (half k h)

theorem half_zero (hw : 1 ≤ w) : half 0 w = w := by
  rw [half, Nat.pow_zero, Nat.div_one, Nat.max_eq_right hw]

theorem half_le (hw : 1 ≤ w) : half k w ≤ w := Nat.max_le.mpr ⟨hw, Nat.div_le_self _ _⟩

theorem half_mono (hw : w ≤ w') : half k w ≤ half k w' := by
  have hdiv : w / 2 ^ k ≤ w' / 2 ^ k := Nat.div_le_div_right hw
  rw [half, half]
  omega

theorem half_half (k w : Nat) : half k (half 1 w) = half (k + 1) w := by
  have hpow : w / 2 ^ (k + 1) = w / 2 / 2 ^ k := by rw [Nat.pow_succ', Nat.div_div_eq_div_mul]
  rw [half, half, half, hpow, Nat.pow_one]
  by_cases hw : 1 ≤ w / 2
  · rw [Nat.max_eq_right hw]
  · have hzero : w / 2 = 0 := by omega
    have hone : 1 / 2 ^ k ≤ 1 := Nat.div_le_self 1 _
    rw [hzero, Nat.zero_div, Nat.max_eq_left (Nat.zero_le 1), Nat.max_eq_left hone]

theorem levels_one : levels 1 1 = 1 := by
  rw [levels, Nat.max_self, Nat.log_one_right]

/-- Halving the sides of a rectangle takes one level off. -/
theorem levels_half (hlong : 1 < max w h) : levels w h = levels (half 1 w) (half 1 h) + 1 := by
  have hmax : max (half 1 w) (half 1 h) = max w h / 2 := by
    rw [half, half, Nat.pow_one]
    omega
  rw [levels, levels, hmax, Nat.log_of_one_lt_of_le (by decide) hlong]

theorem levels_mono (hw : w ≤ w') (hh : h ≤ h') : levels w h ≤ levels w' h' := by
  have hmax : max w h ≤ max w' h' := max_le_max hw hh
  exact Nat.succ_le_succ (Nat.log_mono_right hmax)

theorem chainSum_zero : chainSum area 0 w h = 0 := by
  rw [chainSum, Nat.zero_min, Finset.sum_range_zero]

theorem chainSum_one (n : Nat) : chainSum area (n + 1) 1 1 = area 1 1 := by
  rw [chainSum, levels_one, Nat.min_eq_right (Nat.succ_le_succ n.zero_le), Finset.sum_range_one,
    half_zero (Nat.le_refl 1)]

/-- The first rectangle of a chain, and the chain of its half. -/
theorem chainSum_succ (hw : 1 ≤ w) (hh : 1 ≤ h) (hlong : 1 < max w h) :
    chainSum area (n + 1) w h = area w h + chainSum area n (half 1 w) (half 1 h) := by
  rw [chainSum, levels_half hlong, Nat.succ_min_succ, Finset.sum_range_succ', half_zero hw, half_zero hh, Nat.add_comm,
    chainSum]
  simp only [half_half]

/-- A larger rectangle and more levels have a larger chain. -/
theorem chainSum_mono (harea : ∀ {w w' h h'}, w ≤ w' → h ≤ h' → area w h ≤ area w' h')
    (hn : n ≤ n') (hw : w ≤ w') (hh : h ≤ h') : chainSum area n w h ≤ chainSum area n' w' h' := by
  have hlevels : min n (levels w h) ≤ min n' (levels w' h') := min_le_min hn (levels_mono hw hh)
  calc chainSum area n w h
      ≤ ∑ k ∈ range (min n (levels w h)), area (half k w') (half k h') :=
        Finset.sum_le_sum (fun k _ => harea (half_mono hw) (half_mono hh))
    _ ≤ chainSum area n' w' h' :=
        Finset.sum_le_sum_of_subset (Finset.range_subset_range.mpr hlevels)

/-- No rectangle of a chain is larger than the first. -/
theorem chainSum_le (harea : ∀ {w w' h h'}, w ≤ w' → h ≤ h' → area w h ≤ area w' h')
    (hw : 1 ≤ w) (hh : 1 ≤ h) : chainSum area n w h ≤ levels w h * area w h := by
  calc chainSum area n w h
      ≤ (range (min n (levels w h))).card • area w h :=
        Finset.sum_le_card_nsmul _ _ _ (fun k _ => harea (half_le hw) (half_le hh))
    _ = min n (levels w h) * area w h := by rw [Finset.card_range, Nat.nsmul_eq_mul]
    _ ≤ levels w h * area w h := Nat.mul_le_mul_right _ (Nat.min_le_right _ _)

end SdkPort.MipChain
