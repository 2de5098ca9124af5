import Mathlib.Algebra.Order.Group.Nat
import Mathlib.Tactic.Ring

/-!
# Clamping to an octagon

A quadrant of an octagon reaches `max` along the axes and `(xy, xy)` on the diagonal. A point outside
is pulled in along its ray, with coordinates rounded down.
-/
namespace SdkPort.Octagon

variable {max xy x y : Nat}

/-- How far out a point lies: `xy * max` on the boundary. -/
def reach (max xy x y : Nat) : Nat :=
  if y ≤ x then xy * x + (max - xy) * y else xy * y + (max - xy) * x

def Inside (max xy x y : Nat) : Prop := reach max xy x y ≤ xy * max

def clamp (max xy x y : Nat) : Nat × Nat :=
  let d := reach max xy x y
  if xy * max < d then (xy * max * x / d, xy * max * y / d) else (x, y)

theorem reach_comm (max xy x y : Nat) : reach max xy x y = reach max xy y x := by
  unfold reach
  rcases Nat.lt_trichotomy x y with h | rfl | h
  · rw [if_neg (by omega), if_pos (by omega)]
  · rfl
  · rw [if_pos (by omega), if_neg (by omega)]

theorem clamp_comm (max xy x y : Nat) : clamp max xy x y = (clamp max xy y x).swap := by
  unfold clamp
  rw [reach_comm max xy x y]
  dsimp only
  split <;> rfl

theorem Inside.comm (h : Inside max xy x y) : Inside max xy y x := by
  rw [Inside, reach_comm]
  exact h

theorem Inside.le_max (h : Inside max xy x y) (h₀ : 0 < xy) : x ≤ max ∧ y ≤ max := by
  have hx : xy * x ≤ xy * max ∧ xy * y ≤ xy * max := by
    unfold Inside reach at h
    split at h
    · rename_i hle
      have := Nat.mul_le_mul_left xy hle
      omega
    · rename_i hle
      have := Nat.mul_le_mul_left xy (Nat.le_of_not_le hle)
      omega
  exact ⟨Nat.le_of_mul_le_mul_left hx.1 h₀, Nat.le_of_mul_le_mul_left hx.2 h₀⟩

theorem clamp_of_inside (h : Inside max xy x y) : clamp max xy x y = (x, y) := if_neg (Nat.not_lt.2 h)

/-- A point outside, scaled to the boundary. -/
theorem clamp_of_outside (h : ¬ Inside max xy x y) :
    clamp max xy x y = (xy * max * x / reach max xy x y, xy * max * y / reach max xy x y) := if_pos (Nat.not_le.1 h)

/-- The coordinates keep their order. -/
theorem clamp_le (h : y ≤ x) : (clamp max xy x y).2 ≤ (clamp max xy x y).1 := by
  unfold clamp
  dsimp only
  split
  · exact Nat.div_le_div_right (Nat.mul_le_mul_left _ h)
  · exact h

/-- Scaling down keeps the weighted sum of the coordinates below that of the point scaled exactly. -/
theorem scaled_le {b d x y a k : Nat} : d * (a * (b * x / d) + k * (b * y / d)) ≤ b * (a * x + k * y) :=
  calc d * (a * (b * x / d) + k * (b * y / d))
    _ = a * (d * (b * x / d)) + k * (d * (b * y / d)) := by ring
    _ ≤ a * (b * x) + k * (b * y) :=
      Nat.add_le_add (Nat.mul_le_mul_left a (Nat.mul_div_le _ _)) (Nat.mul_le_mul_left k (Nat.mul_div_le _ _))
    _ = b * (a * x + k * y) := by ring

theorem clamp_inside (max xy x y : Nat) : Inside max xy (clamp max xy x y).1 (clamp max xy x y).2 := by
  wlog hle : y ≤ x generalizing x y with hsym
  · rw [clamp_comm]
    exact (hsym y x (Nat.le_of_not_le hle)).comm
  by_cases hin : Inside max xy x y
  · rw [clamp_of_inside hin]
    exact hin
  · have hord := @clamp_le max xy x y hle
    rw [clamp_of_outside hin] at hord ⊢
    have hd : reach max xy x y = xy * x + (max - xy) * y := if_pos hle
    have hpos : 0 < reach max xy x y := Nat.lt_of_le_of_lt (Nat.zero_le _) (Nat.not_le.1 hin)
    rw [Inside, reach, if_pos hord]
    apply Nat.le_of_mul_le_mul_left _ hpos
    calc reach max xy x y * (xy * (xy * max * x / reach max xy x y) + (max - xy) * (xy * max * y / reach max xy x y))
      _ ≤ xy * max * (xy * x + (max - xy) * y) := scaled_le
      _ = reach max xy x y * (xy * max) := by rw [← hd]; ring

/-- The clamped point is the last one: a step further out on both axes leaves the octagon. -/
theorem clamp_last (h : xy ≤ max) (ho : ¬ Inside max xy x y) :
    ¬ Inside max xy ((clamp max xy x y).1 + 1) ((clamp max xy x y).2 + 1) := by
  wlog hle : y ≤ x generalizing x y with hsym
  · rw [clamp_comm]
    intro hi
    exact hsym (fun hc => ho hc.comm) (Nat.le_of_not_le hle) hi.comm
  have hord := @clamp_le max xy x y hle
  rw [clamp_of_outside ho] at hord ⊢
  have hd : reach max xy x y = xy * x + (max - xy) * y := if_pos hle
  have hpos : 0 < reach max xy x y := Nat.lt_of_le_of_lt (Nat.zero_le _) (Nat.not_le.1 ho)
  have hmax : 0 < max := by
    rcases Nat.eq_zero_or_pos max with rfl | hm
    · have hxy : xy = 0 := by omega
      subst hxy
      exact absurd (by simp [Inside, reach]) ho
    · exact hm
  have hx := Nat.lt_mul_div_succ (xy * max * x) hpos
  have hy := Nat.lt_mul_div_succ (xy * max * y) hpos
  rw [Inside, reach, if_pos (by omega), Nat.not_le]
  generalize reach max xy x y = d at hd hpos hx hy hord ⊢
  generalize xy * max * x / d = x' at hx hord ⊢
  generalize xy * max * y / d = y' at hy hord ⊢
  obtain ⟨k, rfl⟩ := Nat.exists_eq_add_of_le h
  rw [show xy + k - xy = k by omega] at hd ⊢
  apply Nat.lt_of_mul_lt_mul_left (a := d)
  calc d * (xy * (xy + k))
    _ = xy * (xy * (xy + k) * x) + k * (xy * (xy + k) * y) := by rw [hd]; ring
    _ < xy * (xy * (xy + k) * x + 1) + k * (xy * (xy + k) * y + 1) := by rw [Nat.mul_succ, Nat.mul_succ]; omega
    _ ≤ xy * (d * (x' + 1)) + k * (d * (y' + 1)) := Nat.add_le_add (Nat.mul_le_mul_left xy hx) (Nat.mul_le_mul_left k hy)
    _ = d * (xy * (x' + 1) + k * (y' + 1)) := by ring

/-- Two coordinates that are scaled alike and rounded down. -/
theorem scaled_cross {b d x y : Nat} (h : 0 < d) : b * x / d * y ≤ (b * y / d + 1) * x := by
  apply Nat.le_of_mul_le_mul_left _ h
  calc d * (b * x / d * y)
    _ = d * (b * x / d) * y := by ring
    _ ≤ b * x * y := Nat.mul_le_mul_right y (Nat.mul_div_le _ _)
    _ = b * y * x := by ring
    _ ≤ d * (b * y / d + 1) * x := Nat.mul_le_mul_right x (Nat.le_of_lt (Nat.lt_mul_div_succ _ h))
    _ = d * ((b * y / d + 1) * x) := by ring

/-- The direction is kept up to the rounding of one coordinate. -/
theorem clamp_ray (max xy x y : Nat) :
    (clamp max xy x y).1 * y ≤ ((clamp max xy x y).2 + 1) * x ∧ (clamp max xy x y).2 * x ≤ ((clamp max xy x y).1 + 1) * y := by
  by_cases hin : Inside max xy x y
  · rw [clamp_of_inside hin]
    dsimp only
    exact ⟨by rw [Nat.succ_mul, Nat.mul_comm x y]; omega, by rw [Nat.succ_mul, Nat.mul_comm y x]; omega⟩
  · have hpos : 0 < reach max xy x y := Nat.lt_of_le_of_lt (Nat.zero_le _) (Nat.not_le.1 hin)
    rw [clamp_of_outside hin]
    exact ⟨scaled_cross hpos, scaled_cross hpos⟩

end SdkPort.Octagon
