import Mathlib.Tactic.IntervalCases
import SdkPort.PAD.Pad
import SdkPort.Lib.Octagon

/-!
# Clamped controllers

A stick loses its dead zone and is pulled into an octagon, quadrant by quadrant. A trigger loses its
dead zone and is cut at its end.
-/
namespace SdkPort.PAD

open State.SdkState

variable {px py outer diag inner : BitVec 8} {x y : Int} {M K n : Nat}

/-- How far a coordinate is past the dead zone. -/
def past (n : Nat) (v : Int) : Nat := v.natAbs - n

theorem dead_eq (n : Nat) (v : Int) : dead n v = past n v := by
  simp only [dead, past]
  split <;> split <;> omega

theorem toInt_s8 {v : Int} (h₁ : -128 ≤ v) (h₂ : v ≤ 127) : (s8 v).toInt = v := by
  rw [s8, BitVec.toInt_ofInt]
  exact Int.bmod_eq_of_le (by omega) (by omega)

theorem sign_mul_bounds (v : Int) {a : Nat} (h : a ≤ 127) : -128 ≤ sign v * (a : Int) ∧ sign v * (a : Int) ≤ 127 := by
  unfold sign
  split <;> omega

theorem natAbs_sign_mul (v : Int) (a : Nat) : (sign v * (a : Int)).natAbs = a := by
  unfold sign
  split <;> omega

/-- The weighted sum of the source. -/
theorem reach_cast (hk : 0 < K) (hm : K ≤ M) (a b : Nat) :
    (if (K : Int) * b ≤ K * a then (K : Int) * a + (M - K) * b else K * b + (M - K) * a) = Octagon.reach M K a b := by
  have hle : (K : Int) * b ≤ K * a ↔ b ≤ a := by
    rw [Int.mul_le_mul_left (by omega)]
    exact Int.ofNat_le
  unfold Octagon.reach
  by_cases h : b ≤ a
  · rw [if_pos (hle.2 h), if_pos h]
    push_cast [hm]
    rfl
  · rw [if_neg (fun hc => h (hle.1 hc)), if_neg h]
    push_cast [hm]
    rfl

/-- A stick is a point of the octagon, with its signs. -/
theorem clampStick_eq (hmax : outer.toInt = M) (hxy : diag.toInt = K) (hmin : inner.toInt = n) (hk : 0 < K) (hm : K ≤ M)
    (hM : M ≤ 127) :
    (ClampStick px py outer diag inner).1.toInt = sign px.toInt * (Octagon.clamp M K (past n px.toInt) (past n py.toInt)).1 ∧
      (ClampStick px py outer diag inner).2.toInt = sign py.toInt * (Octagon.clamp M K (past n px.toInt) (past n py.toInt)).2 := by
  have hbound := (Octagon.clamp_inside M K (past n px.toInt) (past n py.toInt)).le_max hk
  unfold ClampStick
  simp only [hmax, hxy, hmin, dead_eq, reach_cast hk hm]
  generalize past n px.toInt = a at hbound ⊢
  generalize past n py.toInt = b at hbound ⊢
  by_cases hz : (a : Int) = 0 ∧ (b : Int) = 0
  · have ha : a = 0 := by omega
    have hb : b = 0 := by omega
    subst ha hb
    rw [if_pos hz, Octagon.clamp_of_inside (by simp [Octagon.Inside, Octagon.reach])]
    exact ⟨(Int.mul_zero _).symm, (Int.mul_zero _).symm⟩
  rw [if_neg hz]
  by_cases ho : K * M < Octagon.reach M K a b
  · have hcast : (K : Int) * M < (Octagon.reach M K a b : Int) := by exact_mod_cast ho
    rw [Octagon.clamp_of_outside (Nat.not_le.2 ho)] at hbound ⊢
    have hx : ((K : Int) * M * a).tdiv (Octagon.reach M K a b) = ((K * M * a / Octagon.reach M K a b : Nat) : Int) := by
      rw [← Int.natCast_mul, ← Int.natCast_mul, Int.ofNat_tdiv]
    have hy : ((K : Int) * M * b).tdiv (Octagon.reach M K a b) = ((K * M * b / Octagon.reach M K a b : Nat) : Int) := by
      rw [← Int.natCast_mul, ← Int.natCast_mul, Int.ofNat_tdiv]
    simp only [if_pos hcast, hx, hy]
    obtain ⟨h₁, h₂⟩ := hbound
    generalize K * M * a / Octagon.reach M K a b = x' at h₁ ⊢
    generalize K * M * b / Octagon.reach M K a b = y' at h₂ ⊢
    have hx' : (s8 x').toInt = x' := toInt_s8 (by omega) (by omega)
    have hy' : (s8 y').toInt = y' := toInt_s8 (by omega) (by omega)
    rw [hx', hy']
    have hp := sign_mul_bounds px.toInt (Nat.le_trans h₁ hM)
    have hq := sign_mul_bounds py.toInt (Nat.le_trans h₂ hM)
    exact ⟨toInt_s8 hp.1 hp.2, toInt_s8 hq.1 hq.2⟩
  · have hcast : ¬ (K : Int) * M < (Octagon.reach M K a b : Int) := by exact_mod_cast ho
    rw [Octagon.clamp_of_inside (Nat.not_lt.1 ho)] at hbound ⊢
    simp only [if_neg hcast]
    have hp := sign_mul_bounds px.toInt (Nat.le_trans hbound.1 hM)
    have hq := sign_mul_bounds py.toInt (Nat.le_trans hbound.2 hM)
    exact ⟨toInt_s8 hp.1 hp.2, toInt_s8 hq.1 hq.2⟩

/-- What clamping makes of the coordinates of a stick. -/
structure Clamped (M K n : Nat) (x y x' y' : Int) : Prop where
  inside : Octagon.Inside M K x'.natAbs y'.natAbs
  signX : x' = sign x * x'.natAbs
  signY : y' = sign y * y'.natAbs
  deadX : x.natAbs ≤ n → x' = 0
  deadY : y.natAbs ≤ n → y' = 0
  /-- A point of the octagon stays. -/
  exact : Octagon.Inside M K (past n x) (past n y) → x'.natAbs = past n x ∧ y'.natAbs = past n y
  /-- A point outside comes to the boundary. -/
  last : ¬ Octagon.Inside M K (past n x) (past n y) → ¬ Octagon.Inside M K (x'.natAbs + 1) (y'.natAbs + 1)
  ray : x'.natAbs * past n y ≤ (y'.natAbs + 1) * past n x ∧ y'.natAbs * past n x ≤ (x'.natAbs + 1) * past n y

theorem clamp_axis (M K b : Nat) : (Octagon.clamp M K 0 b).1 = 0 := by
  unfold Octagon.clamp
  dsimp only
  split
  · rw [Nat.mul_zero, Nat.zero_div]
  · rfl

theorem clamped_of_eq {x' y' : Int} (hm : K ≤ M) (hx : x' = sign x * (Octagon.clamp M K (past n x) (past n y)).1)
    (hy : y' = sign y * (Octagon.clamp M K (past n x) (past n y)).2) : Clamped M K n x y x' y' := by
  have hx' : x'.natAbs = (Octagon.clamp M K (past n x) (past n y)).1 := by rw [hx, natAbs_sign_mul]
  have hy' : y'.natAbs = (Octagon.clamp M K (past n x) (past n y)).2 := by rw [hy, natAbs_sign_mul]
  refine {
    inside := by rw [hx', hy']; exact Octagon.clamp_inside M K _ _
    signX := by rw [hx', hx]
    signY := by rw [hy', hy]
    deadX := fun h => ?_
    deadY := fun h => ?_
    exact := fun h => by rw [hx', hy', Octagon.clamp_of_inside h]; exact ⟨rfl, rfl⟩
    last := fun h => by rw [hx', hy']; exact Octagon.clamp_last hm h
    ray := by rw [hx', hy']; exact Octagon.clamp_ray M K _ _ }
  · rw [hx, show past n x = 0 from Nat.sub_eq_zero_of_le h, clamp_axis]
    exact Int.mul_zero _
  · rw [hy, show past n y = 0 from Nat.sub_eq_zero_of_le h, Octagon.clamp_comm, Prod.snd_swap, clamp_axis]
    exact Int.mul_zero _

theorem clampTrigger_toNat (t : BitVec 8) : (clampTrigger ClampRegion t).toNat = min t.toNat 180 - 30 := by
  have ht := t.isLt
  have h₁ : ClampRegion.minTrigger.toNat = 30 := rfl
  have h₂ : ClampRegion.maxTrigger.toNat = 180 := rfl
  unfold clampTrigger
  simp only [BitVec.le_def, BitVec.lt_def, h₁, h₂]
  split
  · rw [show (0 : BitVec 8).toNat = 0 from rfl]
    omega
  split
  · rw [BitVec.toNat_sub, h₁, h₂]
    omega
  · rw [BitVec.toNat_sub, h₁]
    omega

/-- Every controller that reports no error comes out with both sticks in their octagons, in their
quadrants and along their directions, and with its triggers from 0 to 150. The others are left. -/
theorem clamps_every_controller (p : Pad) (status : Fin 4 → PADStatus) (i : Fin 4) :
    ((status i).err ≠ PAD_ERR_NONE → (PADClamp p status).1 i = status i) ∧
      ((status i).err = PAD_ERR_NONE →
        Clamped 72 40 15 (status i).stickX.toInt (status i).stickY.toInt ((PADClamp p status).1 i).stickX.toInt
            ((PADClamp p status).1 i).stickY.toInt ∧
          Clamped 59 31 15 (status i).substickX.toInt (status i).substickY.toInt
            ((PADClamp p status).1 i).substickX.toInt ((PADClamp p status).1 i).substickY.toInt ∧
          ((PADClamp p status).1 i).triggerL.toNat = min (status i).triggerL.toNat 180 - 30 ∧
          ((PADClamp p status).1 i).triggerR.toNat = min (status i).triggerR.toNat 180 - 30 ∧
          ((PADClamp p status).1 i).button = (status i).button ∧ ((PADClamp p status).1 i).analogA = (status i).analogA ∧
          ((PADClamp p status).1 i).analogB = (status i).analogB ∧ ((PADClamp p status).1 i).err = PAD_ERR_NONE) := by
  simp only [PADClamp, clampStatus]
  refine ⟨fun h => if_pos h, fun h => ?_⟩
  rw [if_neg (not_not.2 h)]
  have hs := @clampStick_eq (status i).stickX (status i).stickY ClampRegion.maxStick ClampRegion.xyStick
    ClampRegion.minStick 72 40 15 (by decide) (by decide) (by decide) (by decide) (by decide) (by decide)
  have ht := @clampStick_eq (status i).substickX (status i).substickY ClampRegion.maxSubstick ClampRegion.xySubstick
    ClampRegion.minSubstick 59 31 15 (by decide) (by decide) (by decide) (by decide) (by decide) (by decide)
  exact ⟨clamped_of_eq (by decide) hs.1 hs.2, clamped_of_eq (by decide) ht.1 ht.2, clampTrigger_toNat _,
    clampTrigger_toNat _, rfl, rfl, rfl, h⟩

/-- The channels of the mask are those that read without an error, and the clamp leaves what is read. -/
theorem PADRead_rests (p q : Pad) (i : Fin 4) :
    (PADRead p).1.getMsbD i = decide (((PADRead p).2.1 i).err = PAD_ERR_NONE) ∧
      (PADClamp q (PADRead p).2.1).1 i = (PADRead p).2.1 i := by
  obtain ⟨i, hi⟩ := i
  constructor
  · show PAD_CHAN0_BIT.getMsbD i = decide ((if i = 0 then PAD_ERR_NONE else PAD_ERR_NO_CONTROLLER) = PAD_ERR_NONE)
    interval_cases i <;> decide
  · interval_cases i <;> rfl

/-- A stick that is pushed fully to a side, and into a corner. -/
example : ClampStick 127 0 72 40 15 = (72, 0) ∧ ClampStick 127 (-128) 72 40 15 = (39, -40) := by decide

end SdkPort.PAD
