import Mathlib.Data.Nat.Find
import Mathlib.Order.Fin.Basic
import Mathlib.Order.GaloisConnection.Defs

/-!
# Numbers quantised in bands

The numbers below a bound lie in bands that follow one another. All bands have equally many
steps, but the length of a step is the band's own. A number is coded by its band and by the
whole steps that lie before it there; a code stands for the number its step starts at. The two
directions form a Galois connection.
-/
namespace SdkPort

structure Bands where
  last : Nat
  /-- The number of steps in a band. -/
  size : Nat
  start : Nat → Nat
  step : Nat → Nat
  size_pos : 0 < size
  step_pos (b : Nat) : 0 < step b
  start_zero : start 0 = 0
  adjoin {b : Nat} (hb : b < last) : start b + size * step b = start (b + 1)

namespace Bands

variable {q : Bands} {a b c k t y z : Nat}

/-- The first number behind the bands. -/
def finish (q : Bands) : Nat := q.start q.last + q.size * q.step q.last

def count (q : Bands) : Nat := (q.last + 1) * q.size

/-- The last band that starts at a number or before it. -/
def bandOf (q : Bands) (z : Nat) : Nat := Nat.findGreatest (fun b => q.start b ≤ z) q.last

/-- The length of the steps around a number. -/
def stepAt (q : Bands) (z : Nat) : Nat := q.step (q.bandOf z)

def encode (q : Bands) (z : Nat) : Nat :=
  q.bandOf z * q.size + (z - q.start (q.bandOf z)) / q.step (q.bandOf z)

def decode (q : Bands) (c : Nat) : Nat := q.start (c / q.size) + c % q.size * q.step (c / q.size)

theorem bandOf_le : q.bandOf z ≤ q.last := Nat.findGreatest_le _

theorem start_bandOf_le (q : Bands) (z : Nat) : q.start (q.bandOf z) ≤ z := by
  have hzero : q.start 0 ≤ z := by
    rw [q.start_zero]
    exact Nat.zero_le z
  exact Nat.findGreatest_spec (P := fun b => q.start b ≤ z) (Nat.zero_le q.last) hzero

theorem le_bandOf (hb : b ≤ q.last) (h : q.start b ≤ z) : b ≤ q.bandOf z := Nat.le_findGreatest hb h

/-- A band ends before the ones behind it start. -/
theorem stop_le (hab : a < b) (hb : b ≤ q.last) : q.start a + q.size * q.step a ≤ q.start b := by
  induction b, hab using Nat.le_induction with
  | base => exact Nat.le_of_eq (q.adjoin hb)
  | succ b hab ih =>
    have hle : q.start b ≤ q.start (b + 1) := by
      rw [← q.adjoin hb]
      exact Nat.le_add_right _ _
    exact Nat.le_trans (ih (Nat.le_of_succ_le hb)) hle

/-- A number lies before the end of its band. -/
theorem lt_stop (hz : z < q.finish) : z < q.start (q.bandOf z) + q.size * q.step (q.bandOf z) := by
  obtain hlast | hlast := Nat.lt_or_eq_of_le (q.bandOf_le (z := z))
  · rw [q.adjoin hlast]
    have hnot : ¬ q.start (q.bandOf z + 1) ≤ z := by
      intro h
      exact Nat.not_succ_le_self _ (le_bandOf hlast h)
    exact Nat.lt_of_not_le hnot
  · rw [hlast]
    exact hz

theorem offset_lt (hz : z < q.finish) : (z - q.start (q.bandOf z)) / q.step (q.bandOf z) < q.size := by
  have hstop := lt_stop hz
  have hstart := q.start_bandOf_le z
  rw [Nat.div_lt_iff_lt_mul (q.step_pos _)]
  omega

/-- Any other description of the band starts finds the same band. -/
theorem bandOf_eq (h : ∀ b ≤ q.last, q.start b ≤ z ↔ b ≤ t) : q.bandOf z = min t q.last := by
  apply Nat.le_antisymm
  · exact Nat.le_min.mpr ⟨(h _ bandOf_le).mp (q.start_bandOf_le z), bandOf_le⟩
  · exact le_bandOf (Nat.min_le_right _ _) ((h _ (Nat.min_le_right _ _)).mpr (Nat.min_le_left _ _))

theorem div_size (hk : k < q.size) : (b * q.size + k) / q.size = b := by
  rw [Nat.mul_comm, Nat.mul_add_div q.size_pos, Nat.div_eq_of_lt hk, Nat.add_zero]

theorem mod_size (hk : k < q.size) : (b * q.size + k) % q.size = k := by
  rw [Nat.mul_comm, Nat.mul_add_mod, Nat.mod_eq_of_lt hk]

theorem encode_lt (hz : z < q.finish) : q.encode z < q.count := by
  have hoff := offset_lt hz
  have hband : q.bandOf z * q.size ≤ q.last * q.size := Nat.mul_le_mul_right _ bandOf_le
  rw [encode, count, Nat.succ_mul]
  omega

theorem band_le (hc : c < q.count) : c / q.size ≤ q.last := by
  rw [← Nat.lt_succ_iff, Nat.div_lt_iff_lt_mul q.size_pos]
  exact hc

theorem decode_lt_stop : q.decode c < q.start (c / q.size) + q.size * q.step (c / q.size) := by
  have hlt : c % q.size * q.step (c / q.size) < q.size * q.step (c / q.size) :=
    Nat.mul_lt_mul_of_pos_right (Nat.mod_lt c q.size_pos) (q.step_pos _)
  exact Nat.add_lt_add_left hlt _

theorem decode_lt (hc : c < q.count) : q.decode c < q.finish := by
  obtain hlast | hlast := Nat.lt_or_eq_of_le (band_le hc)
  · have hle : q.decode c < q.start q.last := Nat.lt_of_lt_of_le decode_lt_stop (stop_le hlast (Nat.le_refl _))
    exact Nat.lt_add_right _ hle
  · have hlt : q.decode c < q.start (c / q.size) + q.size * q.step (c / q.size) := decode_lt_stop
    rwa [hlast] at hlt

theorem decode_encode (hz : z < q.finish) : q.decode (q.encode z) =
    q.start (q.bandOf z) + (z - q.start (q.bandOf z)) / q.step (q.bandOf z) * q.step (q.bandOf z) := by
  rw [decode, encode, div_size (offset_lt hz), mod_size (offset_lt hz)]

/-- A code is at most the code of a number exactly if it stands for at most that number. -/
theorem decode_le_iff (hc : c < q.count) (hz : z < q.finish) : q.decode c ≤ z ↔ c ≤ q.encode z := by
  have hcode : c / q.size * q.size + c % q.size = c := Nat.div_add_mod' c q.size
  have hmod : c % q.size < q.size := Nat.mod_lt c q.size_pos
  constructor
  · intro h
    have hband : c / q.size ≤ q.bandOf z := le_bandOf (band_le hc) (Nat.le_trans (Nat.le_add_right _ _) h)
    obtain hlt | heq := Nat.lt_or_eq_of_le hband
    · have hsucc : (c / q.size + 1) * q.size ≤ q.bandOf z * q.size := Nat.mul_le_mul_right _ hlt
      rw [Nat.succ_mul] at hsucc
      have hle : c ≤ q.bandOf z * q.size := by omega
      exact Nat.le_trans hle (Nat.le_add_right _ _)
    · have hsteps : c % q.size ≤ (z - q.start (q.bandOf z)) / q.step (q.bandOf z) := by
        rw [Nat.le_div_iff_mul_le (q.step_pos _), ← heq]
        exact Nat.le_sub_of_add_le' h
      rw [encode, ← heq]
      rw [← heq] at hsteps
      omega
  · intro h
    have hband : c / q.size ≤ q.bandOf z := by
      have hdiv := Nat.div_le_div_right (c := q.size) h
      rwa [encode, div_size (offset_lt hz)] at hdiv
    have hstart := q.start_bandOf_le z
    obtain hlt | heq := Nat.lt_or_eq_of_le hband
    · have hstop : q.decode c < q.start (c / q.size) + q.size * q.step (c / q.size) := decode_lt_stop
      have hnext := stop_le hlt (q.bandOf_le (z := z))
      omega
    · have hsteps : c % q.size ≤ (z - q.start (q.bandOf z)) / q.step (q.bandOf z) := by
        rw [encode, ← heq] at h
        rw [← heq]
        omega
      have hmul := (Nat.le_div_iff_mul_le (q.step_pos _)).mp hsteps
      rw [decode, heq]
      omega

/-- The numbers of the bands to their codes. -/
def compress (q : Bands) (z : Fin q.finish) : Fin q.count := ⟨q.encode z, encode_lt z.isLt⟩

def decompress (q : Bands) (c : Fin q.count) : Fin q.finish := ⟨q.decode c, decode_lt c.isLt⟩

theorem gc (q : Bands) : GaloisConnection q.decompress q.compress :=
  fun c z => decode_le_iff c.isLt z.isLt

theorem decode_encode_le (hz : z < q.finish) : q.decode (q.encode z) ≤ z := q.gc.l_u_le ⟨z, hz⟩

/-- A number is less than one step of its band away from what its code stands for. -/
theorem lt_decode_encode_add (hz : z < q.finish) : z < q.decode (q.encode z) + q.stepAt z := by
  have hstart := q.start_bandOf_le z
  have hlt := Nat.lt_div_mul_add (q.step_pos (q.bandOf z)) (a := z - q.start (q.bandOf z))
  rw [decode_encode hz, stepAt]
  omega

theorem encode_decode_encode (hz : z < q.finish) : q.encode (q.decode (q.encode z)) = q.encode z :=
  congrArg Fin.val (q.gc.u_l_u_eq_u ⟨z, hz⟩)

theorem encode_mono (hyz : y ≤ z) (hz : z < q.finish) : q.encode y ≤ q.encode z :=
  q.gc.monotone_u (a := ⟨y, Nat.lt_of_le_of_lt hyz hz⟩) (b := ⟨z, hz⟩) hyz

end Bands

end SdkPort
