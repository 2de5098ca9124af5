import Mathlib.Logic.Function.Iterate
import SdkPort.Lib.BitFields

/-!
# The scramble registers of the card unlock

One register shifts right and feeds back into bit 30, the other shifts left and feeds back into
bit 1. Reversing the bits of a word turns the one into the other.
-/
namespace SdkPort.CardUnlock

open BitFields (getLsbD_single getLsbD_moved_up getLsbD_moved_down)

/-- One turn of the loop of `port_exnor_1st`. -/
def exnor1stStep (w : BitVec 32) : BitVec 32 :=
  let wk := ~~~(w ^^^ (w >>> 7) ^^^ (w >>> 15) ^^^ (w >>> 23))
  (w >>> 1) ||| ((wk <<< 30) &&& 0x40000000#32)

/-- `port_exnor_1st`. -/
def portExnor1st (data rshift : BitVec 32) : BitVec 32 := exnor1stStep^[rshift.toNat] data

/-- One turn of the loop of `port_exnor`. -/
def exnorStep (w : BitVec 32) : BitVec 32 :=
  let wk := ~~~(w ^^^ (w <<< 7) ^^^ (w <<< 15) ^^^ (w <<< 23))
  (w <<< 1) ||| ((wk >>> 30) &&& 0x00000002#32)

/-- `port_exnor`. -/
def portExnor (data lshift : BitVec 32) : BitVec 32 := exnorStep^[lshift.toNat] data

/-- The local variables of the loop of `port_bitrev`. -/
structure Bitrev where
  wk : BitVec 32
  k : Nat
  j : Nat
  deriving DecidableEq, Repr

/-- One turn of the loop of `port_bitrev`. -/
def bitrevStep (data : BitVec 32) (i : Nat) (s : Bitrev) : Bitrev :=
  if i > 15 then
    if i = 31 then
      { s with wk := s.wk ||| (((data &&& (0x01#32 <<< 31)) >>> 31) &&& 0x01#32) }
    else
      { s with wk := s.wk ||| ((data &&& (0x01#32 <<< i)) >>> s.j), j := s.j + 2 }
  else
    { s with wk := s.wk ||| ((data &&& (0x01#32 <<< i)) <<< (31 - i - s.k)), k := s.k + 1 }

/-- The variables after the first turns. -/
def bitrevLoop (data : BitVec 32) : Nat → Bitrev
  | 0 => ⟨0, 0, 1⟩
  | i + 1 => bitrevStep data i (bitrevLoop data i)

/-- `port_bitrev`. -/
def portBitrev (data : BitVec 32) : BitVec 32 := (bitrevLoop data 32).wk

example : portBitrev 0x80000003#32 = 0xC0000001#32 := by decide

/-- What the loop has written after some turns: the low bits of the data at their mirror places. -/
structure Mirrored (data : BitVec 32) (i : Nat) (s : Bitrev) : Prop where
  k : s.k = min i 16
  j : s.j = 1 + 2 * min (i - 16) 15
  bit : ∀ b < 32, s.wk.getLsbD b = (decide (31 < b + i) && data.getLsbD (31 - b))

variable {data x y w : BitVec 32} {s : Bitrev} {i b n : Nat}

/-- A turn that puts a bit of the data at its mirror place. -/
theorem Mirrored.put (hi : i < 32) (h : Mirrored data i s) {t : Bitrev} {v : BitVec 32}
    (hv : ∀ b < 32, v.getLsbD b = (decide (b + i = 31) && data.getLsbD i)) (hwk : t.wk = s.wk ||| v)
    (hk : t.k = min (i + 1) 16) (hj : t.j = 1 + 2 * min (i + 1 - 16) 15) : Mirrored data (i + 1) t := by
  refine ⟨hk, hj, ?_⟩
  intro b hb
  rw [hwk, BitVec.getLsbD_or, h.bit b hb, hv b hb]
  by_cases he : b + i = 31
  · have hnot : ¬ 31 < b + i := by omega
    have hnext : 31 < b + (i + 1) := by omega
    have hidx : 31 - b = i := by omega
    simp [he, hnext, hidx]
  · have hiff : 31 < b + (i + 1) ↔ 31 < b + i := by omega
    simp [he, hiff]

/-- One turn mirrors one more bit: the low half is moved up by `31 - 2 * i`, the high half down
by as much, and the last bit in a case of its own. -/
theorem Mirrored.step (hi : i < 32) (h : Mirrored data i s) : Mirrored data (i + 1) (bitrevStep data i s) := by
  have hk := h.k
  have hj := h.j
  by_cases hlow : i > 15
  · by_cases hlast : i = 31
    · subst hlast
      refine h.put hi (v := ((data &&& (0x01#32 <<< 31)) >>> 31) &&& 0x01#32) ?_ rfl ?_ ?_
      · intro b hb
        have hone : (1#32).getLsbD b = decide (0 = b) := getLsbD_single (i := 0) hb
        rw [BitVec.getLsbD_and, getLsbD_moved_down hi, hone]
        by_cases hz : b = 0
        · subst hz
          simp
        · simp [hz]
      · exact hk
      · exact hj
    · have hstep : bitrevStep data i s =
          { s with wk := s.wk ||| ((data &&& (0x01#32 <<< i)) >>> s.j), j := s.j + 2 } := by
        rw [bitrevStep, if_pos hlow, if_neg hlast]
      rw [hstep]
      refine h.put hi (v := (data &&& (0x01#32 <<< i)) >>> s.j) ?_ rfl ?_ ?_
      · intro b hb
        have hiff : b + s.j = i ↔ b + i = 31 := by omega
        simp only [getLsbD_moved_down hi, hiff]
      · show s.k = _
        omega
      · show s.j + 2 = _
        omega
  · have hstep : bitrevStep data i s =
        { s with wk := s.wk ||| ((data &&& (0x01#32 <<< i)) <<< (31 - i - s.k)), k := s.k + 1 } := by
      rw [bitrevStep, if_neg hlow]
    rw [hstep]
    refine h.put hi (v := (data &&& (0x01#32 <<< i)) <<< (31 - i - s.k)) ?_ rfl ?_ ?_
    · intro b hb
      have hiff : i + (31 - i - s.k) = b ↔ b + i = 31 := by omega
      simp only [getLsbD_moved_up hb, hiff]
    · show s.k + 1 = _
      omega
    · show s.j = _
      omega

theorem bitrevLoop_mirrored (data : BitVec 32) (hn : n ≤ 32) : Mirrored data n (bitrevLoop data n) := by
  induction n with
  | zero =>
    refine ⟨rfl, rfl, ?_⟩
    intro b hb
    have hnot : ¬ 31 < b := by omega
    simp [bitrevLoop, hnot]
  | succ i ih => exact (ih (by omega)).step (by omega)

theorem portBitrev_bit (hb : b < 32) : (portBitrev x).getLsbD b = x.getLsbD (31 - b) := by
  have h := (bitrevLoop_mirrored x (n := 32) (Nat.le_refl 32)).bit b hb
  have hall : 31 < b + 32 := by omega
  rw [portBitrev, h, decide_eq_true hall, Bool.true_and]

theorem exnor1stStep_bit (hb : b < 32) : (exnor1stStep w).getLsbD b = (w.getLsbD (b + 1) ||
    (decide (b = 30) && !(w.getLsbD 0 ^^ w.getLsbD 7 ^^ w.getLsbD 15 ^^ w.getLsbD 23))) := by
  have hmask : (0x40000000#32).getLsbD b = decide (30 = b) := getLsbD_single (i := 30) hb
  simp only [exnor1stStep, BitVec.getLsbD_or, BitVec.getLsbD_and, hmask, BitVec.getLsbD_ushiftRight]
  by_cases he : b = 30
  · subst he
    simp
  · have hne : 30 ≠ b := Ne.symm he
    simp [he, hne, Nat.add_comm]

theorem exnorStep_bit (hb : b < 32) : (exnorStep w).getLsbD b = ((decide (0 < b) && w.getLsbD (b - 1)) ||
    (decide (b = 1) && !(w.getLsbD 31 ^^ w.getLsbD 24 ^^ w.getLsbD 16 ^^ w.getLsbD 8))) := by
  have hmask : (0x00000002#32).getLsbD b = decide (1 = b) := getLsbD_single (i := 1) hb
  simp only [exnorStep, BitVec.getLsbD_or, BitVec.getLsbD_and, hmask, BitVec.getLsbD_ushiftRight]
  by_cases he : b = 1
  · subst he
    simp
  · have hne : 1 ≠ b := Ne.symm he
    by_cases hz : b = 0
    · subst hz
      simp
    · have hpred : b - 1 < 32 := by omega
      simp [he, hne, hz, hb, hpred, Nat.pos_of_ne_zero hz]

/-- The taps of the one register mirror those of the other. -/
theorem portBitrev_step (w : BitVec 32) : portBitrev (exnor1stStep w) = exnorStep (portBitrev w) := by
  apply BitVec.eq_of_getLsbD_eq
  intro b hb
  rw [portBitrev_bit hb, exnor1stStep_bit (by omega), exnorStep_bit hb]
  simp only [portBitrev_bit, Nat.reduceLT, Nat.reduceSub]
  by_cases hz : b = 0
  · subst hz
    simp
  · have hpred : 31 - (b - 1) = 31 - b + 1 := by omega
    have hiff : 31 - b = 30 ↔ b = 1 := by omega
    rw [portBitrev_bit (by omega), hpred]
    simp [hiff, Nat.pos_of_ne_zero hz]

/-- The scramble registers are conjugate under the reversal of the bits, which is its own inverse. -/
theorem scramble_conjugate (x n : BitVec 32) :
    portExnor (portBitrev x) n = portBitrev (portExnor1st x n) ∧
    (∀ i : Fin 32, (portBitrev x).getLsbD (31 - i) = x.getLsbD i) ∧ portBitrev (portBitrev x) = x := by
  refine ⟨?_, ?_, ?_⟩
  · have hstep : Function.Semiconj portBitrev exnor1stStep exnorStep := portBitrev_step
    exact (hstep.iterate_right n.toNat x).symm
  · intro i
    have hi := i.isLt
    have hback : 31 - (31 - i.val) = i.val := by omega
    rw [portBitrev_bit (by omega), hback]
  · apply BitVec.eq_of_getLsbD_eq
    intro b hb
    have hback : 31 - (31 - b) = b := by omega
    rw [portBitrev_bit hb, portBitrev_bit (by omega), hback]

end SdkPort.CardUnlock
