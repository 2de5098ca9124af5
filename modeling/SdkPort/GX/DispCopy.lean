import Mathlib.Algebra.Order.Ring.Nat
import Mathlib.Data.Nat.Prime.Basic
import SdkPort.GX.PackedState
import SdkPort.Lib.BitFields
import SdkPort.Lib.Refine

/-!
# Copies to the display

`GX.c`: the rectangle of the frame buffer that is copied to the display, and the number of lines of a
copy that is scaled. A scale is the step from one line of the copy to the next, in parts of 256 of a line.
-/
namespace SdkPort.GX

open Refine (runAll)

/-- The registers of the copies to the display. -/
structure DispState where
  cpDispSrc : U32
  cpDispSize : U32
  cpDispStride : U32
  cpDisp : U32
  bpSentNot : U32

def GXSetDispCopySrc (s : DispState) (left top wd ht : BitVec 16) : DispState :=
  let src := setField 0 10 0 (left.setWidth 32)
  let src := setField src 10 10 (top.setWidth 32)
  let size := setField 0 10 0 (wd.setWidth 32 - 1)
  let size := setField size 10 10 (ht.setWidth 32 - 1)
  { s with cpDispSrc := setField src 8 24 0x49, cpDispSize := setField size 8 24 0x4A, bpSentNot := 0 }

/-- The height is not used. -/
def GXSetDispCopyDst (s : DispState) (wd _ht : BitVec 16) : DispState :=
  let stride := wd * 2
  let reg := setField 0 10 0 ((stride >>> 5).setWidth 32)
  { s with cpDispStride := setField reg 8 24 0x4D, bpSentNot := 0 }

/-- `while ((iScaleD % 2u) == 0u) iScaleD /= 2u;`, which would not end at zero. -/
def halve (iScaleD : Nat) : Nat :=
  if h : 0 < iScaleD ∧ iScaleD % 2 = 0 then halve (iScaleD / 2) else iScaleD
termination_by iScaleD
decreasing_by omega

/-- A scale of zero is a division by zero. -/
def GXGetNumXfbLines (efbHt iScale : U32) : Option U32 :=
  if iScale = 0 then none
  else
    let count := (efbHt - 1) * 0x100
    let realHt := count / iScale + 1
    let realHt :=
      if 0x80 < iScale ∧ iScale < 0x100 ∧ efbHt.toNat % halve iScale.toNat = 0 then realHt + 1 else realHt
    some (if 0x400 < realHt then 0x400 else realHt)

/-- The argument is the whole part of 256 over the scale. -/
def GXSetDispCopyYScale (s : DispState) (quotient : U32) : Option (U32 × DispState) :=
  let scale := quotient &&& 0x1FF
  let check : U32 := if scale ≠ 0x100 then 1 else 0
  let s : DispState := { s with cpDisp := setField s.cpDisp 1 10 check }
  let height := ((s.cpDispSize >>> 10) &&& 0x3FF) + 1
  (GXGetNumXfbLines height scale).map fun lines => (lines, { s with bpSentNot := 0 })

inductive DispCall where
  | src (left top wd ht : BitVec 16)
  | dst (wd ht : BitVec 16)
  | yScale (quotient : U32)

def execDisp (s : DispState) : DispCall → Option (Option U32 × DispState)
  | .src left top wd ht => some (none, GXSetDispCopySrc s left top wd ht)
  | .dst wd ht => some (none, GXSetDispCopyDst s wd ht)
  | .yScale quotient => (GXSetDispCopyYScale s quotient).map fun x => (some x.1, x.2)

/-! ### Lines -/

/-- The copy of `ht` lines ends within the last of them. Between the scales one and two it ends with the last
line where it can. -/
structure Fills (ht scale n : Nat) : Prop where
  inside : n * scale ≤ 256 * (ht - 1) + Nat.max 256 scale
  reach : 256 * (ht - 1) < n * scale
  whole : 0x80 < scale → scale ≤ 0x100 → scale ∣ 256 * ht → n * scale = 256 * ht

/-- The answer is the number of lines that fill the height, as far as there are so many. -/
def Answer (ht scale lines : Nat) : Prop := ∃ n, Fills ht scale n ∧ lines = Nat.min n 0x400

variable {ht scale n : Nat}

/-- What is left is odd, and only twos were taken away. -/
theorem halve_spec (hn : 0 < n) : ∃ k, n = 2 ^ k * halve n ∧ halve n % 2 = 1 := by
  induction n using Nat.strong_induction_on with
  | _ n ih =>
    rw [halve]
    split
    · rename_i heven
      obtain ⟨k, hk, hodd⟩ := ih (n / 2) (by omega) (by omega)
      refine ⟨k + 1, ?_, hodd⟩
      rw [Nat.pow_succ', Nat.mul_assoc, ← hk]
      omega
    · exact ⟨0, by omega, by omega⟩

/-- The step fits into the height as often as its odd part does. -/
theorem halve_dvd (hpos : 0 < scale) (hlt : scale < 0x100) : ht % halve scale = 0 ↔ scale ∣ 256 * ht := by
  obtain ⟨k, hk, hodd⟩ := halve_spec hpos
  rw [← Nat.dvd_iff_mod_eq_zero]
  constructor
  · intro hd
    have hle : 2 ^ k ≤ scale := by
      rw [hk]
      exact Nat.le_mul_of_pos_right _ (by omega)
    have hpow : 2 ^ k < 2 ^ 8 := by omega
    have hexp : k ≤ 8 := (Nat.pow_lt_pow_iff_right (by decide)).mp hpow |>.le
    rw [hk]
    exact Nat.mul_dvd_mul (Nat.pow_dvd_pow 2 hexp) hd
  · intro hd
    have hcop : (halve scale).Coprime (2 ^ 8) :=
      Nat.Coprime.pow_right 8 (Nat.coprime_two_right.mpr (Nat.odd_iff.mpr hodd))
    have hpart : halve scale ∣ 2 ^ 8 * ht := (Dvd.intro_left _ hk.symm).trans hd
    exact hcop.dvd_of_dvd_mul_left hpart

variable (hht : 0 < ht) (hpos : 0 < scale)

include hpos

/-- The quotient is rounded down. -/
theorem div_bounds (x : Nat) : x / scale * scale ≤ x ∧ x < (x / scale + 1) * scale :=
  ⟨Nat.div_mul_le_self x scale, Nat.lt_mul_of_div_lt (Nat.lt_succ_self _) hpos⟩

include hht

theorem fills_round (hno : ¬(0x80 < scale ∧ scale < 0x100 ∧ scale ∣ 256 * ht)) (hn : n = 256 * (ht - 1) / scale + 1) :
    Fills ht scale n := by
  obtain ⟨hle, hlt⟩ := div_bounds hpos (256 * (ht - 1))
  rw [← hn] at hlt
  have hmul : n * scale = 256 * (ht - 1) / scale * scale + scale := by rw [hn, Nat.succ_mul]
  refine ⟨?_, hlt, ?_⟩
  · have hmax : scale ≤ Nat.max 256 scale := Nat.le_max_right _ _
    omega
  · intro hlo hhi hd
    have hone : scale = 0x100 := by
      by_contra hne
      exact hno ⟨hlo, by omega, hd⟩
    subst hone
    omega

/-- Where the step fits into the height, a line is missing. -/
theorem fills_whole (hlo : 0x80 < scale) (hhi : scale < 0x100) (hd : scale ∣ 256 * ht)
    (hn : n = 256 * (ht - 1) / scale + 1 + 1) : Fills ht scale n := by
  obtain ⟨hle, hlt⟩ := div_bounds hpos (256 * (ht - 1))
  obtain ⟨k, hk⟩ := hd
  have hmul : scale * k = k * scale := Nat.mul_comm _ _
  have hstep : ∀ a, (a + 1) * scale = a * scale + scale := fun a => Nat.succ_mul a scale
  have hexact : n = k := by
    have hlow : 256 * (ht - 1) / scale + 1 < k := by
      apply Nat.lt_of_mul_lt_mul_right (a := scale)
      rw [hstep]
      omega
    have hhigh : k < 256 * (ht - 1) / scale + 1 + 2 := by
      apply Nat.lt_of_mul_lt_mul_right (a := scale)
      rw [hstep, hstep]
      omega
    omega
  have hfull : n * scale = 256 * ht := by rw [hexact, hk, hmul]
  refine ⟨?_, by omega, fun _ _ _ => hfull⟩
  have hmax : 256 ≤ Nat.max 256 scale := Nat.le_max_left _ _
  omega

omit hht hpos

theorem toNat_cut (x : U32) : (if 0x400 < x then 0x400 else x).toNat = x.toNat.min 0x400 := by
  have hiff : (0x400 : U32) < x ↔ 0x400 < x.toNat := BitVec.lt_def
  by_cases hx : (0x400 : U32) < x
  · rw [if_pos hx]
    exact (Nat.min_eq_right (hiff.mp hx).le).symm
  · rw [if_neg hx]
    exact (Nat.min_eq_left (Nat.le_of_not_lt (mt hiff.mpr hx))).symm

/-- The lines fill the height. -/
theorem numXfbLines_fills {efbHt iScale : U32} (hht : 0 < efbHt.toNat) (hle : efbHt.toNat ≤ 0x400) (hs : iScale ≠ 0) :
    ∃ lines, GXGetNumXfbLines efbHt iScale = some lines ∧ Answer efbHt.toNat iScale.toNat lines.toNat := by
  have hpos : 0 < iScale.toNat := Nat.pos_of_ne_zero fun h => hs (BitVec.eq_of_toNat_eq h)
  have hone : (1 : U32).toNat = 1 := rfl
  have h256 : (0x100 : U32).toNat = 256 := rfl
  have hsub : (efbHt - 1).toNat = efbHt.toNat - 1 := BitVec.toNat_sub_of_le (BitVec.le_def.mpr hht)
  have hcount : ((efbHt - 1) * 0x100).toNat = 256 * (efbHt.toNat - 1) := by
    rw [BitVec.toNat_mul, hsub, h256, Nat.mul_comm]
    exact Nat.mod_eq_of_lt (by omega)
  have hdiv : 256 * (efbHt.toNat - 1) / iScale.toNat ≤ 256 * (efbHt.toNat - 1) := Nat.div_le_self _ _
  have hreal : ((efbHt - 1) * 0x100 / iScale + 1).toNat = 256 * (efbHt.toNat - 1) / iScale.toNat + 1 := by
    rw [BitVec.toNat_add, BitVec.toNat_udiv, hcount, hone]
    exact Nat.mod_eq_of_lt (by omega)
  have hlo : 0x80 < iScale ↔ 0x80 < iScale.toNat := BitVec.lt_def
  have hhi : iScale < 0x100 ↔ iScale.toNat < 0x100 := BitVec.lt_def
  rw [GXGetNumXfbLines, if_neg hs]
  refine ⟨_, rfl, _, ?_, toNat_cut _⟩
  split
  · rename_i hall
    obtain ⟨hl, hh, hmod⟩ := hall
    have hsucc : ((efbHt - 1) * 0x100 / iScale + 1 + 1).toNat = 256 * (efbHt.toNat - 1) / iScale.toNat + 1 + 1 := by
      rw [BitVec.toNat_add, hreal, hone]
      exact Nat.mod_eq_of_lt (by omega)
    exact fills_whole hht hpos (hlo.mp hl) (hhi.mp hh) ((halve_dvd hpos (hhi.mp hh)).mp hmod) hsucc
  · rename_i hall
    refine fills_round hht hpos (fun h => hall ?_) hreal
    exact ⟨hlo.mpr h.1, hhi.mpr h.2.1, (halve_dvd hpos h.2.1).mpr h.2.2⟩

/-! ### Runs -/

/-- The height is kept less one, with ten bits. -/
def srcHeight (ht : BitVec 16) : Nat := (ht.toNat + 0x3FF) % 0x400 + 1

def DispState.height (s : DispState) : Nat := ((s.cpDispSize >>> 10) &&& 0x3FF).toNat + 1

/-- Every answer in a run is for the height that was set last, the first one being given. -/
inductive Answers : Nat → List DispCall → List (Option U32) → Prop where
  | nil {h : Nat} : Answers h [] []
  | src {h : Nat} {left top wd ht : BitVec 16} {calls : List DispCall} {replies : List (Option U32)} :
    Answers (srcHeight ht) calls replies → Answers h (.src left top wd ht :: calls) (none :: replies)
  | dst {h : Nat} {wd ht : BitVec 16} {calls : List DispCall} {replies : List (Option U32)} :
    Answers h calls replies → Answers h (.dst wd ht :: calls) (none :: replies)
  | yScale {h : Nat} {quotient lines : U32} {calls : List DispCall} {replies : List (Option U32)} :
    Answer h (quotient &&& 0x1FF).toNat lines.toNat → Answers h calls replies →
      Answers h (.yScale quotient :: calls) (some lines :: replies)

theorem get_put_above (x v : U32) : BitFields.get (BitFields.put x 8 24 v) 10 10 = BitFields.get x 10 10 := by
  apply BitVec.eq_of_getLsbD_eq
  intro i hi
  rw [BitFields.getLsbD_get hi, BitFields.getLsbD_get hi]
  by_cases hlt : i < 10
  · rw [BitFields.getLsbD_put (by omega), if_neg (by omega)]
  · rw [decide_eq_false hlt, Bool.false_and, Bool.false_and]

theorem height_src (s : DispState) (left top wd ht : BitVec 16) :
    (GXSetDispCopySrc s left top wd ht).height = srcHeight ht := by
  have hget : (((GXSetDispCopySrc s left top wd ht).cpDispSize >>> 10) &&& 0x3FF).toNat =
      (ht.setWidth 32 - 1 : U32).toNat % 2 ^ 10 := by
    have hfield (x v w : U32) :
        BitFields.get (setField (setField x 10 10 v) 8 24 w) 10 10 = v &&& BitFields.ones 32 10 :=
      (get_put_above _ _).trans (BitFields.get_put (by decide))
    exact (congrArg BitVec.toNat (hfield _ _ _)).trans BitFields.toNat_and_ones
  have hone : (1 : U32).toNat = 1 := rfl
  have hwide : (ht.setWidth 32).toNat = ht.toNat := BitVec.toNat_setWidth_of_le (by decide)
  have hlt : ht.toNat < 2 ^ 16 := ht.isLt
  rw [DispState.height, srcHeight, hget, BitVec.toNat_sub, hwide, hone]
  omega

theorem height_toNat (s : DispState) :
    (((s.cpDispSize >>> 10) &&& 0x3FF) + 1).toNat = s.height ∧ s.height ≤ 0x400 := by
  have hlow : ((s.cpDispSize >>> 10) &&& 0x3FF).toNat = (s.cpDispSize >>> 10).toNat % 2 ^ 10 :=
    (BitFields.toNat_and_ones : (s.cpDispSize >>> 10 &&& BitFields.ones 32 10).toNat = _)
  have hone : (1 : U32).toNat = 1 := rfl
  constructor
  · rw [BitVec.toNat_add, hone, DispState.height]
    exact Nat.mod_eq_of_lt (by omega)
  · rw [DispState.height]
    omega

/-- Copies that are scaled by no zero are answered, whatever was set before. -/
theorem copies_fill_height (s : DispState) (calls : List DispCall)
    (h : ∀ quotient, .yScale quotient ∈ calls → quotient &&& 0x1FF ≠ 0) :
    ∃ replies s', runAll execDisp s calls = some (replies, s') ∧ Answers s.height calls replies := by
  induction calls generalizing s with
  | nil => exact ⟨[], s, rfl, .nil⟩
  | cons c calls ih =>
    have hrest : ∀ quotient, .yScale quotient ∈ calls → quotient &&& 0x1FF ≠ 0 :=
      fun quotient hq => h quotient (List.mem_cons_of_mem c hq)
    cases c with
    | src left top wd ht =>
      obtain ⟨replies, s', hrun, hans⟩ := ih (GXSetDispCopySrc s left top wd ht) hrest
      rw [height_src] at hans
      refine ⟨none :: replies, s', ?_, .src hans⟩
      rw [runAll, execDisp, Option.bind_some, hrun, Option.map_some]
    | dst wd ht =>
      obtain ⟨replies, s', hrun, hans⟩ := ih (GXSetDispCopyDst s wd ht) hrest
      refine ⟨none :: replies, s', ?_, .dst hans⟩
      rw [runAll, execDisp, Option.bind_some, hrun, Option.map_some]
    | yScale quotient =>
      have hne := h quotient (List.mem_cons_self ..)
      obtain ⟨hheight, hle⟩ := height_toNat s
      have hpos : 0 < s.height := Nat.succ_pos _
      obtain ⟨lines, hlines, hanswer⟩ :=
        numXfbLines_fills (hpos.trans_eq hheight.symm) (hheight.trans_le hle) hne
      rw [hheight] at hanswer
      have hexec : ∃ s₁, execDisp s (.yScale quotient) = some (some lines, s₁) ∧ s₁.height = s.height :=
        ⟨_, congrArg (Option.map _) (congrArg (Option.map _) hlines), rfl⟩
      obtain ⟨s₁, hexec, hsame⟩ := hexec
      obtain ⟨replies, s', hrun, hans⟩ := ih s₁ hrest
      rw [hsame] at hans
      refine ⟨some lines :: replies, s', ?_, .yScale hanswer hans⟩
      rw [runAll, hexec, Option.bind_some, hrun, Option.map_some]

/-- 480 lines with a step of 240, so that 512 lines fill them. -/
def trialDispCalls : List DispCall := [.src 0 0 640 480, .dst 640 480, .yScale 0xF0]

theorem trialDispCalls_fill :
    (∀ quotient, .yScale quotient ∈ trialDispCalls → quotient &&& 0x1FF ≠ 0) ∧
      ∃ lines s', runAll execDisp ⟨0, 0, 0, 0, 0⟩ trialDispCalls = some ([none, none, some lines], s') ∧
        lines = 512 := by
  have hne : ∀ quotient, .yScale quotient ∈ trialDispCalls → quotient &&& 0x1FF ≠ 0 := by
    intro quotient hq
    simp only [trialDispCalls, List.mem_cons, reduceCtorEq, DispCall.yScale.injEq, List.not_mem_nil, or_false,
      false_or] at hq
    rw [hq]
    decide
  refine ⟨hne, ?_⟩
  obtain ⟨replies, s', hrun, hans⟩ := copies_fill_height ⟨0, 0, 0, 0, 0⟩ trialDispCalls hne
  cases hans with
  | src hans =>
    cases hans with
    | dst hans =>
      cases hans with
      | yScale hanswer hans =>
        cases hans
        obtain ⟨n, hfills, hlines⟩ := hanswer
        have hwhole : n * 0xF0 = 256 * 480 := hfills.whole (by decide) (by decide) (by decide)
        have hn : n = 512 := by omega
        exact ⟨_, _, hrun, BitVec.eq_of_toNat_eq (hlines.trans (by rw [hn]; rfl))⟩

end SdkPort.GX
