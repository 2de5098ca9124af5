import Mathlib.Algebra.Order.Ring.Nat
import SdkPort.GX.PackedState
import SdkPort.Lib.Bands

/-!
# Compressed depths

`GX.c`: a depth of 24 bits is stored in 16. The exponent counts its leading ones up to a
cap, the mantissa are the bits behind them. Each format is a quantisation in bands.
-/
namespace SdkPort.GX

/-- `__cntlzw`, with the builtin for a word other than 0. -/
def cntlzw (x : U32) : U32 := if x = 0 then 32 else x.clz

/-- The local variables of the count that `__cntlzw` makes without the builtin. -/
structure Count where
  n : U32
  x : U32

def Count.skip (s : Count) (bound : U32) (k : Nat) : Count :=
  if s.x ≤ bound then ⟨s.n + BitVec.ofNat 32 k, s.x <<< k⟩ else s

def cntlzwPortable (x : U32) : U32 :=
  if x = 0 then 32
  else
    let s := ((((Count.mk 0 x).skip 0x0000FFFF 16).skip 0x00FFFFFF 8).skip 0x0FFFFFFF 4).skip 0x3FFFFFFF 2
    if s.x ≤ 0x7FFFFFFF then s.n + 1 else s.n

def GX_ZC_LINEAR : U32 := 0
def GX_ZC_NEAR : U32 := 1
def GX_ZC_MID : U32 := 2
def GX_ZC_FAR : U32 := 3

/-- A case of the switch in `GXCompressZ16`. -/
def compressCase (z24 temp cap lastShift firstShift mask bits : U32) : U32 :=
  let exp := if cap.slt temp then cap else temp
  let shift := if exp = cap then lastShift else firstShift - exp
  ((z24 >>> shift) &&& mask) ||| (exp <<< bits)

def GXCompressZ16 (z24 zfmt : U32) : U32 :=
  let z24n := ~~~(z24 <<< 8)
  let temp := cntlzw z24n
  if zfmt = GX_ZC_LINEAR then (z24 >>> 8) &&& 0xFFFF
  else if zfmt = GX_ZC_NEAR then compressCase z24 temp 3 7 9 0x3FFF 14
  else if zfmt = GX_ZC_MID then compressCase z24 temp 7 4 10 0x1FFF 13
  else if zfmt = GX_ZC_FAR then compressCase z24 temp 12 0 11 0xFFF 12
  else 0

/-- A case of the switch in `GXDecompressZ16`. -/
def decompressCase (z16 bits expMask cap lastShift firstShift mask : U32) : U32 :=
  let exp := (z16 >>> bits) &&& expMask
  let shift := if exp = cap then lastShift else firstShift - exp
  let cb1 := 0xFFFFFFFF#32 <<< (24 - exp)
  (cb1 ||| ((z16 &&& mask) <<< shift)) &&& 0xFFFFFF

def GXDecompressZ16 (z16 zfmt : U32) : U32 :=
  if zfmt = GX_ZC_LINEAR then (z16 <<< 8) &&& 0xFFFF00
  else if zfmt = GX_ZC_NEAR then decompressCase z16 14 3 3 7 9 0x3FFF
  else if zfmt = GX_ZC_MID then decompressCase z16 13 7 7 4 10 0x1FFF
  else if zfmt = GX_ZC_FAR then decompressCase z16 12 0xF 12 0 11 0xFFF
  else 0

example : GXDecompressZ16 (GXCompressZ16 0xF12345 GX_ZC_MID) GX_ZC_MID = 0xF12340 := by decide

variable {e k m p last : Nat} {x y z z16 zfmt : U32} {s : Count}

theorem two_pow_mul {a b c : Nat} (h : a + b = c) : 2 ^ a * 2 ^ b = 2 ^ c := by rw [← Nat.pow_add, h]

theorem two_pow_sub_le (n e : Nat) : 2 ^ (n - e) ≤ 2 ^ n := Nat.pow_le_pow_right (by decide) (Nat.sub_le n e)

section Zeros

/-- Leading zeros bound a word from above. -/
theorem le_cntlzw_iff (he : e ≤ 32) : e ≤ (cntlzw x).toNat ↔ x.toNat < 2 ^ (32 - e) := by
  rw [cntlzw]
  by_cases hx : x = 0
  · subst hx
    rw [if_pos rfl]
    exact iff_of_true he (Nat.two_pow_pos _)
  · rw [if_neg hx]
    constructor
    · intro h
      exact Nat.lt_of_lt_of_le BitVec.toNat_lt_two_pow_sub_clz (Nat.pow_le_pow_right (by decide) (by omega))
    · intro h
      by_contra hlt
      have hlow := BitVec.two_pow_sub_clz_le_toNat_of_ne_zero (by decide) hx
      have hpow : 2 ^ (32 - e) ≤ 2 ^ (32 - 1 - x.clz.toNat) := Nat.pow_le_pow_right (by decide) (by omega)
      omega

theorem cntlzw_le (x : U32) : (cntlzw x).toNat ≤ 32 := by
  rw [cntlzw]
  split
  · exact Nat.le_refl _
  · exact BitVec.clz_le (x := x)

theorem cntlzw_lt_iff (he : e ≤ 32) : (cntlzw x).toNat < e ↔ 2 ^ (32 - e) ≤ x.toNat := by
  rw [← Nat.not_le, le_cntlzw_iff he, Nat.not_lt]

/-- Shifting leading zeros out of a word takes them off the count. -/
theorem cntlzw_shiftLeft (hk : k ≤ (cntlzw x).toNat) (hx : (cntlzw x).toNat < 32) :
    (cntlzw (x <<< k)).toNat + k = (cntlzw x).toNat := by
  obtain ⟨e, he⟩ := Nat.exists_eq_add_of_le' hk
  have hhigh : x.toNat < 2 ^ (32 - (e + k)) := (le_cntlzw_iff (by omega)).mp (Nat.le_of_eq he.symm)
  have hlow : 2 ^ (32 - (e + k + 1)) ≤ x.toNat := (cntlzw_lt_iff (by omega)).mp (by omega)
  have hhigh' : x.toNat * 2 ^ k < 2 ^ (32 - e) := by
    rw [← two_pow_mul (show 32 - (e + k) + k = 32 - e by omega)]
    exact Nat.mul_lt_mul_of_pos_right hhigh (Nat.two_pow_pos k)
  have hlow' : 2 ^ (32 - (e + 1)) ≤ x.toNat * 2 ^ k := by
    rw [← two_pow_mul (show 32 - (e + k + 1) + k = 32 - (e + 1) by omega)]
    exact Nat.mul_le_mul_right _ hlow
  have htop := two_pow_sub_le 32 e
  have hshift : (x <<< k).toNat = x.toNat * 2 ^ k := by
    rw [BitVec.toNat_shiftLeft, Nat.shiftLeft_eq, Nat.mod_eq_of_lt (Nat.lt_of_lt_of_le hhigh' htop)]
  have hge : e ≤ (cntlzw (x <<< k)).toNat := by rwa [le_cntlzw_iff (by omega), hshift]
  have hlt : (cntlzw (x <<< k)).toNat < e + 1 := by rwa [cntlzw_lt_iff (by omega), hshift]
  omega

/-- The count so far and the zeros that are left, fewer than some bound. -/
structure Counts (x : U32) (k : Nat) (s : Count) : Prop where
  left : (cntlzw s.x).toNat < k
  sum : s.n.toNat + (cntlzw s.x).toNat = (cntlzw x).toNat

theorem Counts.skip (h : Counts x (2 * k) s) (bound : U32) (hk : 2 * k ≤ 32)
    (hbound : bound.toNat + 1 = 2 ^ (32 - k)) : Counts x k (s.skip bound k) := by
  have hall := cntlzw_le x
  have hsum := h.sum
  have hleft := h.left
  have hle : s.x ≤ bound ↔ k ≤ (cntlzw s.x).toNat := by
    rw [le_cntlzw_iff (by omega), ← hbound, Nat.lt_succ_iff, BitVec.le_def]
  rw [Count.skip]
  split
  · rename_i hx
    have hshift := cntlzw_shiftLeft (hle.mp hx) (by omega)
    have hn : (s.n + BitVec.ofNat 32 k).toNat = s.n.toNat + k := by
      rw [BitVec.toNat_add, BitVec.toNat_ofNat]
      omega
    constructor
    · show (cntlzw (s.x <<< k)).toNat < k
      omega
    · show (s.n + BitVec.ofNat 32 k).toNat + (cntlzw (s.x <<< k)).toNat = (cntlzw x).toNat
      omega
  · rename_i hx
    exact ⟨Nat.lt_of_not_le (fun h => hx (hle.mpr h)), hsum⟩

/-- Both ways of counting give the same number. -/
theorem cntlzwPortable_eq (x : U32) : cntlzwPortable x = cntlzw x := by
  by_cases hx : x = 0
  · rw [cntlzwPortable, cntlzw, if_pos hx, if_pos hx]
  · have hpos : 2 ^ (32 - 32) ≤ x.toNat := by
      rw [Nat.sub_self, Nat.pow_zero]
      exact Nat.pos_of_ne_zero (fun h => hx (BitVec.eq_of_toNat_eq h))
    have hstart : Counts x (2 * 16) ⟨0, x⟩ := ⟨(cntlzw_lt_iff (Nat.le_refl 32)).mpr hpos, Nat.zero_add _⟩
    have h8 : Counts x (2 * 8) _ := hstart.skip 0x0000FFFF (by decide) (by decide)
    have h4 : Counts x (2 * 4) _ := h8.skip 0x00FFFFFF (by decide) (by decide)
    have h2 : Counts x (2 * 2) _ := h4.skip 0x0FFFFFFF (by decide) (by decide)
    have h1 := h2.skip 0x3FFFFFFF (by decide) (by decide)
    rw [cntlzwPortable, if_neg hx]
    generalize ((((Count.mk 0 x).skip 0x0000FFFF 16).skip 0x00FFFFFF 8).skip 0x0FFFFFFF 4).skip 0x3FFFFFFF 2 = s at h1
    have hall := cntlzw_le x
    have hsum := h1.sum
    have hleft := h1.left
    have hle : s.x ≤ 0x7FFFFFFF ↔ 1 ≤ (cntlzw s.x).toNat := by
      rw [le_cntlzw_iff (by decide), BitVec.le_def]
      exact Nat.lt_succ_iff.symm
    apply BitVec.eq_of_toNat_eq
    dsimp only
    split
    · rename_i hx
      have hone := hle.mp hx
      rw [BitVec.toNat_add, show (1 : U32).toNat = 1 from rfl]
      omega
    · rename_i hx
      have hnone := mt hle.mpr hx
      omega

end Zeros

/-- The bands of a format: band `e` has the depths that start with exactly `e` ones, the last
band those that start with at least so many. -/
def depthBands (m last : Nat) (h : m + last ≤ 24) : Bands where
  last := last
  size := 2 ^ m
  start e := 2 ^ 24 - 2 ^ (24 - e)
  step e := 2 ^ (if e = last then 24 - m - last else 23 - m - e)
  size_pos := Nat.two_pow_pos m
  step_pos _ := Nat.two_pow_pos _
  start_zero := rfl
  adjoin {e} he := by
    have hlow : 2 ^ m * 2 ^ (23 - m - e) = 2 ^ (24 - (e + 1)) := two_pow_mul (by omega)
    have hhigh : 2 ^ (24 - (e + 1)) * 2 ^ 1 = 2 ^ (24 - e) := two_pow_mul (by omega)
    have htop := two_pow_sub_le 24 e
    rw [if_neg (Nat.ne_of_lt he), hlow]
    omega

/-- The bands of each format. The linear format has a single one. -/
def zBands (zfmt : U32) : Bands :=
  if zfmt = GX_ZC_NEAR then depthBands 14 3 (by decide)
  else if zfmt = GX_ZC_MID then depthBands 13 7 (by decide)
  else if zfmt = GX_ZC_FAR then depthBands 12 12 (by decide)
  else depthBands 16 0 (by decide)

section Bands

variable (h : m + last ≤ 24)

theorem finish_depthBands : (depthBands m last h).finish = 2 ^ 24 := by
  have hstep : 2 ^ m * 2 ^ (24 - m - last) = 2 ^ (24 - last) := two_pow_mul (by omega)
  have htop := two_pow_sub_le 24 last
  simp only [Bands.finish, depthBands, if_true]
  omega

/-- The bands stay below the top. -/
theorem size_mul_step_le (he : e ≤ last) :
    (depthBands m last h).size * (depthBands m last h).step e ≤ 2 ^ (24 - e) := by
  simp only [depthBands]
  rw [← Nat.pow_add]
  apply Nat.pow_le_pow_right (by decide)
  split <;> omega

/-- A band starts at a whole number of blocks of its size. -/
theorem block_dvd_start (he : e ≤ last) :
    (depthBands m last h).size * (depthBands m last h).step e ∣ (depthBands m last h).start e := by
  simp only [depthBands]
  rw [← Nat.pow_add]
  apply Nat.dvd_sub
  · apply Nat.pow_dvd_pow
    split <;> omega
  · apply Nat.pow_dvd_pow
    split <;> omega

/-- The exponent is the band. -/
theorem bandOf_depth (hz : z.toNat < 2 ^ 24) :
    (depthBands m last h).bandOf z.toNat = min (cntlzw (~~~(z <<< 8))).toNat last := by
  apply Bands.bandOf_eq
  intro e he
  have hle : e ≤ 24 := Nat.le_trans he (Nat.le_trans (Nat.le_add_left last m) h)
  have htop := two_pow_sub_le 24 e
  have hpow : 2 ^ (24 - e) * 2 ^ 8 = 2 ^ (32 - e) := two_pow_mul (by omega)
  have hword : (~~~(z <<< 8)).toNat = 2 ^ 32 - 1 - z.toNat * 256 := by
    rw [BitVec.toNat_not, BitVec.toNat_shiftLeft, Nat.shiftLeft_eq, Nat.mod_eq_of_lt (by omega)]
  rw [le_cntlzw_iff (by omega), hword, ← hpow]
  show 2 ^ 24 - 2 ^ (24 - e) ≤ z.toNat ↔ _
  omega

end Bands

/-- The constants of a case belong to the bands with `last` and `2 ^ m` steps. -/
structure Constants (m last : Nat) (cap lastShift firstShift mask bits : U32) : Prop where
  cap : cap.toNat = last
  lastShift : lastShift.toNat = 24 - m - last
  firstShift : firstShift.toNat = 23 - m
  mask : mask.toNat = 2 ^ m - 1
  bits : bits.toNat = m

section Cases

variable {exp temp cap lastShift firstShift mask bits expMask : U32}

theorem capped_toNat (cap : U32) (hcap : cap.toNat < 2 ^ 31) (htemp : temp.toNat < 2 ^ 31) :
    (if cap.slt temp then cap else temp).toNat = min temp.toNat cap.toNat := by
  have hlt : cap.slt temp ↔ cap.toNat < temp.toNat := by
    rw [BitVec.slt_iff_toInt_lt, BitVec.toInt_eq_toNat_of_lt (by omega), BitVec.toInt_eq_toNat_of_lt (by omega)]
    exact Int.ofNat_lt
  split
  · rename_i hslt
    have hle := hlt.mp hslt
    omega
  · rename_i hslt
    have hle := mt hlt.mpr hslt
    omega

/-- Behind a whole number of blocks, the steps are counted by the bits above a step. -/
theorem div_mod_block {a b i j : Nat} (hdvd : 2 ^ i * 2 ^ j ∣ b) (hb : b ≤ a) (ha : a < b + 2 ^ i * 2 ^ j) :
    a / 2 ^ j % 2 ^ i = (a - b) / 2 ^ j := by
  obtain ⟨r, rfl⟩ := Nat.exists_eq_add_of_le hb
  have hr : r < 2 ^ j * 2 ^ i := by
    rw [Nat.mul_comm (2 ^ j)]
    exact Nat.lt_of_add_lt_add_left ha
  rw [Nat.mul_comm] at hdvd
  obtain ⟨k, rfl⟩ := hdvd
  rw [← Nat.mod_mul_right_div_self, Nat.mul_add_mod, Nat.mod_eq_of_lt hr, Nat.add_sub_cancel_left]

theorem mask_toNat (hmask : mask.toNat = 2 ^ m - 1) : (x &&& mask).toNat = x.toNat % 2 ^ m := by
  rw [BitVec.toNat_and, hmask, Nat.and_two_pow_sub_one_eq_mod]

/-- Ones above a bit, with a number that fits below it. -/
theorem ones_or_toNat (he : e ≤ 24) (hx : x.toNat < 2 ^ (24 - e)) :
    (((0xFFFFFFFF#32 <<< (24 - e)) ||| x) &&& 0xFFFFFF).toNat = 2 ^ 24 - 2 ^ (24 - e) + x.toNat := by
  have htop := two_pow_sub_le 24 e
  have hpow : 2 ^ (8 + e) * 2 ^ (24 - e) = 2 ^ 32 := two_pow_mul (by omega)
  have hsplit : 2 ^ 32 - 2 ^ (24 - e) = (2 ^ (8 + e) - 1) * 2 ^ (24 - e) := by rw [Nat.sub_mul, hpow, Nat.one_mul]
  have hones : (0xFFFFFFFF#32 <<< (24 - e)).toNat = (2 ^ (8 + e) - 1) <<< (24 - e) := by
    rw [BitVec.toNat_shiftLeft, Nat.shiftLeft_eq, Nat.shiftLeft_eq, ← hsplit,
      show (0xFFFFFFFF#32).toNat = 2 ^ 32 - 1 from rfl, Nat.sub_mul, Nat.one_mul]
    have hpos : 0 < 2 ^ (24 - e) := Nat.two_pow_pos _
    omega
  rw [mask_toNat (m := 24) rfl, BitVec.toNat_or, hones, ← Nat.shiftLeft_add_eq_or_of_lt hx, Nat.shiftLeft_eq, ← hsplit]
  omega

namespace Constants

/-- A step of a band is a power of two. -/
theorem step_eq (c : Constants m last cap lastShift firstShift mask bits) (h : m + last ≤ 24)
    (he : exp.toNat ≤ last) : (depthBands m last h).step exp.toNat =
      2 ^ (if exp = cap then lastShift else firstShift - exp).toNat := by
  have heq : exp = cap ↔ exp.toNat = last := by rw [← c.cap, BitVec.toNat_inj]
  simp only [depthBands, heq]
  split
  · rw [c.lastShift]
  · have hle : exp ≤ firstShift := by
      rw [BitVec.le_def, c.firstShift]
      omega
    rw [BitVec.toNat_sub_of_le hle, c.firstShift]

/-- An exponent above the mantissa. -/
theorem exp_toNat (c : Constants m last cap lastShift firstShift mask bits) (h : m + last ≤ 24)
    (he : exp.toNat ≤ last) : (exp <<< bits).toNat = exp.toNat <<< m := by
  have hexp : exp.toNat < 2 ^ last := Nat.lt_of_le_of_lt he Nat.lt_two_pow_self
  have hlt : exp.toNat * 2 ^ m < 2 ^ 32 := calc
    exp.toNat * 2 ^ m < 2 ^ last * 2 ^ m := Nat.mul_lt_mul_of_pos_right hexp (Nat.two_pow_pos m)
    _ = 2 ^ (last + m) := (Nat.pow_add 2 last m).symm
    _ ≤ 2 ^ 32 := Nat.pow_le_pow_right (by decide) (by omega)
  rw [BitVec.shiftLeft_eq', BitVec.toNat_shiftLeft, c.bits, Nat.shiftLeft_eq, Nat.mod_eq_of_lt hlt]

theorem compressCase_toNat (c : Constants m last cap lastShift firstShift mask bits) (h : m + last ≤ 24)
    (hz : z.toNat < 2 ^ 24) :
    (compressCase z (cntlzw (~~~(z <<< 8))) cap lastShift firstShift mask bits).toNat =
      (depthBands m last h).encode z.toNat := by
  have hcap := c.cap
  have htemp := cntlzw_le (~~~(z <<< 8))
  have hexp := capped_toNat cap (by omega) (Nat.lt_of_le_of_lt htemp (by decide))
  rw [hcap, ← bandOf_depth h hz] at hexp
  rw [compressCase]
  generalize (if cap.slt (cntlzw (~~~(z <<< 8))) then cap else cntlzw (~~~(z <<< 8))) = exp at hexp
  have hle : exp.toNat ≤ last := by
    rw [hexp]
    exact Bands.bandOf_le
  have hstep := c.step_eq h hle
  have hdvd := block_dvd_start h hle
  have hstart := (depthBands m last h).start_bandOf_le z.toNat
  have hstop := Bands.lt_stop (q := depthBands m last h) (z := z.toNat) (by rwa [finish_depthBands])
  rw [Bands.encode, ← hexp]
  rw [← hexp] at hstart hstop
  generalize (if exp = cap then lastShift else firstShift - exp) = shift at hstep
  rw [hstep] at hdvd hstop ⊢
  rw [BitVec.toNat_or, mask_toNat c.mask, c.exp_toNat h hle, BitVec.ushiftRight_eq', BitVec.toNat_ushiftRight,
    Nat.shiftRight_eq_div_pow, Nat.or_comm,
    ← Nat.shiftLeft_add_eq_or_of_lt (Nat.mod_lt _ (Nat.two_pow_pos m)), Nat.shiftLeft_eq]
  exact congrArg _ (div_mod_block hdvd hstart hstop)

theorem decompressCase_toNat (c : Constants m last cap lastShift firstShift mask bits) (h : m + last ≤ 24)
    (hexpMask : expMask.toNat = 2 ^ p - 1) (hp : last < 2 ^ p) (hz : z16.toNat < (depthBands m last h).count) :
    (decompressCase z16 bits expMask cap lastShift firstShift mask).toNat =
      (depthBands m last h).decode z16.toNat := by
  have hband : z16.toNat / 2 ^ m ≤ last := Bands.band_le hz
  have hexp : ((z16 >>> bits) &&& expMask).toNat = z16.toNat / 2 ^ m := by
    rw [mask_toNat hexpMask, BitVec.ushiftRight_eq', BitVec.toNat_ushiftRight, c.bits, Nat.shiftRight_eq_div_pow,
      Nat.mod_eq_of_lt (by omega)]
  rw [decompressCase, Bands.decode]
  show _ = (depthBands m last h).start (z16.toNat / 2 ^ m) +
    z16.toNat % 2 ^ m * (depthBands m last h).step (z16.toNat / 2 ^ m)
  rw [← hexp] at hband ⊢
  generalize (z16 >>> bits) &&& expMask = exp at hband
  have hstep := c.step_eq h hband
  have hsize := size_mul_step_le h hband
  generalize (if exp = cap then lastShift else firstShift - exp) = shift at hstep
  rw [hstep] at hsize ⊢
  have he : exp.toNat ≤ 24 := by omega
  have hcount : (24 - exp : U32).toNat = 24 - exp.toNat := BitVec.toNat_sub_of_le he
  have hlt : z16.toNat % 2 ^ m * 2 ^ shift.toNat < 2 ^ (24 - exp.toNat) :=
    Nat.lt_of_lt_of_le (Nat.mul_lt_mul_of_pos_right (Nat.mod_lt _ (Nat.two_pow_pos m)) (Nat.two_pow_pos _)) hsize
  have htop := two_pow_sub_le 24 exp.toNat
  have hmant : ((z16 &&& mask) <<< shift).toNat = z16.toNat % 2 ^ m * 2 ^ shift.toNat := by
    rw [BitVec.shiftLeft_eq', BitVec.toNat_shiftLeft, mask_toNat c.mask, Nat.shiftLeft_eq, Nat.mod_eq_of_lt (by omega)]
  rw [← hmant] at hlt ⊢
  rw [BitVec.shiftLeft_eq' (y := 24 - exp), hcount, ones_or_toNat he hlt]
  rfl

end Constants

end Cases

def zFormats : List U32 := [GX_ZC_LINEAR, GX_ZC_NEAR, GX_ZC_MID, GX_ZC_FAR]

theorem near_constants : Constants 14 3 3 7 9 0x3FFF 14 := ⟨rfl, rfl, rfl, rfl, rfl⟩

theorem mid_constants : Constants 13 7 7 4 10 0x1FFF 13 := ⟨rfl, rfl, rfl, rfl, rfl⟩

theorem far_constants : Constants 12 12 12 0 11 0xFFF 12 := ⟨rfl, rfl, rfl, rfl, rfl⟩

section Formats

theorem mem_zFormats : zfmt ∈ zFormats ↔
    zfmt = GX_ZC_LINEAR ∨ zfmt = GX_ZC_NEAR ∨ zfmt = GX_ZC_MID ∨ zfmt = GX_ZC_FAR := by
  simp [zFormats]

theorem finish_zBands (zfmt : U32) : (zBands zfmt).finish = 2 ^ 24 := by
  rw [zBands]
  split
  · exact finish_depthBands _
  · split
    · exact finish_depthBands _
    · split <;> exact finish_depthBands _

/-- A single band codes a number by its steps. -/
theorem encode_linear (n : Nat) : (zBands GX_ZC_LINEAR).encode n = n / 2 ^ 8 := by
  have hband : (zBands GX_ZC_LINEAR).bandOf n = 0 := Nat.le_zero.mp Bands.bandOf_le
  rw [Bands.encode, hband, Nat.zero_mul, Nat.zero_add]
  rfl

theorem GXCompressZ16_toNat (hf : zfmt ∈ zFormats) (hz : z.toNat < 2 ^ 24) :
    (GXCompressZ16 z zfmt).toNat = (zBands zfmt).encode z.toNat := by
  obtain rfl | rfl | rfl | rfl := mem_zFormats.mp hf
  · show ((z >>> 8) &&& 0xFFFF).toNat = _
    rw [encode_linear, mask_toNat (m := 16) rfl, BitVec.toNat_ushiftRight, Nat.shiftRight_eq_div_pow]
    omega
  · exact near_constants.compressCase_toNat (by decide) hz
  · exact mid_constants.compressCase_toNat (by decide) hz
  · exact far_constants.compressCase_toNat (by decide) hz

theorem GXDecompressZ16_toNat (hf : zfmt ∈ zFormats) (hz : z16.toNat < (zBands zfmt).count) :
    (GXDecompressZ16 z16 zfmt).toNat = (zBands zfmt).decode z16.toNat := by
  obtain rfl | rfl | rfl | rfl := mem_zFormats.mp hf
  · have hcode : z16.toNat < 2 ^ 16 := hz
    have hband : z16.toNat / 2 ^ 16 = 0 := Nat.div_eq_of_lt hcode
    show ((z16 <<< 8) &&& (0xFFFF#32 <<< 8)).toNat = (zBands GX_ZC_LINEAR).start (z16.toNat / 2 ^ 16) +
      z16.toNat % 2 ^ 16 * (zBands GX_ZC_LINEAR).step (z16.toNat / 2 ^ 16)
    rw [hband, Nat.mod_eq_of_lt hcode, ← BitVec.shiftLeft_and_distrib, BitVec.toNat_shiftLeft,
      mask_toNat (m := 16) rfl, Nat.mod_eq_of_lt hcode, Nat.shiftLeft_eq, Nat.mod_eq_of_lt (by omega)]
    exact (Nat.zero_add _).symm
  · exact near_constants.decompressCase_toNat (by decide) (p := 2) rfl (by decide) hz
  · exact mid_constants.decompressCase_toNat (by decide) (p := 3) rfl (by decide) hz
  · exact far_constants.decompressCase_toNat (by decide) (p := 4) rfl (by decide) hz

/-- Decompressing what was compressed gives the start of the step the depth lies in. -/
theorem roundTrip_toNat (hf : zfmt ∈ zFormats) (hz : z.toNat < 2 ^ 24) :
    (GXDecompressZ16 (GXCompressZ16 z zfmt) zfmt).toNat =
      (zBands zfmt).decode ((zBands zfmt).encode z.toNat) := by
  have hcode := GXCompressZ16_toNat hf hz
  have hlt : (zBands zfmt).encode z.toNat < (zBands zfmt).count := Bands.encode_lt (by rwa [finish_zBands])
  rw [GXDecompressZ16_toNat hf (by rwa [hcode]), hcode]

/-- Compression is a monotone projection: a depth loses less than a step of its band, a second
compression loses nothing, and the order of depths is that of their codes. -/
theorem z16_projection (hf : zfmt ∈ zFormats) (hz : z.toNat < 2 ^ 24) :
    GXDecompressZ16 (GXCompressZ16 z zfmt) zfmt ≤ z ∧
    (z - GXDecompressZ16 (GXCompressZ16 z zfmt) zfmt).toNat < (zBands zfmt).stepAt z.toNat ∧
    GXCompressZ16 (GXDecompressZ16 (GXCompressZ16 z zfmt) zfmt) zfmt = GXCompressZ16 z zfmt ∧
    ∀ y ≤ z, GXCompressZ16 y zfmt ≤ GXCompressZ16 z zfmt := by
  have hfin : z.toNat < (zBands zfmt).finish := by rwa [finish_zBands]
  have hround := roundTrip_toNat hf hz
  have hle : GXDecompressZ16 (GXCompressZ16 z zfmt) zfmt ≤ z := by
    rw [BitVec.le_def, hround]
    exact Bands.decode_encode_le hfin
  refine ⟨hle, ?_, ?_, fun y hy => ?_⟩
  · rw [BitVec.toNat_sub_of_le hle, hround]
    exact Nat.sub_lt_left_of_lt_add (Bands.decode_encode_le hfin) (Bands.lt_decode_encode_add hfin)
  · apply BitVec.eq_of_toNat_eq
    rw [GXCompressZ16_toNat hf (Nat.lt_of_le_of_lt hle hz), hround, GXCompressZ16_toNat hf hz]
    exact Bands.encode_decode_encode hfin
  · rw [BitVec.le_def, GXCompressZ16_toNat hf (Nat.lt_of_le_of_lt hy hz), GXCompressZ16_toNat hf hz]
    exact Bands.encode_mono hy hfin

theorem z16_projection_mid :
    GXDecompressZ16 (GXCompressZ16 0xF12345 GX_ZC_MID) GX_ZC_MID ≤ 0xF12345 ∧
    (0xF12345 - GXDecompressZ16 (GXCompressZ16 0xF12345 GX_ZC_MID) GX_ZC_MID).toNat <
      (zBands GX_ZC_MID).stepAt (0xF12345 : U32).toNat ∧
    GXCompressZ16 (GXDecompressZ16 (GXCompressZ16 0xF12345 GX_ZC_MID) GX_ZC_MID) GX_ZC_MID =
      GXCompressZ16 0xF12345 GX_ZC_MID ∧
    ∀ y ≤ 0xF12345, GXCompressZ16 y GX_ZC_MID ≤ GXCompressZ16 0xF12345 GX_ZC_MID :=
  z16_projection (by decide) (by decide)

end Formats

end SdkPort.GX
