import Mathlib.Algebra.Order.Floor.Div
import SdkPort.GX.PackedState
import SdkPort.Lib.MipChain

/-!
# Sizes of texture buffers

`GX.c`: a texture is stored in tiles, and a mipmapped one as the chain of its halved images.
-/
namespace SdkPort.GX

open Finset (range)
open MipChain (half levels chainSum)

abbrev U16 := BitVec 16

/-- The logarithms of the sides of a tile. -/
structure TileShift where
  rowTileS : U32
  colTileS : U32
  deriving DecidableEq, Repr

/-- `__GXGetTexTileShift`. -/
def gxGetTexTileShift (fmt : U32) : TileShift :=
  if fmt ∈ [0x0#32, 0x8#32, 0xE#32, 0x20#32, 0x30#32] then ⟨3, 3⟩
  else if fmt ∈ [0x1#32, 0x2#32, 0x9#32, 0x11#32, 0x22#32, 0x27#32, 0x28#32, 0x29#32, 0x2A#32, 0x39#32, 0x3A#32] then
    ⟨3, 2⟩
  else if fmt ∈ [0x3#32, 0x4#32, 0x5#32, 0x6#32, 0xA#32, 0x13#32, 0x16#32, 0x23#32, 0x2B#32, 0x2C#32, 0x3C#32] then
    ⟨2, 2⟩
  else ⟨0, 0⟩

def tileBytes (format : U32) : U32 := if format = 0x6 ∨ format = 0x16 then 64 else 32

/-- The tiles along a side. -/
def tiles (size : U16) (tileShift : U32) : U32 := (size.setWidth 32 + (1#32 <<< tileShift) - 1) >>> tileShift

/-- The turns of the loop that are left. -/
def mipLoop (s : TileShift) (bytes : U32) : Nat → U16 → U16 → U32 → U32
  | 0, _, _, bufferSize => bufferSize
  | n + 1, width, height, bufferSize =>
    let nx := tiles width s.rowTileS
    let ny := tiles height s.colTileS
    let bufferSize := bufferSize + bytes * (nx * ny)
    if width = 1 ∧ height = 1 then bufferSize
    else mipLoop s bytes n (if width > 1 then width >>> 1 else 1) (if height > 1 then height >>> 1 else 1) bufferSize

def GXGetTexBufferSize (width height : U16) (format : U32) (mipmap maxLod : U8) : U32 :=
  let s := gxGetTexTileShift format
  let bytes := tileBytes format
  if mipmap = 1 then mipLoop s bytes maxLod.toNat width height 0
  else
    let nx := tiles width s.rowTileS
    let ny := tiles height s.colTileS
    nx * ny * bytes

example : GXGetTexBufferSize 5 3 0x6 1 3 = 256 := by decide

/-- The sides of a tile. -/
def tileWidth (format : U32) : Nat := 2 ^ (gxGetTexTileShift format).rowTileS.toNat

def tileHeight (format : U32) : Nat := 2 ^ (gxGetTexTileShift format).colTileS.toNat

/-- The formats by the bits of a texel, as their names give them. -/
def texelBits : List (U32 × Nat) :=
  -- I4, C4, CMPR, R4, Z4
  [(0x0, 4), (0x8, 4), (0xE, 4), (0x20, 4), (0x30, 4),
  -- I8, IA4, C8, Z8, RA4, A8, R8, G8, B8, Z8M, Z8L
    (0x1, 8), (0x2, 8), (0x9, 8), (0x11, 8), (0x22, 8), (0x27, 8), (0x28, 8), (0x29, 8), (0x2A, 8), (0x39, 8), (0x3A, 8),
  -- IA8, RGB565, RGB5A3, C14X2, Z16, RA8, RG8, GB8, Z16L
    (0x3, 16), (0x4, 16), (0x5, 16), (0xA, 16), (0x13, 16), (0x23, 16), (0x2B, 16), (0x2C, 16), (0x3C, 16),
  -- RGBA8, Z24X8
    (0x6, 32), (0x16, 32)]

/-- The texels of a tile take its bytes. -/
theorem tile_filled : ∀ x ∈ texelBits, tileWidth x.1 * tileHeight x.1 * x.2 = 8 * (tileBytes x.1).toNat := by
  decide

/-- No other format has tiles of more than a texel. -/
theorem tile_single {format : U32} (h : format ∉ texelBits.map Prod.fst) : tileWidth format = 1 ∧ tileHeight format = 1 := by
  have hout : ∀ {l : List U32}, (∀ x ∈ l, x ∈ texelBits.map Prod.fst) → format ∉ l := fun hl hm => h (hl _ hm)
  have hshift : gxGetTexTileShift format = ⟨0, 0⟩ := by
    rw [gxGetTexTileShift, if_neg (hout ?_), if_neg (hout ?_), if_neg (hout ?_)]
    · simp [texelBits]
    · simp [texelBits]
    · simp [texelBits]
  rw [tileWidth, tileHeight, hshift]
  exact ⟨rfl, rfl⟩

/-- The bytes of an image, in whole tiles. -/
def imageBytes (format : U32) (w h : Nat) : Nat :=
  (tileBytes format).toNat * (w ⌈/⌉ tileWidth format) * (h ⌈/⌉ tileHeight format)

/-- The bytes of a level of a mipmapped texture. -/
def levelBytes (format : U32) (w h k : Nat) : Nat :=
  (tileBytes format).toNat * (max 1 (w / 2 ^ k) ⌈/⌉ tileWidth format) * (max 1 (h / 2 ^ k) ⌈/⌉ tileHeight format)

variable {format shift bufferSize : U32} {width height width' height' : U16} {mipmap maxLod maxLod' : U8}
  {n w w' h h' : Nat}

theorem tileShift_le (fmt : U32) :
    (gxGetTexTileShift fmt).rowTileS.toNat ≤ 3 ∧ (gxGetTexTileShift fmt).colTileS.toNat ≤ 3 := by
  rw [gxGetTexTileShift]
  split
  · decide
  · split
    · decide
    · split <;> decide

/-- Tiles are counted rounding up. -/
theorem tiles_toNat (hs : shift.toNat ≤ 3) : (tiles width shift).toNat = width.toNat ⌈/⌉ 2 ^ shift.toNat := by
  have hpos : 1 ≤ 2 ^ shift.toNat := Nat.two_pow_pos _
  have hle : 2 ^ shift.toNat ≤ 2 ^ 3 := Nat.pow_le_pow_right (by decide) hs
  have hwidth : width.toNat < 2 ^ 16 := width.isLt
  have hone : (1#32 <<< shift).toNat = 2 ^ shift.toNat := by
    rw [BitVec.shiftLeft_eq', BitVec.toNat_shiftLeft, Nat.shiftLeft_eq, BitVec.toNat_ofNat,
      Nat.one_mod_two_pow_eq_one.mpr (by decide), Nat.one_mul]
    exact Nat.mod_eq_of_lt (by omega)
  have hsum : (width.setWidth 32 + (1#32 <<< shift) - 1).toNat = width.toNat + 2 ^ shift.toNat - 1 := by
    rw [BitVec.toNat_sub, BitVec.toNat_add, hone, BitVec.toNat_setWidth]
    show (2 ^ 32 - 1 + (width.toNat % 2 ^ 32 + 2 ^ shift.toNat) % 2 ^ 32) % 2 ^ 32 = _
    omega
  rw [tiles, BitVec.ushiftRight_eq', BitVec.toNat_ushiftRight, hsum, Nat.shiftRight_eq_div_pow,
    Nat.ceilDiv_eq_add_pred_div]

theorem tileWidth_pos (format : U32) : 0 < tileWidth format := Nat.two_pow_pos _

theorem tileHeight_pos (format : U32) : 0 < tileHeight format := Nat.two_pow_pos _

theorem imageBytes_mono (format : U32) (hw : w ≤ w') (hh : h ≤ h') : imageBytes format w h ≤ imageBytes format w' h' := by
  have hwidth : w ⌈/⌉ tileWidth format ≤ w' ⌈/⌉ tileWidth format := (gc_mul_ceilDiv (tileWidth_pos format)).monotone_l hw
  have hheight : h ⌈/⌉ tileHeight format ≤ h' ⌈/⌉ tileHeight format :=
    (gc_mul_ceilDiv (tileHeight_pos format)).monotone_l hh
  exact Nat.mul_le_mul (Nat.mul_le_mul_left _ hwidth) hheight

/-- There are at most as many tiles as texels. -/
theorem imageBytes_le (format : U32) (w h : Nat) : imageBytes format w h ≤ 64 * w * h := by
  have hbytes : (tileBytes format).toNat ≤ 64 := by
    rw [tileBytes]
    split <;> decide
  have hwidth : w ⌈/⌉ tileWidth format ≤ w :=
    (ceilDiv_le_iff_le_mul (tileWidth_pos format)).mpr (Nat.le_mul_of_pos_left w (tileWidth_pos format))
  have hheight : h ⌈/⌉ tileHeight format ≤ h :=
    (ceilDiv_le_iff_le_mul (tileHeight_pos format)).mpr (Nat.le_mul_of_pos_left h (tileHeight_pos format))
  exact Nat.mul_le_mul (Nat.mul_le_mul hbytes hwidth) hheight

/-- One image, as the port computes it. -/
theorem image_toNat (format : U32) (width height : U16) :
    (tileBytes format * (tiles width (gxGetTexTileShift format).rowTileS *
      tiles height (gxGetTexTileShift format).colTileS)).toNat =
      imageBytes format width.toNat height.toNat % 2 ^ 32 := by
  obtain ⟨hrow, hcol⟩ := tileShift_le format
  rw [BitVec.toNat_mul, BitVec.toNat_mul, tiles_toNat hrow, tiles_toNat hcol, Nat.mul_mod_mod, ← Nat.mul_assoc]
  rfl

/-- The port halves a side as the chain does. -/
theorem side_toNat (hw : width ≠ 0) : (if width > 1 then width >>> 1 else 1).toNat = half 1 width.toNat := by
  have hpos : width.toNat ≠ 0 := fun h => hw (BitVec.eq_of_toNat_eq h)
  have hlt : width > 1 ↔ 1 < width.toNat := BitVec.lt_def
  rw [half, Nat.pow_one]
  split
  · rename_i h
    have hone := hlt.mp h
    rw [BitVec.toNat_ushiftRight, Nat.shiftRight_eq_div_pow]
    omega
  · rename_i h
    have hone := mt hlt.mpr h
    show 1 = _
    omega

theorem one_le_side (hw : width ≠ 0) : 1 ≤ width.toNat := by
  apply Nat.pos_of_ne_zero
  exact fun h => hw (BitVec.eq_of_toNat_eq h)

theorem side_ne_zero (hw : width ≠ 0) : (if width > 1 then width >>> 1 else 1) ≠ 0 := by
  intro h
  have hside := side_toNat hw
  have hone : 1 ≤ half 1 width.toNat := Nat.le_max_left _ _
  rw [← hside, h] at hone
  exact absurd hone (by decide)

theorem long_side (hw : width ≠ 0) (hh : height ≠ 0) (hone : ¬ (width = 1 ∧ height = 1)) :
    1 < max width.toNat height.toNat := by
  by_contra hshort
  obtain ⟨hwidth, hheight⟩ := Nat.max_le.mp (Nat.le_of_not_lt hshort)
  have heqw : width = 1 := BitVec.eq_of_toNat_eq (Nat.le_antisymm hwidth (one_le_side hw))
  have heqh : height = 1 := BitVec.eq_of_toNat_eq (Nat.le_antisymm hheight (one_le_side hh))
  exact hone ⟨heqw, heqh⟩

/-- The loop adds the chain of the images that are left. -/
theorem mipLoop_toNat (format : U32) (hw : width ≠ 0) (hh : height ≠ 0) :
    (mipLoop (gxGetTexTileShift format) (tileBytes format) n width height bufferSize).toNat =
      (bufferSize.toNat + chainSum (imageBytes format) n width.toNat height.toNat) % 2 ^ 32 := by
  induction n generalizing width height bufferSize with
  | zero =>
    rw [mipLoop, MipChain.chainSum_zero, Nat.add_zero]
    exact (Nat.mod_eq_of_lt bufferSize.isLt).symm
  | succ n ih =>
    rw [mipLoop]
    split
    · rename_i hone
      obtain ⟨rfl, rfl⟩ := hone
      rw [BitVec.toNat_add, image_toNat, Nat.add_mod_mod]
      exact congrArg (fun t => (_ + t) % 2 ^ 32) (MipChain.chainSum_one n).symm
    · rename_i hone
      rw [ih (side_ne_zero hw) (side_ne_zero hh), side_toNat hw, side_toNat hh, BitVec.toNat_add, image_toNat,
        Nat.add_mod_mod, Nat.mod_add_mod, Nat.add_assoc,
        ← MipChain.chainSum_succ (one_le_side hw) (one_le_side hh) (long_side hw hh hone)]

theorem mipmap_toNat (hw : width ≠ 0) (hh : height ≠ 0) :
    (GXGetTexBufferSize width height format 1 maxLod).toNat =
      chainSum (imageBytes format) maxLod.toNat width.toNat height.toNat % 2 ^ 32 := by
  rw [GXGetTexBufferSize, if_pos rfl, mipLoop_toNat format hw hh]
  exact congrArg (· % 2 ^ 32) (Nat.zero_add _)

theorem single_toNat (hmipmap : mipmap ≠ 1) :
    (GXGetTexBufferSize width height format mipmap maxLod).toNat =
      imageBytes format width.toNat height.toNat % 2 ^ 32 := by
  rw [GXGetTexBufferSize, if_neg hmipmap, BitVec.mul_comm]
  exact image_toNat format width height

/-- No image of up to 1024 by 1024 texels has more bytes than this. -/
theorem small_image_le (format : U32) (hw : w ≤ 1024) (hh : h ≤ 1024) : imageBytes format w h ≤ 64 * 1024 * 1024 := calc
  imageBytes format w h ≤ 64 * w * h := imageBytes_le format w h
  _ ≤ 64 * 1024 * 1024 := Nat.mul_le_mul (Nat.mul_le_mul_left 64 hw) hh

theorem small_image_lt (format : U32) (hw : w ≤ 1024) (hh : h ≤ 1024) : imageBytes format w h < 2 ^ 32 :=
  Nat.lt_of_le_of_lt (small_image_le format hw hh) (by decide)

theorem small_chain_lt (format : U32) (hw : 1 ≤ w) (hh : 1 ≤ h) (hw' : w ≤ 1024) (hh' : h ≤ 1024) :
    chainSum (imageBytes format) n w h < 2 ^ 32 := by
  have hlevels : levels w h ≤ 11 := calc
    levels w h ≤ levels (2 ^ 10) (2 ^ 10) := MipChain.levels_mono hw' hh'
    _ = 11 := by rw [levels, Nat.max_self, Nat.log_pow (by decide)]
  calc chainSum (imageBytes format) n w h
      ≤ levels w h * imageBytes format w h := MipChain.chainSum_le (imageBytes_mono format) hw hh
    _ ≤ 11 * (64 * 1024 * 1024) := Nat.mul_le_mul hlevels (small_image_le format hw' hh')
    _ < 2 ^ 32 := by decide

/-- Up to 1024 by 1024 texels, no argument that grows makes the buffer smaller. -/
theorem bufferSize_mono (hw : width ≠ 0) (hh : height ≠ 0) (hw' : width' ≤ 1024) (hh' : height' ≤ 1024)
    (hwidth : width ≤ width') (hheight : height ≤ height') (hlod : maxLod ≤ maxLod') :
    GXGetTexBufferSize width height format mipmap maxLod ≤ GXGetTexBufferSize width' height' format mipmap maxLod' := by
  have hne : width' ≠ 0 := by
    rintro rfl
    exact hw (BitVec.le_zero_iff.mp hwidth)
  have hne' : height' ≠ 0 := by
    rintro rfl
    exact hh (BitVec.le_zero_iff.mp hheight)
  have hle : width.toNat ≤ 1024 := Nat.le_trans hwidth hw'
  have hle' : height.toNat ≤ 1024 := Nat.le_trans hheight hh'
  rw [BitVec.le_def]
  by_cases hmipmap : mipmap = 1
  · subst hmipmap
    rw [mipmap_toNat hw hh, mipmap_toNat hne hne',
      Nat.mod_eq_of_lt (small_chain_lt format (one_le_side hw) (one_le_side hh) hle hle'),
      Nat.mod_eq_of_lt (small_chain_lt format (one_le_side hne) (one_le_side hne') hw' hh')]
    exact MipChain.chainSum_mono (imageBytes_mono format) hlod hwidth hheight
  · rw [single_toNat hmipmap, single_toNat hmipmap, Nat.mod_eq_of_lt (small_image_lt format hle hle'),
      Nat.mod_eq_of_lt (small_image_lt format hw' hh')]
    exact imageBytes_mono format hwidth hheight

/-- The size of a texture buffer is the sum over its levels, down to the one of a single texel. -/
theorem texBufferSize_mipChain (hw : width ≠ 0) (hh : height ≠ 0) :
    (GXGetTexBufferSize width height format 1 maxLod).toNat =
      (∑ k ∈ range (min maxLod.toNat (Nat.log 2 (max width.toNat height.toNat) + 1)),
        levelBytes format width.toNat height.toNat k) % 2 ^ 32 ∧
    (∀ mipmap ≠ 1, (GXGetTexBufferSize width height format mipmap maxLod).toNat =
      levelBytes format width.toNat height.toNat 0 % 2 ^ 32) ∧
    ∀ mipmap maxLod' width' height', width ≤ width' → width' ≤ 1024 → height ≤ height' → height' ≤ 1024 →
      maxLod ≤ maxLod' →
      GXGetTexBufferSize width height format mipmap maxLod ≤
        GXGetTexBufferSize width' height' format mipmap maxLod' := by
  refine ⟨mipmap_toNat hw hh, fun mipmap hmipmap => ?_, fun mipmap maxLod' width' height' hwidth hw' hheight hh' hlod => ?_⟩
  · have hlevel : levelBytes format width.toNat height.toNat 0 =
        imageBytes format (half 0 width.toNat) (half 0 height.toNat) := rfl
    rw [hlevel, MipChain.half_zero (one_le_side hw), MipChain.half_zero (one_le_side hh)]
    exact single_toNat hmipmap
  · exact bufferSize_mono hw hh hw' hh' hwidth hheight hlod

theorem texBufferSize_mipChain_5_3 :
    (GXGetTexBufferSize 5 3 0x6 1 3).toNat =
      (∑ k ∈ range (min (3 : U8).toNat (Nat.log 2 (max (5 : U16).toNat (3 : U16).toNat) + 1)),
        levelBytes 0x6 (5 : U16).toNat (3 : U16).toNat k) % 2 ^ 32 ∧
    (∀ mipmap ≠ 1, (GXGetTexBufferSize 5 3 0x6 mipmap 3).toNat =
      levelBytes 0x6 (5 : U16).toNat (3 : U16).toNat 0 % 2 ^ 32) ∧
    ∀ mipmap maxLod' width' height', 5 ≤ width' → width' ≤ 1024 → 3 ≤ height' → height' ≤ 1024 → 3 ≤ maxLod' →
      GXGetTexBufferSize 5 3 0x6 mipmap 3 ≤ GXGetTexBufferSize width' height' 0x6 mipmap maxLod' :=
  texBufferSize_mipChain (by decide) (by decide)

end SdkPort.GX
