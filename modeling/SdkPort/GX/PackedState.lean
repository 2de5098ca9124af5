import Mathlib.Logic.Function.Basic

/-!
# Packed registers of the graphics processor

`GX.c`: setters that keep shadow copies of the vertex format, TEV and blend registers, each
a 32-bit word of several fields.
-/
namespace SdkPort.GX

open Function (update)

abbrev U32 := BitVec 32
abbrev U8 := BitVec 8

/-- The shadow registers: the vertex formats, the stages of the TEV, the selectors of two
stages in one word, and the blend mode. -/
inductive Reg where
  | gcGxVatA (vtxfmt : Nat)
  | gcGxVatB (vtxfmt : Nat)
  | gcGxVatC (vtxfmt : Nat)
  | gcGxTevc (stage : Nat)
  | gcGxTeva (stage : Nat)
  | gcGxTevKsel (idx : Nat)
  | gcGxCmode0
  deriving DecidableEq, Repr

/-- The registers, the last word sent, and what is marked as changed. -/
structure GxState where
  reg : Reg → U32
  lastRasReg : U32
  bpSentNot : U32
  dirtyState : U32
  dirtyVat : U32

def setField (reg : U32) (size shift : Nat) (v : U32) : U32 :=
  let mask := (1#32 <<< size - 1#32) <<< shift
  (reg &&& ~~~mask) ||| ((v <<< shift) &&& mask)

namespace GxState

/-- A field of a register is set in place. -/
def set (s : GxState) (r : Reg) (size shift : Nat) (v : U32) : GxState :=
  { s with reg := update s.reg r (setField (s.reg r) size shift v) }

/-- A register is written to the processor. -/
def send (s : GxState) (r : Reg) : GxState := { s with lastRasReg := s.reg r, bpSentNot := 0 }

end GxState

def GX_VA_POS : U32 := 9
def GX_VA_NRM : U32 := 10
def GX_VA_CLR0 : U32 := 11
def GX_VA_CLR1 : U32 := 12
def GX_VA_TEX0 : U32 := 13
def GX_VA_TEX1 : U32 := 14
def GX_VA_TEX2 : U32 := 15
def GX_VA_TEX3 : U32 := 16
def GX_VA_TEX4 : U32 := 17
def GX_VA_TEX5 : U32 := 18
def GX_VA_TEX6 : U32 := 19
def GX_VA_TEX7 : U32 := 20
def GX_VA_NBT : U32 := 25

def gcGxSetVat (s : GxState) (va vb vc : Reg) (attr cnt type shft : U32) : GxState :=
  if attr = GX_VA_POS then ((s.set va 1 0 cnt).set va 3 1 type).set va 5 4 shft
  else if attr = GX_VA_NRM ∨ attr = GX_VA_NBT then
    let s := s.set va 3 10 type
    -- three indices, one for each vector
    if cnt = 2 then (s.set va 1 9 1).set va 1 31 1
    else (s.set va 1 9 cnt).set va 1 31 0
  else if attr = GX_VA_CLR0 then (s.set va 1 13 cnt).set va 3 14 type
  else if attr = GX_VA_CLR1 then (s.set va 1 17 cnt).set va 3 18 type
  else if attr = GX_VA_TEX0 then ((s.set va 1 21 cnt).set va 3 22 type).set va 5 25 shft
  else if attr = GX_VA_TEX1 then ((s.set vb 1 0 cnt).set vb 3 1 type).set vb 5 4 shft
  else if attr = GX_VA_TEX2 then ((s.set vb 1 9 cnt).set vb 3 10 type).set vb 5 13 shft
  else if attr = GX_VA_TEX3 then ((s.set vb 1 18 cnt).set vb 3 19 type).set vb 5 22 shft
  else if attr = GX_VA_TEX4 then ((s.set vb 1 27 cnt).set vb 3 28 type).set vc 5 0 shft
  else if attr = GX_VA_TEX5 then ((s.set vc 1 5 cnt).set vc 3 6 type).set vc 5 9 shft
  else if attr = GX_VA_TEX6 then ((s.set vc 1 14 cnt).set vc 3 15 type).set vc 5 18 shft
  else if attr = GX_VA_TEX7 then ((s.set vc 1 23 cnt).set vc 3 24 type).set vc 5 27 shft
  else s

def GXSetVtxAttrFmt (s : GxState) (vtxfmt attr cnt type : U32) (frac : U8) : GxState :=
  if 8 ≤ vtxfmt then s
  else
    let i := vtxfmt.toNat
    let s := gcGxSetVat s (.gcGxVatA i) (.gcGxVatB i) (.gcGxVatC i) attr cnt type (frac.setWidth 32)
    { s with dirtyState := s.dirtyState ||| 0x10, dirtyVat := s.dirtyVat ||| 1 <<< i }

def GXSetTevColorIn (s : GxState) (stage a b c d : U32) : GxState :=
  if 16 ≤ stage then s
  else
    let r := Reg.gcGxTevc stage.toNat
    let reg := s.reg r
    let reg := setField reg 4 12 a
    let reg := setField reg 4 8 b
    let reg := setField reg 4 4 c
    let reg := setField reg 4 0 d
    { s with reg := update s.reg r reg }.send r

def GXSetTevAlphaIn (s : GxState) (stage a b c d : U32) : GxState :=
  if 16 ≤ stage then s
  else
    let r := Reg.gcGxTeva stage.toNat
    let reg := s.reg r
    let reg := setField reg 3 13 a
    let reg := setField reg 3 10 b
    let reg := setField reg 3 7 c
    let reg := setField reg 3 4 d
    { s with reg := update s.reg r reg }.send r

/-- The fields of an operation, at the same places for colour and alpha. -/
def setTevOp (reg op bias scale clamp outReg : U32) : U32 :=
  let reg := setField reg 1 18 (op &&& 1)
  let reg :=
    if op ≤ 1 then setField (setField reg 2 20 scale) 2 16 bias
    else setField (setField reg 2 20 ((op >>> 1) &&& 3)) 2 16 3
  let reg := setField reg 1 19 (clamp &&& 0xFF)
  setField reg 2 22 outReg

def GXSetTevColorOp (s : GxState) (stage op bias scale clamp outReg : U32) : GxState :=
  if 16 ≤ stage then s
  else
    let r := Reg.gcGxTevc stage.toNat
    { s with reg := update s.reg r (setTevOp (s.reg r) op bias scale clamp outReg) }.send r

def GXSetTevAlphaOp (s : GxState) (stage op bias scale clamp outReg : U32) : GxState :=
  if 16 ≤ stage then s
  else
    let r := Reg.gcGxTeva stage.toNat
    { s with reg := update s.reg r (setTevOp (s.reg r) op bias scale clamp outReg) }.send r

/-- Two stages share a word of selectors. -/
def GXSetTevKColorSel (s : GxState) (stage sel : U32) : GxState :=
  if 16 ≤ stage then s
  else
    let r := Reg.gcGxTevKsel (stage.toNat / 2)
    (if stage &&& 1 ≠ 0 then s.set r 5 14 sel else s.set r 5 4 sel).send r

def GXSetTevKAlphaSel (s : GxState) (stage sel : U32) : GxState :=
  if 16 ≤ stage then s
  else
    let r := Reg.gcGxTevKsel (stage.toNat / 2)
    (if stage &&& 1 ≠ 0 then s.set r 5 19 sel else s.set r 5 9 sel).send r

def GXSetTevSwapMode (s : GxState) (stage rasSel texSel : U32) : GxState :=
  if 16 ≤ stage then s
  else
    let r := Reg.gcGxTeva stage.toNat
    ((s.set r 2 0 rasSel).set r 2 2 texSel).send r

/-- A table is split over two words. -/
def GXSetTevSwapModeTable (s : GxState) (table red green blue alpha : U32) : GxState :=
  if 4 ≤ table then s
  else
    let r₀ := Reg.gcGxTevKsel (table.toNat * 2)
    let r₁ := Reg.gcGxTevKsel (table.toNat * 2 + 1)
    let s := ((s.set r₀ 2 0 red).set r₀ 2 2 green).send r₀
    ((s.set r₁ 2 0 blue).set r₁ 2 2 alpha).send r₁

def GXSetBlendMode (s : GxState) (type srcFactor dstFactor op : U32) : GxState :=
  let blendEnable : U32 := if type = 1 ∨ type = 3 then 1 else 0
  let subtract : U32 := if type = 3 then 1 else 0
  let logic : U32 := if type = 2 then 1 else 0
  let r := Reg.gcGxCmode0
  let s := s.set r 1 0 blendEnable
  let s := s.set r 1 11 subtract
  let s := s.set r 1 1 logic
  let s := s.set r 4 12 (op &&& 0xF)
  let s := s.set r 3 8 (srcFactor &&& 7)
  let s := s.set r 3 5 (dstFactor &&& 7)
  let s := s.set r 8 24 0x41
  s.send r

def GXSetAlphaUpdate (s : GxState) (updateEnable : U8) : GxState :=
  (s.set .gcGxCmode0 1 4 (if updateEnable ≠ 0 then 1 else 0)).send .gcGxCmode0

def GXSetDither (s : GxState) (dither : U8) : GxState :=
  (s.set .gcGxCmode0 1 2 (if dither ≠ 0 then 1 else 0)).send .gcGxCmode0

end SdkPort.GX
