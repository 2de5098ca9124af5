import Mathlib.Data.Fintype.Sum
import Mathlib.Tactic.DeriveFintype
import SdkPort.GX.TexSize
import SdkPort.Lib.LastWriter

/-!
# Setters of the pipeline

`GX.c`: registers that several parts of the pipeline share, such as the numbers of generators, channels
and stages in one word, and the registers of the transform unit that copy colours and matrix indices.
-/
namespace SdkPort.GX

open Function (update)

/-- The shadow registers; of some kinds there are several. -/
inductive Kind where
  | genMode | lpSize | suScis0 | suScis1 | suTs0 | suTs1 | tref | iref | indTexScale | peCtrl
  | matIdxA | matIdxB | ambColor | matColor | tevTcEnab | tcsManEnab
  deriving DecidableEq

structure SetReg where
  kind : Kind
  index : Nat
  deriving DecidableEq

/-- The registers, those of the transform unit, and what is marked as changed. -/
structure SetState where
  reg : SetReg → U32
  xf : Nat → U32
  xfTexCoordGen40 : Nat → U32
  xfTexCoordGen50 : Nat → U32
  texmapId : Nat → U32
  lastRasReg : U32
  bpSentNot : U32
  dirtyState : U32

namespace SetState

def get (s : SetState) (k : Kind) (i : Nat) : U32 := s.reg ⟨k, i⟩

def put (s : SetState) (k : Kind) (i : Nat) (v : U32) : SetState := { s with reg := update s.reg ⟨k, i⟩ v }

def set (s : SetState) (k : Kind) (i size shift : Nat) (v : U32) : SetState :=
  s.put k i (setField (s.get k i) size shift v)

def send (s : SetState) (k : Kind) (i : Nat) : SetState := { s with lastRasReg := s.get k i }

def dirty (s : SetState) (bits : U32) : SetState := { s with dirtyState := s.dirtyState ||| bits }

def sentNot (s : SetState) (v : U32) : SetState := { s with bpSentNot := v }

/-- `gx_write_xf_reg`. -/
def writeXf (s : SetState) (idx : Nat) (v : U32) : SetState :=
  if idx < 64 then { s with xf := update s.xf idx v } else s

end SetState

/-! ### Rasterising -/

def GXSetScissor (s : SetState) (left top wd ht : U32) : SetState :=
  let tp := top + 342
  let lf := left + 342
  let bm := tp + ht - 1
  let rt := lf + wd - 1
  ((((s.set .suScis0 0 11 0 tp).set .suScis0 0 11 12 lf).set .suScis1 0 11 0 bm).set .suScis1 0 11 12 rt).sentNot 0

def GXSetLineWidth (s : SetState) (width : U8) (texOffsets : U32) : SetState :=
  ((s.set .lpSize 0 8 0 (width.setWidth 32)).set .lpSize 0 3 16 (texOffsets &&& 7)).sentNot 0

def GXSetPointSize (s : SetState) (pointSize : U8) (texOffsets : U32) : SetState :=
  ((s.set .lpSize 0 8 8 (pointSize.setWidth 32)).set .lpSize 0 3 19 (texOffsets &&& 7)).sentNot 0

def GXEnableTexOffsets (s : SetState) (coord : U32) (lineEnable pointEnable : U8) : SetState :=
  if 8 ≤ coord then s
  else
    let s := s.set .suTs0 coord.toNat 1 18 (if lineEnable ≠ 0 then 1 else 0)
    let s := s.set .suTs0 coord.toNat 1 19 (if pointEnable ≠ 0 then 1 else 0)
    s.sentNot 0

def GXSetTexCoordScaleManually (s : SetState) (coord : U32) (enable : U8) (ss ts : U16) : SetState :=
  if 8 ≤ coord then s
  else
    let i := coord.toNat
    let s := s.put .tcsManEnab 0
      ((s.get .tcsManEnab 0 &&& ~~~((1 : U32) <<< i)) ||| ((if enable ≠ 0 then (1 : U32) else 0) <<< i))
    if enable ≠ 0 then
      let s := s.set .suTs0 i 16 0 ((ss - 1).setWidth 32)
      let s := s.set .suTs1 i 16 0 ((ts - 1).setWidth 32)
      ((s.send .suTs0 i).send .suTs1 i).sentNot 0
    else s

def GXSetCullMode (s : SetState) (mode : U32) : SetState :=
  let hwMode := if mode = 1 then 2 else if mode = 2 then 1 else mode
  (s.set .genMode 0 2 14 (hwMode &&& 3)).dirty 4

def GXSetCoPlanar (s : SetState) (enable : U32) : SetState := s.set .genMode 0 1 19 (if enable ≠ 0 then 1 else 0)

def GXSetZCompLoc (s : SetState) (beforeTex : U8) : SetState :=
  ((s.set .peCtrl 0 1 6 (if beforeTex ≠ 0 then 1 else 0)).send .peCtrl 0).sentNot 0

def GXPixModeSync (s : SetState) : SetState := (s.send .peCtrl 0).sentNot 0

/-! ### Stages -/

def GXSetNumTexGens (s : SetState) (nTexGens : U8) : SetState := (s.set .genMode 0 4 0 (nTexGens.setWidth 32)).dirty 4

def GXSetNumChans (s : SetState) (nChans : U8) : SetState := (s.set .genMode 0 3 4 (nChans.setWidth 32)).dirty 4

def GXSetNumTevStages (s : SetState) (nStages : U8) : SetState :=
  if nStages = 0 ∨ 16 < nStages then s else (s.set .genMode 0 4 10 (nStages.setWidth 32 - 1)).dirty 4

def GXSetNumIndStages (s : SetState) (nIndStages : U8) : SetState :=
  if 4 < nIndStages then s else (s.set .genMode 0 3 16 (nIndStages.setWidth 32)).dirty 6

/-- Colours of the rasteriser by channel. -/
def c2r : List U32 := [0, 1, 0, 1, 0, 1, 7, 5, 6]

/-- The table is read without a check; there is nothing to be read behind its end. -/
def rasColor (color : U32) : Option U32 := if color = 0xFF then some 7 else c2r[color.toNat]?

/-- Whether a stage has a coordinate. -/
def enableCoord (s : SetState) (stage coord : U32) : SetState :=
  let enab := s.get .tevTcEnab 0
  if 8 ≤ coord then s.put .tevTcEnab 0 (enab &&& ~~~((1 : U32) <<< stage.toNat))
  else s.put .tevTcEnab 0 (enab ||| ((1 : U32) <<< stage.toNat))

/-- Two stages share a word. -/
def setTref (s : SetState) (stage tmap tcoord rasc enable : U32) : SetState :=
  let i := stage.toNat / 2
  if stage &&& 1 ≠ 0 then
    (((s.set .tref i 3 12 tmap).set .tref i 3 15 tcoord).set .tref i 3 19 rasc).set .tref i 1 18 enable
  else (((s.set .tref i 3 0 tmap).set .tref i 3 3 tcoord).set .tref i 3 7 rasc).set .tref i 1 6 enable

/-- A stage gets its map, its coordinate and a colour of the rasteriser. -/
def orderStage (s : SetState) (stage coord map rasc : U32) : SetState :=
  let s := { s with texmapId := update s.texmapId stage.toNat map }
  let tmap := map &&& ~~~0x100
  let tmap := if 8 ≤ tmap then 0 else tmap
  let tcoord := if 8 ≤ coord then 0 else coord
  let s := enableCoord s stage coord
  let enable := if map ≠ 0xFF ∧ map &&& 0x100 = 0 then 1 else 0
  ((setTref s stage tmap tcoord rasc enable).sentNot 0).dirty 1

def GXSetTevOrder (s : SetState) (stage coord map color : U32) : Option SetState :=
  if 16 ≤ stage then some s else (rasColor color).map fun rasc => orderStage s stage coord map rasc

def GXSetIndTexOrder (s : SetState) (indStage texCoord texMap : U32) : SetState :=
  let s :=
    if indStage < 4 then
      (s.set .iref 0 3 (6 * indStage.toNat) texMap).set .iref 0 3 (6 * indStage.toNat + 3) texCoord
    else s
  (s.dirty 3).sentNot 0

/-- Stages 0 and 1 have one word, stages 2 and 3 the other. -/
def GXSetIndTexCoordScale (s : SetState) (indStage scaleS scaleT : U32) : SetState :=
  let s :=
    if indStage < 4 then
      let i := indStage.toNat / 2
      let j := indStage.toNat % 2
      let s := (s.set .indTexScale i 4 (8 * j) scaleS).set .indTexScale i 4 (8 * j + 4) scaleT
      s.set .indTexScale i 8 24 (0x25 + indStage / 2)
    else s
  s.sentNot 0

/-! ### Transforming -/

def GXSetCurrentMtx (s : SetState) (id : U32) : SetState :=
  let s := s.set .matIdxA 0 6 0 id
  (s.writeXf 24 (s.get .matIdxA 0)).sentNot 1

/-- The row and the form of a source. -/
def texGenSource (srcParam : U32) : U32 × U32 :=
  if srcParam = 0 then (0, 1) else if srcParam = 1 then (1, 1) else if srcParam = 2 then (3, 1)
  else if srcParam = 3 then (4, 1) else if srcParam ≤ 11 then (srcParam + 1, 0)
  else if srcParam = 19 ∨ srcParam = 20 then (2, 0) else (5, 0)

def texGenReg (func row form : U32) : U32 :=
  if func = 1 ∨ func = 0 then
    setField (setField (setField (setField 0 1 1 (if func = 0 then 1 else 0)) 1 2 form) 3 4 0) 5 7 row
  else 0

def GXSetTexCoordGen2 (s : SetState) (dstCoord : U8) (func srcParam mtx normalize postmtx : U32) : SetState :=
  if 8 ≤ dstCoord then s
  else
    let i := dstCoord.toNat
    let (row, form) := texGenSource srcParam
    let post := setField (setField 0 6 0 ((postmtx - 64) &&& 0x3F)) 1 8 (if normalize ≠ 0 then 1 else 0)
    let s := { s with xfTexCoordGen40 := update s.xfTexCoordGen40 i (texGenReg func row form)
                      xfTexCoordGen50 := update s.xfTexCoordGen50 i post }
    let s :=
      if i ≤ 3 then
        let s := s.set .matIdxA 0 6 (6 + i * 6) (mtx &&& 0x3F)
        s.writeXf 24 (s.get .matIdxA 0)
      else
        let s := s.set .matIdxB 0 6 ((i - 4) * 6) (mtx &&& 0x3F)
        s.writeXf 25 (s.get .matIdxB 0)
    s.sentNot 1

def GXSetTexCoordGen (s : SetState) (dstCoord : U8) (func srcParam mtx : U32) : SetState :=
  GXSetTexCoordGen2 s dstCoord func srcParam mtx 0 125

structure GXColor where
  r : U8
  g : U8
  b : U8
  a : U8
  deriving DecidableEq

def GX_COLOR0 : U32 := 0
def GX_COLOR1 : U32 := 1
def GX_ALPHA0 : U32 := 2
def GX_ALPHA1 : U32 := 3
def GX_COLOR0A0 : U32 := 4
def GX_COLOR1A1 : U32 := 5

/-- A colour in a word. -/
def packColor (alpha : U32) (color : GXColor) : U32 :=
  setField (setField (setField (setField 0 8 0 alpha) 8 8 (color.b.setWidth 32)) 8 16 (color.g.setWidth 32)) 8 24
    (color.r.setWidth 32)

def writeColor (k : Kind) (base : Nat) (s : SetState) (colIdx : Nat) (reg : U32) : SetState :=
  ((s.writeXf (colIdx + base) reg).sentNot 1).put k colIdx reg

/-- The colour, the alpha or both of a channel, in a shadow and in the transform unit. -/
def setChanColor (k : Kind) (base : Nat) (s : SetState) (chan : U32) (color : GXColor) : SetState :=
  if chan = GX_COLOR0 then writeColor k base s 0 (packColor (s.get k 0 &&& 0xFF) color)
  else if chan = GX_COLOR1 then writeColor k base s 1 (packColor (s.get k 1 &&& 0xFF) color)
  else if chan = GX_ALPHA0 then writeColor k base s 0 (setField (s.get k 0) 8 0 (color.a.setWidth 32))
  else if chan = GX_ALPHA1 then writeColor k base s 1 (setField (s.get k 1) 8 0 (color.a.setWidth 32))
  else if chan = GX_COLOR0A0 then writeColor k base s 0 (packColor (color.a.setWidth 32) color)
  else if chan = GX_COLOR1A1 then writeColor k base s 1 (packColor (color.a.setWidth 32) color)
  else s

def GXSetChanAmbColor (s : SetState) (chan : U32) (color : GXColor) : SetState := setChanColor .ambColor 10 s chan color

def GXSetChanMatColor (s : SetState) (chan : U32) (color : GXColor) : SetState := setChanColor .matColor 12 s chan color

/-- A light of a mask. -/
def lightOn (lightMask : U32) (i : Nat) : U32 := if lightMask &&& ((1 : U32) <<< i) ≠ 0 then 1 else 0

def chanCtrlReg (enable : U8) (ambSrc matSrc lightMask diffFn attnFn : U32) : U32 :=
  let reg := setField 0 1 1 (if enable ≠ 0 then 1 else 0)
  let reg := setField reg 1 0 (if matSrc ≠ 0 then 1 else 0)
  let reg := setField reg 1 6 (if ambSrc ≠ 0 then 1 else 0)
  let reg := setField reg 1 2 (lightOn lightMask 0)
  let reg := setField reg 1 3 (lightOn lightMask 1)
  let reg := setField reg 1 4 (lightOn lightMask 2)
  let reg := setField reg 1 5 (lightOn lightMask 3)
  let reg := setField reg 1 11 (lightOn lightMask 4)
  let reg := setField reg 1 12 (lightOn lightMask 5)
  let reg := setField reg 1 13 (lightOn lightMask 6)
  let reg := setField reg 1 14 (lightOn lightMask 7)
  let reg := setField reg 2 7 (if attnFn = 0 then 0 else diffFn &&& 3)
  let reg := setField reg 1 9 (if attnFn ≠ 2 then 1 else 0)
  setField reg 1 10 (if attnFn ≠ 0 then 1 else 0)

/-- Both halves of a channel have a register each. -/
def GXSetChanCtrl (s : SetState) (chan : U32) (enable : U8) (ambSrc matSrc lightMask diffFn attnFn : U32) : SetState :=
  let idx := if chan = GX_COLOR0A0 then 0 else if chan = GX_COLOR1A1 then 1 else chan
  let reg := chanCtrlReg enable ambSrc matSrc lightMask diffFn attnFn
  let s := (s.writeXf (idx + 14).toNat reg).sentNot 1
  if chan = GX_COLOR0A0 then s.writeXf 16 reg else if chan = GX_COLOR1A1 then s.writeXf 17 reg else s

end SdkPort.GX
