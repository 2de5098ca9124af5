import Mathlib.Tactic.FinCases
import SdkPort.GX.PackedFields
import SdkPort.GX.TexSize

/-!
# Texture objects

`GX.c`: objects and cache regions are packed words in the memory of the program. Loading an object
into one of eight units marks its words and those of a region with the numbers of the unit's registers
and sends them.
-/
namespace SdkPort.GX

open Function (update)

inductive TexWord where
  | mode0 | mode1 | image0 | image3
  deriving DecidableEq

instance : Fintype TexWord where
  elems := {.mode0, .mode1, .image0, .image3}
  complete x := by cases x <;> decide

inductive RegionWord where
  | image1 | image2
  deriving DecidableEq

instance : Fintype RegionWord where
  elems := {.image1, .image2}
  complete x := by cases x <;> decide

/-- The words of a unit: those of an object and those of a region. -/
inductive UnitWord where
  | tex (w : TexWord)
  | region (w : RegionWord)
  deriving DecidableEq

instance : Fintype UnitWord where
  elems := {.tex .mode0, .tex .mode1, .tex .image0, .tex .image3, .region .image1, .region .image2}
  complete x := by cases x with
    | tex w => cases w <;> decide
    | region w => cases w <;> decide

/-- `GXTexObj`. -/
structure TexObj where
  word : TexWord → U32
  fmt : U32
  tlutName : U32
  loadCnt : U16
  loadFmt : U8
  flags : U8

/-- `GXTexRegion`. -/
structure TexRegion where
  word : RegionWord → U32
  is32bMipmap : U8
  isCached : U8

/-- `GXTlutObj`. -/
structure TlutObj where
  tlut : U32
  loadTlut0 : U32
  numEntries : U16

/-- `GXTlutRegion`. -/
structure TlutRegion where
  loadTlut1 : U32
  tlutObj : TlutObj

/-- The objects and regions by number, the first eight texture regions and the first twenty of the
palettes being those of the module; the words of the last loads, and all that were sent. -/
structure TexState where
  objs : Nat → TexObj
  regions : Nat → TexRegion
  tlutObjs : Nat → TlutObj
  tlutRegions : Nat → TlutRegion
  nextTexRgn : U32
  bpMask : U32
  texLoadLast : UnitWord → U32
  tlutLoad0Last : U32
  tlutLoad1Last : U32
  sent : List U32

namespace TexObj

def set (t : TexObj) (w : TexWord) (size shift : Nat) (v : U32) : TexObj :=
  { t with word := update t.word w (setField (t.word w) size shift v) }

end TexObj

namespace TexRegion

def set (r : TexRegion) (w : RegionWord) (size shift : Nat) (v : U32) : TexRegion :=
  { r with word := update r.word w (setField (r.word w) size shift v) }

end TexRegion

namespace TexState

/-- `gx_write_ras_reg`; the source keeps the last word only. -/
def send (s : TexState) (v : U32) : TexState := { s with sent := s.sent ++ [v] }

def setObj (s : TexState) (obj : Nat) (t : TexObj) : TexState := { s with objs := update s.objs obj t }

def setRegion (s : TexState) (region : Nat) (r : TexRegion) : TexState :=
  { s with regions := update s.regions region r }

end TexState

def gcGxTexMode0Ids : List U32 := [0x80, 0x81, 0x82, 0x83, 0xA0, 0xA1, 0xA2, 0xA3]
def gcGxTexMode1Ids : List U32 := [0x84, 0x85, 0x86, 0x87, 0xA4, 0xA5, 0xA6, 0xA7]
def gcGxTexImage0Ids : List U32 := [0x88, 0x89, 0x8A, 0x8B, 0xA8, 0xA9, 0xAA, 0xAB]
def gcGxTexImage1Ids : List U32 := [0x8C, 0x8D, 0x8E, 0x8F, 0xAC, 0xAD, 0xAE, 0xAF]
def gcGxTexImage2Ids : List U32 := [0x90, 0x91, 0x92, 0x93, 0xB0, 0xB1, 0xB2, 0xB3]
def gcGxTexImage3Ids : List U32 := [0x94, 0x95, 0x96, 0x97, 0xB4, 0xB5, 0xB6, 0xB7]

def gcGxTlutSizeTable : List U32 := [1, 2, 4, 8, 16, 32, 64, 128, 256, 512]

def GX_TEXCACHE_32K : U32 := 0
def GX_TEXCACHE_128K : U32 := 1
def GX_TEXCACHE_512K : U32 := 2

def gxSomeSetRegMacro (reg val : U32) : U32 := (reg &&& 0xF8FFFFFF) ||| val

/-- How an object of a format is loaded, and the logarithms of the sides of its tiles. -/
def loadFormat (format : U32) : U8 × Nat × Nat :=
  match (format &&& 0xF).toNat with
  | 0 | 8 => (1, 3, 3)
  | 1 | 2 | 9 => (2, 3, 2)
  | 3 | 4 | 5 | 10 => (2, 2, 2)
  | 6 => (3, 2, 2)
  | 14 => (0, 3, 3)
  | _ => (2, 2, 2)

/-- The object that is set up, whatever was there. -/
def initTexObj (imagePtr : U32) (width height : U16) (format wrapS wrapT : U32) (mipmap : U8) : TexObj :=
  let t : TexObj := ⟨fun _ => 0, 0, 0, 0, 0, 0⟩
  let t := t.set .mode0 2 0 wrapS
  let t := t.set .mode0 2 2 wrapT
  let t := t.set .mode0 1 4 1
  let t :=
    if mipmap ≠ 0 then
      { t with flags := t.flags ||| 1, word := update t.word .mode0 (gxSomeSetRegMacro (t.word .mode0) 0xC0) }
    else { t with word := update t.word .mode0 (gxSomeSetRegMacro (t.word .mode0) 0x80) }
  let t := { t with fmt := format }
  let t := t.set .image0 10 0 (width.setWidth 32 - 1)
  let t := t.set .image0 10 10 (height.setWidth 32 - 1)
  let t := t.set .image0 4 20 (format &&& 0xF)
  let t := t.set .image3 21 0 ((imagePtr >>> 5) &&& 0x01FFFFFF)
  let (loadFmt, rowT, colT) := loadFormat format
  let rowC := (width.setWidth 32 + (1 <<< rowT) - 1) >>> rowT
  let colC := (height.setWidth 32 + (1 <<< colT) - 1) >>> colT
  { t with loadFmt := loadFmt, loadCnt := ((rowC * colC) &&& 0x7FFF).setWidth 16, flags := t.flags ||| 2 }

def GXInitTexObj (s : TexState) (obj : Nat) (imagePtr : U32) (width height : U16) (format wrapS wrapT : U32)
    (mipmap : U8) : TexState :=
  s.setObj obj (initTexObj imagePtr width height format wrapS wrapT mipmap)

def GXInitTexObjCI (s : TexState) (obj : Nat) (imagePtr : U32) (width height : U16) (format wrapS wrapT : U32)
    (mipmap : U8) (tlutName : U32) : TexState :=
  let t := initTexObj imagePtr width height format wrapS wrapT mipmap
  s.setObj obj { t with flags := t.flags &&& ~~~2, tlutName := tlutName }

def GX2HWFiltConv : List U32 := [0x00, 0x04, 0x01, 0x05, 0x02, 0x06]

/-- The levels of detail are given as the bytes into which the source converts them. -/
def GXInitTexObjLOD (s : TexState) (obj : Nat) (minFilt magFilt : U32) (lmin lmax lbias : U8)
    (biasClamp doEdgeLod : U8) (maxAniso : U32) : TexState :=
  let t := s.objs obj
  let t := t.set .mode0 8 9 (lbias.setWidth 32)
  let t := t.set .mode0 1 4 (if magFilt = 1 then 1 else 0)
  let minFilt := if 5 < minFilt then 0 else minFilt
  let t := t.set .mode0 3 5 (GX2HWFiltConv.getD minFilt.toNat 0)
  let t := t.set .mode0 1 8 (if doEdgeLod ≠ 0 then 0 else 1)
  let t := t.set .mode0 1 17 0
  let t := t.set .mode0 1 18 0
  let t := t.set .mode0 2 19 (maxAniso &&& 3)
  let t := t.set .mode0 1 21 (if biasClamp ≠ 0 then 1 else 0)
  let t := t.set .mode1 8 0 (lmin.setWidth 32)
  let t := t.set .mode1 8 8 (lmax.setWidth 32)
  s.setObj obj t

/-- The exponent for the width of a cache. -/
def widthExp2 (size other : U32) : U32 :=
  if size = GX_TEXCACHE_32K then 3 else if size = GX_TEXCACHE_128K then 4
  else if size = GX_TEXCACHE_512K then 5 else other

/-- An odd cache may be missing. -/
def GXInitTexCacheRegion (s : TexState) (region : Nat) (is32bMipmap : U8) (tmemEven sizeEven tmemOdd sizeOdd : U32) :
    TexState :=
  let even := widthExp2 sizeEven 3
  let odd := widthExp2 sizeOdd 0
  let r : TexRegion := { s.regions region with word := fun _ => 0 }
  let r := r.set .image1 15 0 (tmemEven >>> 5)
  let r := r.set .image1 3 15 even
  let r := r.set .image1 3 18 even
  let r := r.set .image1 1 21 0
  let r := r.set .image2 15 0 (tmemOdd >>> 5)
  let r := r.set .image2 3 15 odd
  let r := r.set .image2 3 18 odd
  s.setRegion region { r with is32bMipmap := is32bMipmap, isCached := 1 }

/-- The register of a unit that takes a word. -/
def unitReg (id : Nat) : UnitWord → U32
  | .tex .mode0 => gcGxTexMode0Ids.getD id 0
  | .tex .mode1 => gcGxTexMode1Ids.getD id 0
  | .tex .image0 => gcGxTexImage0Ids.getD id 0
  | .tex .image3 => gcGxTexImage3Ids.getD id 0
  | .region .image1 => gcGxTexImage1Ids.getD id 0
  | .region .image2 => gcGxTexImage2Ids.getD id 0

def GXLoadTexObjPreLoaded (s : TexState) (obj region : Nat) (id : U32) : TexState :=
  if 8 ≤ id then s
  else
    let t : TexObj := { s.objs obj with
      word := fun w => setField ((s.objs obj).word w) 8 24 (unitReg id.toNat (.tex w)) }
    let r : TexRegion := { s.regions region with
      word := fun w => setField ((s.regions region).word w) 8 24 (unitReg id.toNat (.region w)) }
    let s := { (s.setObj obj t).setRegion region r with texLoadLast := fun | .tex w => t.word w | .region w => r.word w }
    (((((s.send (t.word .mode0)).send (t.word .mode1)).send (t.word .image0)).send (r.word .image1)).send
      (r.word .image2)).send (t.word .image3)

/-- `gc__gx_default_tex_region_cb`: the eight regions in turn, but one for colour-indexed textures. -/
def defaultTexRegion (s : TexState) (obj : Nat) : Nat × TexState :=
  let fmt := (s.objs obj).fmt
  if fmt ≠ 8 ∧ fmt ≠ 9 ∧ fmt ≠ 10 then ((s.nextTexRgn &&& 7).toNat, { s with nextTexRgn := s.nextTexRgn + 1 })
  else (0, s)

def GXLoadTexObj (s : TexState) (obj : Nat) (id : U32) : TexState :=
  let (r, s) := defaultTexRegion s obj
  GXLoadTexObjPreLoaded s obj r id

def GXInitTlutRegion (s : TexState) (region : Nat) (tmemAddr : U32) (tlutSz : U8) : TexState :=
  let tlutSz := if 9 < tlutSz then 9 else tlutSz
  let v := setField 0 10 0 (tmemAddr >>> 9)
  let v := setField v 11 10 (gcGxTlutSizeTable.getD tlutSz.toNat 0)
  let v := setField v 8 24 0x65
  { s with tlutRegions := update s.tlutRegions region { s.tlutRegions region with loadTlut1 := v } }

def GXInitTlutObj (s : TexState) (obj : Nat) (lut fmt : U32) (nEntries : U16) : TexState :=
  let v := setField (setField 0 21 0 ((lut &&& 0x3FFFFFFF) >>> 5)) 8 24 0x64
  { s with tlutObjs := update s.tlutObjs obj ⟨setField 0 2 10 fmt, v, nEntries⟩ }

/-- `gc__gx_default_tlut_region_cb`. -/
def defaultTlutRegion (tlutName : U32) : Nat := if 20 ≤ tlutName then 0 else tlutName.toNat

def GXLoadTlut (s : TexState) (obj : Nat) (tlutName : U32) : TexState :=
  let t := s.tlutObjs obj
  let region := defaultTlutRegion tlutName
  let r := s.tlutRegions region
  let s := (((s.send s.bpMask).send t.loadTlut0).send r.loadTlut1).send s.bpMask
  let t := { t with tlut := setField t.tlut 10 0 (r.loadTlut1 &&& 0x3FF) }
  { s with tlutLoad0Last := t.loadTlut0, tlutLoad1Last := r.loadTlut1, tlutObjs := update s.tlutObjs obj t
           tlutRegions := update s.tlutRegions region { r with tlutObj := t } }

inductive TexCall where
  | GXInitTexObj (obj : Nat) (imagePtr : U32) (width height : U16) (format wrapS wrapT : U32) (mipmap : U8)
  | GXInitTexObjCI (obj : Nat) (imagePtr : U32) (width height : U16) (format wrapS wrapT : U32) (mipmap : U8)
      (tlutName : U32)
  | GXInitTexObjLOD (obj : Nat) (minFilt magFilt : U32) (lmin lmax lbias biasClamp doEdgeLod : U8) (maxAniso : U32)
  | GXInitTexCacheRegion (region : Nat) (is32bMipmap : U8) (tmemEven sizeEven tmemOdd sizeOdd : U32)
  | GXLoadTexObjPreLoaded (obj region : Nat) (id : U32)
  | GXLoadTexObj (obj : Nat) (id : U32)
  | GXInitTlutRegion (region : Nat) (tmemAddr : U32) (tlutSz : U8)
  | GXInitTlutObj (obj : Nat) (lut fmt : U32) (nEntries : U16)
  | GXLoadTlut (obj : Nat) (tlutName : U32)

def execTex (s : TexState) : TexCall → TexState
  | .GXInitTexObj obj imagePtr width height format wrapS wrapT mipmap =>
    GXInitTexObj s obj imagePtr width height format wrapS wrapT mipmap
  | .GXInitTexObjCI obj imagePtr width height format wrapS wrapT mipmap tlutName =>
    GXInitTexObjCI s obj imagePtr width height format wrapS wrapT mipmap tlutName
  | .GXInitTexObjLOD obj minFilt magFilt lmin lmax lbias biasClamp doEdgeLod maxAniso =>
    GXInitTexObjLOD s obj minFilt magFilt lmin lmax lbias biasClamp doEdgeLod maxAniso
  | .GXInitTexCacheRegion region is32bMipmap tmemEven sizeEven tmemOdd sizeOdd =>
    GXInitTexCacheRegion s region is32bMipmap tmemEven sizeEven tmemOdd sizeOdd
  | .GXLoadTexObjPreLoaded obj region id => GXLoadTexObjPreLoaded s obj region id
  | .GXLoadTexObj obj id => GXLoadTexObj s obj id
  | .GXInitTlutRegion region tmemAddr tlutSz => GXInitTlutRegion s region tmemAddr tlutSz
  | .GXInitTlutObj obj lut fmt nEntries => GXInitTlutObj s obj lut fmt nEntries
  | .GXLoadTlut obj tlutName => GXLoadTlut s obj tlutName

end SdkPort.GX
