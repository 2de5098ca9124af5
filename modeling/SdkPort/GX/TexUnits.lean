import SdkPort.GX.Texture

/-!
# Texture units

The words sent are taken by registers, by the numbers in their first bytes. Each unit has loaded what
object and region held at the time of its last load; what is done to them afterwards, to other units or
to palettes does not reach it.
-/
namespace SdkPort.GX

open BitFields (Place Layout ones storeAll storeAll_cons storeAll_nil lastValue getLsbD_put getLsbD_get getLsbD_ones)
open BitFields.Layout (read_write)
open Function (update update_self update_of_ne update_idem)

/-! ### What a program sees -/

inductive TexField where
  | wrapS | wrapT | magFilt | minFilt | edgeLod | lodBias | bit17 | bit18 | maxAniso | biasClamp
  | minLod | maxLod | width | height | format | imageBase
  deriving DecidableEq

instance : Fintype TexField where
  elems := {.wrapS, .wrapT, .magFilt, .minFilt, .edgeLod, .lodBias, .bit17, .bit18, .maxAniso, .biasClamp,
    .minLod, .maxLod, .width, .height, .format, .imageBase}
  complete x := by cases x <;> decide

inductive RegionField where
  | tmemEven | widthEven | heightEven | kind | tmemOdd | widthOdd | heightOdd
  deriving DecidableEq

instance : Fintype RegionField where
  elems := {.tmemEven, .widthEven, .heightEven, .kind, .tmemOdd, .widthOdd, .heightOdd}
  complete x := by cases x <;> decide

def texPlace : TexField → Place TexWord
  | .wrapS => ⟨.mode0, 2, 0⟩
  | .wrapT => ⟨.mode0, 2, 2⟩
  | .magFilt => ⟨.mode0, 1, 4⟩
  | .minFilt => ⟨.mode0, 3, 5⟩
  | .edgeLod => ⟨.mode0, 1, 8⟩
  | .lodBias => ⟨.mode0, 8, 9⟩
  | .bit17 => ⟨.mode0, 1, 17⟩
  | .bit18 => ⟨.mode0, 1, 18⟩
  | .maxAniso => ⟨.mode0, 2, 19⟩
  | .biasClamp => ⟨.mode0, 1, 21⟩
  | .minLod => ⟨.mode1, 8, 0⟩
  | .maxLod => ⟨.mode1, 8, 8⟩
  | .width => ⟨.image0, 10, 0⟩
  | .height => ⟨.image0, 10, 10⟩
  | .format => ⟨.image0, 4, 20⟩
  | .imageBase => ⟨.image3, 21, 0⟩

def regionPlace : RegionField → Place RegionWord
  | .tmemEven => ⟨.image1, 15, 0⟩
  | .widthEven => ⟨.image1, 3, 15⟩
  | .heightEven => ⟨.image1, 3, 18⟩
  | .kind => ⟨.image1, 1, 21⟩
  | .tmemOdd => ⟨.image2, 15, 0⟩
  | .widthOdd => ⟨.image2, 3, 15⟩
  | .heightOdd => ⟨.image2, 3, 18⟩

/-- A texture, field by field. -/
abbrev Texture := TexField → U32

abbrev Region := RegionField → U32

/-- Textures and regions by number, and what the units have loaded. -/
structure TexView where
  textures : Nat → Texture
  fmts : Nat → U32
  regions : Nat → Region
  next : U32
  units : U32 → Option (Texture × Region)

/-- A texture as it is set up: filtered, with the mode between mipmaps if there are any. -/
def Texture.init (imagePtr : U32) (width height : U16) (format wrapS wrapT : U32) (mipmap : U8) : Texture
  | .wrapS => wrapS
  | .wrapT => wrapT
  | .magFilt => 1
  | .minFilt => if mipmap ≠ 0 then 6 else 4
  | .width => width.setWidth 32 - 1
  | .height => height.setWidth 32 - 1
  | .format => format
  | .imageBase => imagePtr >>> 5
  | _ => 0

def Texture.lod (t : Texture) (minFilt magFilt : U32) (lmin lmax lbias biasClamp doEdgeLod : U8) (maxAniso : U32) :
    Texture
  | .lodBias => lbias.setWidth 32
  | .magFilt => if magFilt = 1 then 1 else 0
  | .minFilt => GX2HWFiltConv.getD minFilt.toNat 0
  | .edgeLod => if doEdgeLod ≠ 0 then 0 else 1
  | .bit17 => 0
  | .bit18 => 0
  | .maxAniso => maxAniso
  | .biasClamp => if biasClamp ≠ 0 then 1 else 0
  | .minLod => lmin.setWidth 32
  | .maxLod => lmax.setWidth 32
  | f => t f

def Region.init (tmemEven sizeEven tmemOdd sizeOdd : U32) : Region
  | .tmemEven => tmemEven >>> 5
  | .widthEven => widthExp2 sizeEven 3
  | .heightEven => widthExp2 sizeEven 3
  | .kind => 0
  | .tmemOdd => tmemOdd >>> 5
  | .widthOdd => widthExp2 sizeOdd 0
  | .heightOdd => widthExp2 sizeOdd 0

namespace TexView

def load (a : TexView) (obj region : Nat) (id : U32) : TexView :=
  if 8 ≤ id then a else { a with units := update a.units id (some (a.textures obj, a.regions region)) }

def init (a : TexView) (obj : Nat) (t : Texture) (fmt : U32) : TexView :=
  { a with textures := update a.textures obj t, fmts := update a.fmts obj fmt }

/-- Colour-indexed textures share a region; others take the regions in turn, also for a unit that
there is not. -/
def call (a : TexView) : TexCall → TexView
  | .GXInitTexObj obj imagePtr width height format wrapS wrapT mipmap =>
    a.init obj (Texture.init imagePtr width height format wrapS wrapT mipmap) format
  | .GXInitTexObjCI obj imagePtr width height format wrapS wrapT mipmap _ =>
    a.init obj (Texture.init imagePtr width height format wrapS wrapT mipmap) format
  | .GXInitTexObjLOD obj minFilt magFilt lmin lmax lbias biasClamp doEdgeLod maxAniso =>
    let t := (a.textures obj).lod minFilt magFilt lmin lmax lbias biasClamp doEdgeLod maxAniso
    { a with textures := update a.textures obj t }
  | .GXInitTexCacheRegion region _ tmemEven sizeEven tmemOdd sizeOdd =>
    { a with regions := update a.regions region (Region.init tmemEven sizeEven tmemOdd sizeOdd) }
  | .GXLoadTexObjPreLoaded obj region id => a.load obj region id
  | .GXLoadTexObj obj id =>
    if a.fmts obj = 8 ∨ a.fmts obj = 9 ∨ a.fmts obj = 10 then a.load obj 0 id
    else { a with next := a.next + 1 }.load obj (a.next &&& 7).toNat id
  | _ => a

end TexView

/-! ### What the processor has -/

/-- The register a word is for. -/
def regOf (v : U32) : U32 := v >>> 24

/-- Each register has the rest of the word that it took last. -/
def registers (sent : List U32) : U32 → U32 :=
  sent.foldl (fun m v => update m (regOf v) (v &&& 0xFFFFFF)) fun _ => 0

/-- The words of a unit. -/
def TexState.unit (s : TexState) (id : U32) (w : UnitWord) : U32 :=
  registers s.sent (unitReg id.toNat w)

/-- Words agree with the fields. -/
def Holds {ω α : Type} (place : α → Place ω) (m : ω → U32) (a : α → U32) : Prop :=
  ∀ f, (place f).read m = a f &&& ones 32 (place f).size

/-- Objects, regions and units hold what the program sees. The words of palettes are for their own
registers. -/
structure Sees (s : TexState) (a : TexView) : Prop where
  textures : ∀ obj, Holds texPlace (s.objs obj).word (a.textures obj)
  fmts : ∀ obj, (s.objs obj).fmt = a.fmts obj
  regions : ∀ region, Holds regionPlace (s.regions region).word (a.regions region)
  next : s.nextTexRgn = a.next
  units : ∀ id < 8, ∀ x ∈ a.units id,
    Holds texPlace (fun w => s.unit id (.tex w)) x.1 ∧ Holds regionPlace (fun w => s.unit id (.region w)) x.2
  mask : regOf s.bpMask < 0x80
  tlut0 : ∀ obj, regOf (s.tlutObjs obj).loadTlut0 < 0x80
  tlut1 : ∀ region, regOf (s.tlutRegions region).loadTlut1 < 0x80

variable {s : TexState} {a : TexView} {v x id id' : U32} {w w' : UnitWord} {sent : List U32}

theorem texPlace_layout : Layout 32 texPlace := ⟨by decide +kernel, by decide +kernel⟩

theorem regionPlace_layout : Layout 32 regionPlace := ⟨by decide +kernel, by decide +kernel⟩

section Words

variable {ω α : Type} [DecidableEq ω] [DecidableEq α] {place : α → Place ω} {m m' : ω → U32} {b c : α → U32}

omit [DecidableEq ω] [DecidableEq α] in
theorem Holds.congr (h : Holds place m b)
    (hbc : ∀ f, b f &&& ones 32 (place f).size = c f &&& ones 32 (place f).size) : Holds place m c :=
  fun f => (h f).trans (hbc f)

omit [DecidableEq α] in
theorem write_eq {r : ω} {size shift : Nat} {v : U32} :
    Place.write m ⟨r, size, shift⟩ v = update m r (setField (m r) size shift v) := rfl

/-- Stores change the fields that are stored. -/
theorem Holds.storeAll (hl : Layout 32 place) (h : Holds place m b) (l : List (α × U32)) :
    Holds place (storeAll place m l) fun f => (lastValue l f).getD (b f) := by
  intro f
  rw [hl.read_storeAll]
  dsimp only
  cases lastValue l f with
  | none => exact h f
  | some v => rfl

omit [DecidableEq ω] [DecidableEq α] in
theorem holds_zero (place : α → Place ω) : Holds place (fun _ => 0) fun _ => 0 := by
  intro f
  simp [Place.read, BitFields.get]

/-- The number of a register does not reach the fields below it. -/
theorem getLsbD_mark (x v : U32) {i : Nat} (hi : i < 24) : (setField x 8 24 v).getLsbD i = x.getLsbD i := by
  have hput : setField x 8 24 v = BitFields.put x 8 24 v := rfl
  rw [hput, getLsbD_put (by omega), if_neg (by omega)]

theorem getLsbD_low (x : U32) {i : Nat} (hi : i < 24) : (x &&& 0xFFFFFF).getLsbD i = x.getLsbD i := by
  have hones : (0xFFFFFF : U32) = ones 32 24 := rfl
  rw [hones, BitVec.getLsbD_and, getLsbD_ones (by omega), decide_eq_true hi, Bool.and_true]

omit [DecidableEq ω] [DecidableEq α] in
/-- What agrees below the numbers holds the same. -/
theorem Holds.low (h : Holds place m b) (hp : ∀ f, (place f).shift + (place f).size ≤ 24)
    (hm : ∀ w, ∀ i < 24, (m' w).getLsbD i = (m w).getLsbD i) : Holds place m' b := by
  intro f
  rw [← h f]
  apply Place.read_congr
  rintro i ⟨_, _, hi⟩
  have hf := hp f
  exact hm _ i (by omega)

end Words

theorem texPlace_low (f : TexField) : (texPlace f).shift + (texPlace f).size ≤ 24 := by
  cases f <;> decide

theorem regionPlace_low (f : RegionField) : (regionPlace f).shift + (regionPlace f).size ≤ 24 := by
  cases f <;> decide

/-! ### Setting up -/

/-- Where the low five bits are all there are, the filter is stored as a field. -/
theorem gxSomeSetRegMacro_eq {reg : U32} (h : reg &&& ones 32 5 = reg) {k : U32} (hk : k = 4 ∨ k = 6) :
    gxSomeSetRegMacro reg (k <<< 5) = setField reg 3 5 k := by
  have hmask : reg &&& 0xF8FFFFFF = reg := by
    rw [← h, BitVec.and_assoc]
    rfl
  have hfield : reg &&& ~~~((1#32 <<< 3 - 1#32) <<< 5) = reg := by
    rw [← h, BitVec.and_assoc]
    rfl
  rw [gxSomeSetRegMacro, setField, hmask, hfield]
  cases hk with
  | inl hk => rw [hk]; rfl
  | inr hk => rw [hk]; rfl

/-- The wraps and the filter lie in the low five bits. -/
theorem wraps_low (wrapS wrapT : U32) :
    setField (setField (setField 0 2 0 wrapS) 2 2 wrapT) 1 4 1 &&& ones 32 5 =
      setField (setField (setField 0 2 0 wrapS) 2 2 wrapT) 1 4 1 := by
  have hput : ∀ reg size shift v, setField reg size shift v = BitFields.put reg size shift v := fun _ _ _ _ => rfl
  apply BitVec.eq_of_getLsbD_eq
  intro i hi
  rw [BitVec.getLsbD_and, getLsbD_ones hi]
  by_cases h5 : i < 5
  · rw [decide_eq_true h5, Bool.and_true]
  · rw [decide_eq_false h5, Bool.and_false, hput, getLsbD_put hi, if_neg (by omega), hput, getLsbD_put hi,
      if_neg (by omega), hput, getLsbD_put hi, if_neg (by omega)]
    exact BitVec.getLsbD_zero.symm

/-- The words of an object as stores into fields. -/
theorem initTexObj_word (imagePtr : U32) (width height : U16) (format wrapS wrapT : U32) (mipmap : U8) :
    (initTexObj imagePtr width height format wrapS wrapT mipmap).word = storeAll texPlace (fun _ => 0)
      [(.wrapS, wrapS), (.wrapT, wrapT), (.magFilt, 1), (.minFilt, if mipmap ≠ 0 then 6 else 4),
        (.width, width.setWidth 32 - 1), (.height, height.setWidth 32 - 1), (.format, format &&& 0xF),
        (.imageBase, (imagePtr >>> 5) &&& 0x01FFFFFF)] := by
  have hlow := wraps_low wrapS wrapT
  have hmip := gxSomeSetRegMacro_eq hlow (.inr rfl)
  have hflat := gxSomeSetRegMacro_eq hlow (.inl rfl)
  have hC0 : (6 : U32) <<< 5 = 0xC0 := rfl
  have h80 : (4 : U32) <<< 5 = 0x80 := rfl
  rw [hC0] at hmip
  rw [h80] at hflat
  simp only [storeAll_cons, storeAll_nil, texPlace, write_eq, update_self, update_idem]
  by_cases hm : mipmap ≠ 0
  · simp only [initTexObj, if_pos hm, TexObj.set, update_self, update_idem, hmip]
  · simp only [initTexObj, if_neg hm, TexObj.set, update_self, update_idem, hflat]

theorem initTexObj_holds (imagePtr : U32) (width height : U16) (format wrapS wrapT : U32) (mipmap : U8) :
    Holds texPlace (initTexObj imagePtr width height format wrapS wrapT mipmap).word
      (Texture.init imagePtr width height format wrapS wrapT mipmap) := by
  have hformat : ones 32 4 &&& ones 32 4 = ones 32 4 := rfl
  have hbase : (0x01FFFFFF : U32) &&& ones 32 21 = ones 32 21 := rfl
  rw [initTexObj_word]
  apply ((holds_zero texPlace).storeAll texPlace_layout _).congr
  intro f
  cases f with
  | format => exact (BitVec.and_assoc _ _ _).trans (congrArg _ hformat)
  | imageBase => exact (BitVec.and_assoc _ _ _).trans (congrArg _ hbase)
  | _ => rfl

theorem lod_holds {obj : Nat} {t : Texture} (h : Holds texPlace (s.objs obj).word t) (minFilt magFilt : U32)
    (lmin lmax lbias biasClamp doEdgeLod : U8) (maxAniso : U32) :
    Holds texPlace ((GXInitTexObjLOD s obj minFilt magFilt lmin lmax lbias biasClamp doEdgeLod maxAniso).objs obj).word
      (t.lod minFilt magFilt lmin lmax lbias biasClamp doEdgeLod maxAniso) := by
  have hword : ((GXInitTexObjLOD s obj minFilt magFilt lmin lmax lbias biasClamp doEdgeLod maxAniso).objs obj).word =
      storeAll texPlace (s.objs obj).word [(.lodBias, lbias.setWidth 32), (.magFilt, if magFilt = 1 then 1 else 0),
        (.minFilt, GX2HWFiltConv.getD (if 5 < minFilt then 0 else minFilt : U32).toNat 0),
        (.edgeLod, if doEdgeLod ≠ 0 then 0 else 1), (.bit17, 0), (.bit18, 0), (.maxAniso, maxAniso &&& 3),
        (.biasClamp, if biasClamp ≠ 0 then 1 else 0), (.minLod, lmin.setWidth 32), (.maxLod, lmax.setWidth 32)] := by
    simp only [storeAll_cons, storeAll_nil, texPlace, write_eq, GXInitTexObjLOD, TexState.setObj, TexObj.set, update_self]
  have haniso : (3 : U32) &&& ones 32 2 = ones 32 2 := rfl
  have hfilt : GX2HWFiltConv.getD (if 5 < minFilt then 0 else minFilt : U32).toNat 0 =
      GX2HWFiltConv.getD minFilt.toNat 0 := by
    split
    · rename_i h5
      have h5 : 5 < minFilt.toNat := BitVec.lt_def.mp h5
      have hlen : GX2HWFiltConv.length ≤ minFilt.toNat := h5
      rw [List.getD_eq_getElem?_getD, List.getD_eq_getElem?_getD, List.getElem?_eq_none hlen]
      rfl
    · rfl
  rw [hword, hfilt]
  apply (h.storeAll texPlace_layout _).congr
  intro f
  cases f with
  | maxAniso => exact (BitVec.and_assoc _ _ _).trans (congrArg _ haniso)
  | _ => rfl

theorem initRegion_holds (s : TexState) (region : Nat) (is32bMipmap : U8) (tmemEven sizeEven tmemOdd sizeOdd : U32) :
    Holds regionPlace ((GXInitTexCacheRegion s region is32bMipmap tmemEven sizeEven tmemOdd sizeOdd).regions region).word
      (Region.init tmemEven sizeEven tmemOdd sizeOdd) := by
  have hword : ((GXInitTexCacheRegion s region is32bMipmap tmemEven sizeEven tmemOdd sizeOdd).regions region).word =
      storeAll regionPlace (fun _ => 0) [(.tmemEven, tmemEven >>> 5), (.widthEven, widthExp2 sizeEven 3),
        (.heightEven, widthExp2 sizeEven 3), (.kind, 0), (.tmemOdd, tmemOdd >>> 5), (.widthOdd, widthExp2 sizeOdd 0),
        (.heightOdd, widthExp2 sizeOdd 0)] := by
    simp only [storeAll_cons, storeAll_nil, regionPlace, write_eq, GXInitTexCacheRegion, TexState.setRegion,
      TexRegion.set, update_self]
  rw [hword]
  apply ((holds_zero regionPlace).storeAll regionPlace_layout _).congr
  intro f
  cases f <;> rfl

/-! ### Sending -/

theorem registers_append (sent : List U32) (v : U32) :
    registers (sent ++ [v]) = update (registers sent) (regOf v) (v &&& 0xFFFFFF) := List.foldl_append

/-- Registers of units have numbers of their own. -/
theorem unitReg_injective : ∀ i < 8, ∀ j < 8, ∀ w w', unitReg i w = unitReg j w' → i = j ∧ w = w' := by
  decide +kernel

theorem unitReg_high : ∀ i < 8, ∀ w, 0x80 ≤ unitReg i w ∧ unitReg i w < 0x100 := by
  decide +kernel

theorem regOf_mark (x v : U32) (hv : v < 0x100) : regOf (setField x 8 24 v) = v := by
  have hput : setField x 8 24 v = BitFields.put x 8 24 v := rfl
  have hv : v.toNat < 2 ^ 8 := BitVec.lt_def.mp hv
  apply BitVec.eq_of_getLsbD_eq
  intro i hi
  rw [regOf, BitVec.getLsbD_ushiftRight, hput]
  by_cases h8 : i < 8
  · rw [getLsbD_put (by omega), if_pos (by omega), Nat.add_sub_cancel_left]
  · rw [BitVec.getLsbD_of_ge _ _ (by omega), BitVec.getLsbD, Nat.testBit_lt_two_pow]
    exact Nat.lt_of_lt_of_le hv (Nat.pow_le_pow_right (by decide) (by omega))

/-- A word for another register does not reach a unit. -/
theorem unit_send_low (hid : id < 8) (hv : regOf v < 0x80) (w : UnitWord) :
    (s.send v).unit id w = s.unit id w := by
  have hid : id.toNat < 8 := BitVec.lt_def.mp hid
  have hhigh := BitVec.le_def.mp (unitReg_high id.toNat hid w).1
  have hv := BitVec.lt_def.mp hv
  rw [TexState.unit, TexState.send, registers_append, update_of_ne]
  · rfl
  · intro he
    rw [he] at hhigh
    omega

/-- Words marked for a unit are its words, and no other's. -/
theorem registers_marked (hid : id < 8) (hid' : id' < 8) (word : UnitWord → U32)
    (l : List (UnitWord)) :
    registers (sent ++ l.map fun w => setField (word w) 8 24 (unitReg id.toNat w)) (unitReg id'.toNat w') =
      if id' = id ∧ w' ∈ l then word w' &&& 0xFFFFFF else registers sent (unitReg id'.toNat w') := by
  have hid := BitVec.lt_def.mp hid
  have hid' := BitVec.lt_def.mp hid'
  have hmark : ∀ x v : U32, setField x 8 24 v &&& 0xFFFFFF = x &&& 0xFFFFFF := by
    intro x v
    apply BitVec.eq_of_getLsbD_eq
    intro i hi
    by_cases h24 : i < 24
    · rw [getLsbD_low _ h24, getLsbD_low _ h24, getLsbD_mark _ _ h24]
    · have hones : (0xFFFFFF : U32) = ones 32 24 := rfl
      rw [hones, BitVec.getLsbD_and, BitVec.getLsbD_and, getLsbD_ones hi, decide_eq_false h24, Bool.and_false,
        Bool.and_false]
  induction l generalizing sent with
  | nil => simp
  | cons w l ih =>
    have hreg := regOf_mark (word w) _ (unitReg_high id.toNat hid w).2
    rw [List.map_cons, List.append_cons, ih, registers_append, hreg, hmark]
    by_cases hw : id' = id ∧ w' = w
    · obtain ⟨rfl, rfl⟩ := hw
      simp
    · have hne : unitReg id'.toNat w' ≠ unitReg id.toNat w := by
        intro he
        obtain ⟨hi, hw'⟩ := unitReg_injective id'.toNat hid' id.toNat hid w' w he
        exact hw ⟨BitVec.eq_of_toNat_eq hi, hw'⟩
      have hmem : (id' = id ∧ w' ∈ w :: l) ↔ id' = id ∧ w' ∈ l := by
        rw [List.mem_cons, and_or_left, or_iff_right hw]
      rw [update_of_ne hne, if_congr hmem rfl rfl]

/-! ### Calls -/

theorem sees_setObj (h : Sees s a) (obj : Nat) {t : TexObj} {T : Texture} (ht : Holds texPlace t.word T) :
    Sees (s.setObj obj t) (a.init obj T t.fmt) := by
  refine ⟨fun o => ?_, fun o => ?_, h.regions, h.next, h.units, h.mask, h.tlut0, h.tlut1⟩
  · by_cases ho : o = obj
    · subst ho
      simpa only [TexState.setObj, TexView.init, update_self] using ht
    · simpa only [TexState.setObj, TexView.init, update_of_ne ho] using h.textures o
  · by_cases ho : o = obj
    · subst ho
      simp only [TexState.setObj, TexView.init, update_self]
    · simpa only [TexState.setObj, TexView.init, update_of_ne ho] using h.fmts o

theorem sees_setRegion (h : Sees s a) (region : Nat) {r : TexRegion} {T : Region} (hr : Holds regionPlace r.word T) :
    Sees (s.setRegion region r) { a with regions := update a.regions region T } := by
  refine ⟨h.textures, h.fmts, fun o => ?_, h.next, h.units, h.mask, h.tlut0, h.tlut1⟩
  by_cases ho : o = region
  · subst ho
    simpa only [TexState.setRegion, update_self] using hr
  · simpa only [TexState.setRegion, update_of_ne ho] using h.regions o

theorem setObj_objs (s : TexState) (obj : Nat) (t : TexObj) : s.setObj obj ((s.setObj obj t).objs obj) = s.setObj obj t := by
  simp only [TexState.setObj, update_self]

theorem setRegion_regions (s : TexState) (region : Nat) (r : TexRegion) :
    s.setRegion region ((s.setRegion region r).regions region) = s.setRegion region r := by
  simp only [TexState.setRegion, update_self]

/-- The words of an object and of a region. -/
def TexState.words (s : TexState) (obj region : Nat) : UnitWord → U32
  | .tex w => (s.objs obj).word w
  | .region w => (s.regions region).word w

theorem load_unit (hid : id < 8) (hid' : id' < 8) (obj region : Nat) :
    (GXLoadTexObjPreLoaded s obj region id).unit id' w' =
      if id' = id then s.words obj region w' &&& 0xFFFFFF else s.unit id' w' := by
  have hsent : (GXLoadTexObjPreLoaded s obj region id).sent = s.sent ++
      ([.tex .mode0, .tex .mode1, .tex .image0, .region .image1, .region .image2, .tex .image3].map fun w =>
        setField (s.words obj region w) 8 24 (unitReg id.toNat w)) := by
    rw [GXLoadTexObjPreLoaded, if_neg (BitVec.not_le.mpr hid)]
    simp only [TexState.send, TexState.setObj, TexState.setRegion, List.append_assoc, List.map_cons, List.map_nil,
      List.cons_append, List.nil_append]
    rfl
  have hall : w' ∈ [UnitWord.tex .mode0, .tex .mode1, .tex .image0, .region .image1, .region .image2, .tex .image3] := by
    revert w'
    decide
  rw [TexState.unit, hsent, registers_marked hid hid']
  exact if_congr (and_iff_left hall) rfl rfl

theorem sees_load (h : Sees s a) (obj region : Nat) (id : U32) :
    Sees (GXLoadTexObjPreLoaded s obj region id) (a.load obj region id) := by
  by_cases hid : 8 ≤ id
  · rw [GXLoadTexObjPreLoaded, TexView.load, if_pos hid, if_pos hid]
    exact h
  have hlt : id < 8 := BitVec.not_le.mp hid
  rw [TexView.load, if_neg hid]
  refine ⟨fun o => ?_, fun o => ?_, fun o => ?_, ?_, fun id' hid' x hx => ?_, ?_, fun o => ?_, fun o => ?_⟩
  · apply (h.textures o).low texPlace_low
    intro w i hi
    rw [GXLoadTexObjPreLoaded, if_neg hid]
    by_cases ho : o = obj
    · subst ho
      simp only [TexState.send, TexState.setObj, TexState.setRegion, update_self]
      exact getLsbD_mark _ _ hi
    · simp only [TexState.send, TexState.setObj, TexState.setRegion, update_of_ne ho]
  · rw [GXLoadTexObjPreLoaded, if_neg hid]
    by_cases ho : o = obj
    · subst ho
      simpa only [TexState.send, TexState.setObj, TexState.setRegion, update_self] using h.fmts o
    · simpa only [TexState.send, TexState.setObj, TexState.setRegion, update_of_ne ho] using h.fmts o
  · apply (h.regions o).low regionPlace_low
    intro w i hi
    rw [GXLoadTexObjPreLoaded, if_neg hid]
    by_cases ho : o = region
    · subst ho
      simp only [TexState.send, TexState.setObj, TexState.setRegion, update_self]
      exact getLsbD_mark _ _ hi
    · simp only [TexState.send, TexState.setObj, TexState.setRegion, update_of_ne ho]
  · rw [GXLoadTexObjPreLoaded, if_neg hid]
    exact h.next
  · simp only [load_unit hlt hid']
    by_cases he : id' = id
    · have hx : some (a.textures obj, a.regions region) = some x := by
        rw [← hx, he]
        exact (update_self id _ a.units).symm
      cases hx
      simp only [if_pos he]
      exact ⟨(h.textures obj).low texPlace_low fun w i hi => getLsbD_low _ hi,
        (h.regions region).low regionPlace_low fun w i hi => getLsbD_low _ hi⟩
    · have hx : a.units id' = some x := by
        rw [← hx]
        exact (update_of_ne he _ a.units).symm
      simp only [if_neg he]
      exact h.units id' hid' x hx
  · rw [GXLoadTexObjPreLoaded, if_neg hid]
    exact h.mask
  · rw [GXLoadTexObjPreLoaded, if_neg hid]
    exact h.tlut0 o
  · rw [GXLoadTexObjPreLoaded, if_neg hid]
    exact h.tlut1 o

/-- Words for low registers leave the units. -/
theorem sees_send (h : Sees s a) (hv : regOf v < 0x80) : Sees (s.send v) a where
  textures := h.textures
  fmts := h.fmts
  regions := h.regions
  next := h.next
  units id hid x hx := by
    simp only [unit_send_low hid hv]
    exact h.units id hid x hx
  mask := h.mask
  tlut0 := h.tlut0
  tlut1 := h.tlut1

/-- The words of palettes are marked with the numbers of their own registers. -/
theorem sees_tlut (h : Sees s a) {tlutObjs : Nat → TlutObj} {tlutRegions : Nat → TlutRegion} (x y : U32)
    (h0 : ∀ obj, regOf (tlutObjs obj).loadTlut0 < 0x80) (h1 : ∀ region, regOf (tlutRegions region).loadTlut1 < 0x80) :
    Sees { s with tlutObjs := tlutObjs, tlutRegions := tlutRegions, tlutLoad0Last := x, tlutLoad1Last := y } a where
  textures := h.textures
  fmts := h.fmts
  regions := h.regions
  next := h.next
  units := h.units
  mask := h.mask
  tlut0 := h0
  tlut1 := h1

theorem sees_exec (h : Sees s a) (c : TexCall) : Sees (execTex s c) (a.call c) := by
  cases c with
  | GXInitTexObj obj imagePtr width height format wrapS wrapT mipmap =>
    exact sees_setObj h obj (initTexObj_holds imagePtr width height format wrapS wrapT mipmap)
  | GXInitTexObjCI obj imagePtr width height format wrapS wrapT mipmap tlutName =>
    have hi := initTexObj_holds imagePtr width height format wrapS wrapT mipmap
    exact sees_setObj h obj (t := { initTexObj imagePtr width height format wrapS wrapT mipmap with
      flags := (initTexObj imagePtr width height format wrapS wrapT mipmap).flags &&& ~~~2, tlutName := tlutName }) hi
  | GXInitTexObjLOD obj minFilt magFilt lmin lmax lbias biasClamp doEdgeLod maxAniso =>
    have hs := sees_setObj h obj (lod_holds (h.textures obj) minFilt magFilt lmin lmax lbias biasClamp doEdgeLod maxAniso)
    have hfmt : ((GXInitTexObjLOD s obj minFilt magFilt lmin lmax lbias biasClamp doEdgeLod maxAniso).objs obj).fmt =
        a.fmts obj := by
      rw [← h.fmts obj]
      simp only [GXInitTexObjLOD, TexState.setObj, update_self]
      rfl
    rw [hfmt, TexView.init, Function.update_eq_self, GXInitTexObjLOD, setObj_objs] at hs
    exact hs
  | GXInitTexCacheRegion region is32bMipmap tmemEven sizeEven tmemOdd sizeOdd =>
    have hs := sees_setRegion h region (initRegion_holds s region is32bMipmap tmemEven sizeEven tmemOdd sizeOdd)
    rw [GXInitTexCacheRegion, setRegion_regions] at hs
    exact hs
  | GXLoadTexObjPreLoaded obj region id => exact sees_load h obj region id
  | GXLoadTexObj obj id =>
    rw [execTex, GXLoadTexObj, defaultTexRegion, TexView.call, h.fmts obj, h.next]
    by_cases hci : a.fmts obj = 8 ∨ a.fmts obj = 9 ∨ a.fmts obj = 10
    · have hc : ¬ (a.fmts obj ≠ 8 ∧ a.fmts obj ≠ 9 ∧ a.fmts obj ≠ 10) := by
        tauto
      rw [if_pos hci, if_neg hc]
      exact sees_load h obj 0 id
    · have hc : a.fmts obj ≠ 8 ∧ a.fmts obj ≠ 9 ∧ a.fmts obj ≠ 10 := by
        tauto
      have hn : Sees { s with nextTexRgn := a.next + 1 } { a with next := a.next + 1 } :=
        ⟨h.textures, h.fmts, h.regions, rfl, h.units, h.mask, h.tlut0, h.tlut1⟩
      rw [if_neg hci, if_pos hc]
      exact sees_load hn obj (a.next &&& 7).toNat id
  | GXInitTlutRegion region tmemAddr tlutSz =>
    apply sees_tlut h s.tlutLoad0Last s.tlutLoad1Last h.tlut0
    intro o
    by_cases ho : o = region
    · subst ho
      rw [update_self, regOf_mark _ _ (by decide)]
      decide
    · rw [update_of_ne ho]
      exact h.tlut1 o
  | GXInitTlutObj obj lut fmt nEntries =>
    refine sees_tlut h s.tlutLoad0Last s.tlutLoad1Last (fun o => ?_) h.tlut1
    by_cases ho : o = obj
    · subst ho
      rw [update_self, regOf_mark _ _ (by decide)]
      decide
    · rw [update_of_ne ho]
      exact h.tlut0 o
  | GXLoadTlut obj tlutName =>
    have hs := sees_send (sees_send (sees_send (sees_send h h.mask) (h.tlut0 obj))
      (h.tlut1 (defaultTlutRegion tlutName))) h.mask
    refine sees_tlut hs _ _ (fun o => ?_) fun o => ?_
    · by_cases ho : o = obj
      · subst ho
        rw [update_self]
        exact h.tlut0 o
      · rw [update_of_ne ho]
        exact h.tlut0 o
    · by_cases ho : o = defaultTlutRegion tlutName
      · subst ho
        rw [update_self]
        exact h.tlut1 _
      · rw [update_of_ne ho]
        exact h.tlut1 o

/-- The textures and regions of a state, with nothing loaded. -/
def TexState.view (s : TexState) : TexView where
  textures obj f := (texPlace f).read (s.objs obj).word
  fmts obj := (s.objs obj).fmt
  regions region f := (regionPlace f).read (s.regions region).word
  next := s.nextTexRgn
  units _ := none

/-- After any calls the registers of each unit hold the texture and the region as they were when the
unit was loaded last. -/
theorem units_show_loads (s : TexState) (calls : List TexCall) (hmask : regOf s.bpMask < 0x80)
    (h0 : ∀ obj, regOf (s.tlutObjs obj).loadTlut0 < 0x80) (h1 : ∀ region, regOf (s.tlutRegions region).loadTlut1 < 0x80) :
    Sees (calls.foldl execTex s) (calls.foldl TexView.call s.view) := by
  have hread : ∀ (x : U32) (size : Nat) (shift : Nat), BitFields.get x size shift &&& ones 32 size =
      BitFields.get x size shift := by
    intro x size shift
    rw [BitFields.get, BitVec.and_assoc, BitVec.and_self]
  have hs : Sees s s.view :=
    ⟨fun obj f => (hread ..).symm, fun _ => rfl, fun region f => (hread ..).symm, rfl,
      fun _ _ x hx => (Option.not_mem_none x hx).elim, hmask, h0, h1⟩
  generalize s.view = a at hs
  induction calls generalizing s a with
  | nil => exact hs
  | cons c calls ih =>
    have hc := sees_exec hs c
    exact ih _ hc.mask hc.tlut0 hc.tlut1 _ hc

/-- Nothing set up yet. -/
def trialTex : TexState where
  objs _ := ⟨fun _ => 0, 0, 0, 0, 0, 0⟩
  regions _ := ⟨fun _ => 0, 0, 0⟩
  tlutObjs _ := ⟨0, 0, 0⟩
  tlutRegions _ := ⟨0, 0, 0, 0⟩
  nextTexRgn := 0
  bpMask := 0xFF
  texLoadLast _ := 0
  tlutLoad0Last := 0
  tlutLoad1Last := 0
  sent := []

def trialTexCalls : List TexCall :=
  [.GXInitTexCacheRegion 0 0 0x8000 0 0x80000 0, .GXInitTexObj 9 0x1234560 64 32 6 1 1 0, .GXLoadTexObj 9 3,
    .GXInitTexObj 9 0 8 8 8 0 0 0, .GXLoadTexObj 9 4, .GXInitTlutObj 1 0x2000 1 16, .GXLoadTlut 1 2]

/-- The third unit keeps its size when the object is set up again and loaded elsewhere. -/
theorem trialTex_units : BitFields.get ((trialTexCalls.foldl execTex trialTex).unit 3 (.tex .image0)) 10 0 = 63 := by
  have h0 : regOf 0 < 0x80 := by decide
  have hs := units_show_loads trialTex trialTexCalls (by decide) (fun _ => h0) fun _ => h0
  exact (hs.units 3 (by decide) _ rfl).1 .width

end SdkPort.GX
