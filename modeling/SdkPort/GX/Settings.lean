import SdkPort.GX.Setters

/-!
# Settings of the pipeline

What a program sets by stage, channel or coordinate lies side by side in shared words. Each setting is
the latest one given to it, whatever else has been set in the same word; and the transform unit has the
same matrix indices and colours as the shadows.
-/
namespace SdkPort.GX

open BitFields (Place Layout Stores ones storeAll storeAll_cons storeAll_nil latest getLsbD_put getLsbD_ones)
open Function (update update_self update_of_ne update_idem)

/-! ### Settings and where they lie -/

inductive Component where
  | r | g | b | a
  deriving DecidableEq

inductive Setting where
  | texGens | chans | tevStages | cullMode | indStages | coPlanar
  | lineWidth | pointSize | lineOffset | pointOffset
  | scissorTop | scissorLeft | scissorBottom | scissorRight
  | zCompLoc | posMtx
  | texMtx (coord : Fin 8) | texLine (coord : Fin 8) | texPoint (coord : Fin 8) | manualScale (coord : Fin 8)
  | scaleS (coord : Fin 8) | scaleT (coord : Fin 8)
  | tevCoordEnable (stage : Fin 16) | tevMap (stage : Fin 16) | tevCoord (stage : Fin 16) | tevColor (stage : Fin 16)
  | tevMapEnable (stage : Fin 16)
  | indMap (stage : Fin 4) | indCoord (stage : Fin 4) | indScaleS (stage : Fin 4) | indScaleT (stage : Fin 4)
  | indScaleId (pair : Fin 2)
  | ambColor (chan : Fin 2) (part : Component) | matColor (chan : Fin 2) (part : Component)
  deriving DecidableEq

def Component.shift : Component → Nat
  | .r => 24
  | .g => 16
  | .b => 8
  | .a => 0

def settingPlace : Setting → Place SetReg
  | .texGens => ⟨⟨.genMode, 0⟩, 4, 0⟩
  | .chans => ⟨⟨.genMode, 0⟩, 3, 4⟩
  | .tevStages => ⟨⟨.genMode, 0⟩, 4, 10⟩
  | .cullMode => ⟨⟨.genMode, 0⟩, 2, 14⟩
  | .indStages => ⟨⟨.genMode, 0⟩, 3, 16⟩
  | .coPlanar => ⟨⟨.genMode, 0⟩, 1, 19⟩
  | .lineWidth => ⟨⟨.lpSize, 0⟩, 8, 0⟩
  | .pointSize => ⟨⟨.lpSize, 0⟩, 8, 8⟩
  | .lineOffset => ⟨⟨.lpSize, 0⟩, 3, 16⟩
  | .pointOffset => ⟨⟨.lpSize, 0⟩, 3, 19⟩
  | .scissorTop => ⟨⟨.suScis0, 0⟩, 11, 0⟩
  | .scissorLeft => ⟨⟨.suScis0, 0⟩, 11, 12⟩
  | .scissorBottom => ⟨⟨.suScis1, 0⟩, 11, 0⟩
  | .scissorRight => ⟨⟨.suScis1, 0⟩, 11, 12⟩
  | .zCompLoc => ⟨⟨.peCtrl, 0⟩, 1, 6⟩
  | .posMtx => ⟨⟨.matIdxA, 0⟩, 6, 0⟩
  | .texMtx i => if i.val ≤ 3 then ⟨⟨.matIdxA, 0⟩, 6, 6 + i.val * 6⟩ else ⟨⟨.matIdxB, 0⟩, 6, (i.val - 4) * 6⟩
  | .texLine i => ⟨⟨.suTs0, i.val⟩, 1, 18⟩
  | .texPoint i => ⟨⟨.suTs0, i.val⟩, 1, 19⟩
  | .manualScale i => ⟨⟨.tcsManEnab, 0⟩, 1, i.val⟩
  | .scaleS i => ⟨⟨.suTs0, i.val⟩, 16, 0⟩
  | .scaleT i => ⟨⟨.suTs1, i.val⟩, 16, 0⟩
  | .tevCoordEnable i => ⟨⟨.tevTcEnab, 0⟩, 1, i.val⟩
  | .tevMap i => ⟨⟨.tref, i.val / 2⟩, 3, 12 * (i.val % 2)⟩
  | .tevCoord i => ⟨⟨.tref, i.val / 2⟩, 3, 12 * (i.val % 2) + 3⟩
  | .tevMapEnable i => ⟨⟨.tref, i.val / 2⟩, 1, 12 * (i.val % 2) + 6⟩
  | .tevColor i => ⟨⟨.tref, i.val / 2⟩, 3, 12 * (i.val % 2) + 7⟩
  | .indMap i => ⟨⟨.iref, 0⟩, 3, 6 * i.val⟩
  | .indCoord i => ⟨⟨.iref, 0⟩, 3, 6 * i.val + 3⟩
  | .indScaleS i => ⟨⟨.indTexScale, i.val / 2⟩, 4, 8 * (i.val % 2)⟩
  | .indScaleT i => ⟨⟨.indTexScale, i.val / 2⟩, 4, 8 * (i.val % 2) + 4⟩
  | .indScaleId i => ⟨⟨.indTexScale, i.val⟩, 8, 24⟩
  | .ambColor i c => ⟨⟨.ambColor, i.val⟩, 8, c.shift⟩
  | .matColor i c => ⟨⟨.matColor, i.val⟩, 8, c.shift⟩

/-! ### Calls and what they set -/

inductive SetCall where
  | GXSetScissor (left top wd ht : U32)
  | GXSetLineWidth (width : U8) (texOffsets : U32)
  | GXSetPointSize (pointSize : U8) (texOffsets : U32)
  | GXEnableTexOffsets (coord : U32) (lineEnable pointEnable : U8)
  | GXSetTexCoordScaleManually (coord : U32) (enable : U8) (ss ts : U16)
  | GXSetCullMode (mode : U32)
  | GXSetCoPlanar (enable : U32)
  | GXSetZCompLoc (beforeTex : U8)
  | GXPixModeSync
  | GXSetNumTexGens (nTexGens : U8)
  | GXSetNumChans (nChans : U8)
  | GXSetNumTevStages (nStages : U8)
  | GXSetNumIndStages (nIndStages : U8)
  | GXSetTevOrder (stage coord map color : U32)
  | GXSetIndTexOrder (indStage texCoord texMap : U32)
  | GXSetIndTexCoordScale (indStage scaleS scaleT : U32)
  | GXSetCurrentMtx (id : U32)
  | GXSetTexCoordGen2 (dstCoord : U8) (func srcParam mtx normalize postmtx : U32)
  | GXSetTexCoordGen (dstCoord : U8) (func srcParam mtx : U32)
  | GXSetChanAmbColor (chan : U32) (color : GXColor)
  | GXSetChanMatColor (chan : U32) (color : GXColor)
  | GXSetChanCtrl (chan : U32) (enable : U8) (ambSrc matSrc lightMask diffFn attnFn : U32)

/-- A call, which fails where it reads behind a table. -/
def SetState.call (s : SetState) : SetCall → Option SetState
  | .GXSetScissor left top wd ht => some (GXSetScissor s left top wd ht)
  | .GXSetLineWidth width texOffsets => some (GXSetLineWidth s width texOffsets)
  | .GXSetPointSize pointSize texOffsets => some (GXSetPointSize s pointSize texOffsets)
  | .GXEnableTexOffsets coord lineEnable pointEnable => some (GXEnableTexOffsets s coord lineEnable pointEnable)
  | .GXSetTexCoordScaleManually coord enable ss ts => some (GXSetTexCoordScaleManually s coord enable ss ts)
  | .GXSetCullMode mode => some (GXSetCullMode s mode)
  | .GXSetCoPlanar enable => some (GXSetCoPlanar s enable)
  | .GXSetZCompLoc beforeTex => some (GXSetZCompLoc s beforeTex)
  | .GXPixModeSync => some (GXPixModeSync s)
  | .GXSetNumTexGens nTexGens => some (GXSetNumTexGens s nTexGens)
  | .GXSetNumChans nChans => some (GXSetNumChans s nChans)
  | .GXSetNumTevStages nStages => some (GXSetNumTevStages s nStages)
  | .GXSetNumIndStages nIndStages => some (GXSetNumIndStages s nIndStages)
  | .GXSetTevOrder stage coord map color => GXSetTevOrder s stage coord map color
  | .GXSetIndTexOrder indStage texCoord texMap => some (GXSetIndTexOrder s indStage texCoord texMap)
  | .GXSetIndTexCoordScale indStage scaleS scaleT => some (GXSetIndTexCoordScale s indStage scaleS scaleT)
  | .GXSetCurrentMtx id => some (GXSetCurrentMtx s id)
  | .GXSetTexCoordGen2 dstCoord func srcParam mtx normalize postmtx =>
    some (GXSetTexCoordGen2 s dstCoord func srcParam mtx normalize postmtx)
  | .GXSetTexCoordGen dstCoord func srcParam mtx => some (GXSetTexCoordGen s dstCoord func srcParam mtx)
  | .GXSetChanAmbColor chan color => some (GXSetChanAmbColor s chan color)
  | .GXSetChanMatColor chan color => some (GXSetChanMatColor s chan color)
  | .GXSetChanCtrl chan enable ambSrc matSrc lightMask diffFn attnFn =>
    some (GXSetChanCtrl s chan enable ambSrc matSrc lightMask diffFn attnFn)

/-- A call that fails changes nothing. -/
def SetState.apply (s : SetState) (c : SetCall) : SetState := (s.call c).getD s

/-- The colours of the table, and none. -/
def SetCall.Readable : SetCall → Prop
  | .GXSetTevOrder stage _ _ color => 16 ≤ stage ∨ color ≤ 8 ∨ color = 0xFF
  | _ => True

/-- A condition as a bit. -/
def bit (p : Prop) [Decidable p] : U32 := if p then 1 else 0

/-- One of a number of stages, coordinates or channels. -/
def lane (n x : Nat) : Fin (n + 1) := ⟨x % (n + 1), Nat.mod_lt x n.succ_pos⟩

/-- The channel whose colour is meant. -/
def chanOf (chan : U32) : Fin 2 := lane 1 chan.toNat

/-- Channels 0 and 1 without alpha, their alpha alone, and the two with all parts. -/
def colorValues (field : Fin 2 → Component → Setting) (chan : U32) (color : GXColor) : List (Setting × U32) :=
  let i := chanOf chan
  let rgb := [(field i .b, color.b.setWidth 32), (field i .g, color.g.setWidth 32), (field i .r, color.r.setWidth 32)]
  let alpha := (field i .a, color.a.setWidth 32)
  if chan < 2 then rgb else if chan < 4 then [alpha] else if chan < 6 then alpha :: rgb else []

/-- What a call sets. -/
def settings : SetCall → List (Setting × U32)
  | .GXSetScissor left top wd ht =>
    [(.scissorTop, top + 342), (.scissorLeft, left + 342), (.scissorBottom, top + 342 + ht - 1),
      (.scissorRight, left + 342 + wd - 1)]
  | .GXSetLineWidth width texOffsets => [(.lineWidth, width.setWidth 32), (.lineOffset, texOffsets &&& 7)]
  | .GXSetPointSize pointSize texOffsets => [(.pointSize, pointSize.setWidth 32), (.pointOffset, texOffsets &&& 7)]
  | .GXEnableTexOffsets coord lineEnable pointEnable =>
    let i := lane 7 coord.toNat
    if 8 ≤ coord then [] else [(.texLine i, bit (lineEnable ≠ 0)), (.texPoint i, bit (pointEnable ≠ 0))]
  | .GXSetTexCoordScaleManually coord enable ss ts =>
    let i := lane 7 coord.toNat
    if 8 ≤ coord then []
    else if enable ≠ 0 then
      [(.manualScale i, 1), (.scaleS i, (ss - 1).setWidth 32), (.scaleT i, (ts - 1).setWidth 32)]
    else [(.manualScale i, 0)]
  | .GXSetCullMode mode => [(.cullMode, (if mode = 1 then 2 else if mode = 2 then 1 else mode) &&& 3)]
  | .GXSetCoPlanar enable => [(.coPlanar, bit (enable ≠ 0))]
  | .GXSetZCompLoc beforeTex => [(.zCompLoc, bit (beforeTex ≠ 0))]
  | .GXPixModeSync => []
  | .GXSetNumTexGens nTexGens => [(.texGens, nTexGens.setWidth 32)]
  | .GXSetNumChans nChans => [(.chans, nChans.setWidth 32)]
  | .GXSetNumTevStages nStages =>
    if nStages = 0 ∨ 16 < nStages then [] else [(.tevStages, nStages.setWidth 32 - 1)]
  | .GXSetNumIndStages nIndStages => if 4 < nIndStages then [] else [(.indStages, nIndStages.setWidth 32)]
  | .GXSetTevOrder stage coord map color =>
    let i := lane 15 stage.toNat
    let tmap := map &&& ~~~0x100
    if 16 ≤ stage then []
    else
      match rasColor color with
      | none => []
      | some rasc =>
        [(.tevCoordEnable i, bit (¬ 8 ≤ coord)), (.tevMap i, if 8 ≤ tmap then 0 else tmap),
          (.tevCoord i, if 8 ≤ coord then 0 else coord), (.tevColor i, rasc),
          (.tevMapEnable i, bit (map ≠ 0xFF ∧ map &&& 0x100 = 0))]
  | .GXSetIndTexOrder indStage texCoord texMap =>
    let i := lane 3 indStage.toNat
    if indStage < 4 then [(.indMap i, texMap), (.indCoord i, texCoord)] else []
  | .GXSetIndTexCoordScale indStage scaleS scaleT =>
    let i := lane 3 indStage.toNat
    if indStage < 4 then
      [(.indScaleS i, scaleS), (.indScaleT i, scaleT), (.indScaleId (lane 1 (indStage.toNat / 2)), 0x25 + indStage / 2)]
    else []
  | .GXSetCurrentMtx id => [(.posMtx, id)]
  | .GXSetTexCoordGen2 dstCoord _ _ mtx _ _ =>
    if 8 ≤ dstCoord then [] else [(.texMtx (lane 7 dstCoord.toNat), mtx &&& 0x3F)]
  | .GXSetTexCoordGen dstCoord _ _ mtx =>
    if 8 ≤ dstCoord then [] else [(.texMtx (lane 7 dstCoord.toNat), mtx &&& 0x3F)]
  | .GXSetChanAmbColor chan color => colorValues .ambColor chan color
  | .GXSetChanMatColor chan color => colorValues .matColor chan color
  | .GXSetChanCtrl _ _ _ _ _ _ _ => []

/-! ### No two settings share a bit -/

def Setting.all : List Setting :=
  [.texGens, .chans, .tevStages, .cullMode, .indStages, .coPlanar, .lineWidth, .pointSize, .lineOffset, .pointOffset,
    .scissorTop, .scissorLeft, .scissorBottom, .scissorRight, .zCompLoc, .posMtx] ++
  ((List.finRange 8).flatMap fun i => [.texMtx i, .texLine i, .texPoint i, .manualScale i, .scaleS i, .scaleT i]) ++
  ((List.finRange 16).flatMap fun i => [.tevCoordEnable i, .tevMap i, .tevCoord i, .tevColor i, .tevMapEnable i]) ++
  ((List.finRange 4).flatMap fun i => [.indMap i, .indCoord i, .indScaleS i, .indScaleT i]) ++
  ((List.finRange 2).flatMap fun i => [.indScaleId i, .ambColor i .r, .ambColor i .g, .ambColor i .b, .ambColor i .a,
    .matColor i .r, .matColor i .g, .matColor i .b, .matColor i .a])

theorem Setting.mem_all (f : Setting) : f ∈ Setting.all := by
  cases f with
  | ambColor i c => cases c <;> simp [Setting.all]
  | matColor i c => cases c <;> simp [Setting.all]
  | _ => simp [Setting.all]

instance (p q : Place SetReg) : Decidable (p.Apart q) :=
  inferInstanceAs (Decidable (p.word ≠ q.word ∨ p.shift + p.size ≤ q.shift ∨ q.shift + q.size ≤ p.shift))

theorem Setting.all_apart : Setting.all.Pairwise fun f g => (settingPlace f).Apart (settingPlace g) := by
  decide +kernel

theorem Setting.all_fits : ∀ f ∈ Setting.all, (settingPlace f).shift + (settingPlace f).size ≤ 32 := by
  decide +kernel

theorem settingPlace_layout : Layout 32 settingPlace where
  fits f := Setting.all_fits f f.mem_all
  apart f g hfg := by
    have hsymm : Std.Symm fun f g : Setting => (settingPlace f).Apart (settingPlace g) := ⟨fun _ _ h => h.symm⟩
    exact Setting.all_apart.forall f.mem_all g.mem_all hfg

/-! ### Calls store their settings -/

section Reg

variable (s : SetState) (k : Kind) (i size shift : Nat) (v : U32)

@[simp] theorem SetState.set_reg : (s.set k i size shift v).reg = Place.write s.reg ⟨⟨k, i⟩, size, shift⟩ v := rfl

@[simp] theorem SetState.put_reg : (s.put k i v).reg = update s.reg ⟨k, i⟩ v := rfl

@[simp] theorem SetState.send_reg : (s.send k i).reg = s.reg := rfl

@[simp] theorem SetState.dirty_reg : (s.dirty v).reg = s.reg := rfl

@[simp] theorem SetState.sentNot_reg : (s.sentNot v).reg = s.reg := rfl

@[simp] theorem SetState.writeXf_reg : (s.writeXf i v).reg = s.reg := by
  rw [SetState.writeXf]
  split
  · rfl
  · rfl

end Reg

variable {s : SetState} {m : SetReg → U32} {k : Kind} {i : Nat}

/-- A field of one bit. -/
theorem setField_bit (reg : U32) (i : Nat) (p : Prop) [Decidable p] :
    setField reg 1 i (bit p) = (reg &&& ~~~((1 : U32) <<< i)) ||| (bit p <<< i) := by
  have hone : (1#32 <<< 1 - 1#32 : U32) = 1 := rfl
  have hzero : (0 : U32) <<< i = 0 := BitVec.zero_shiftLeft i
  rw [setField, hone, bit]
  split
  · rw [BitVec.and_self]
  · rw [hzero]
    exact congrArg _ BitVec.zero_and

theorem setField_clear (reg : U32) (i : Nat) : setField reg 1 i 0 = reg &&& ~~~((1 : U32) <<< i) := by
  have hzero : (0 : U32) <<< i = 0 := BitVec.zero_shiftLeft i
  have h := setField_bit reg i False
  rw [bit, if_neg not_false, hzero] at h
  exact h.trans BitVec.or_zero

theorem setField_mark (reg : U32) (i : Nat) : setField reg 1 i 1 = reg ||| ((1 : U32) <<< i) := by
  have h := setField_bit reg i True
  rw [bit, if_pos trivial] at h
  rw [h]
  apply BitVec.eq_of_getLsbD_eq
  intro j hj
  rw [BitVec.getLsbD_or, BitVec.getLsbD_and, BitVec.getLsbD_or, BitVec.getLsbD_not, decide_eq_true hj, Bool.true_and]
  cases reg.getLsbD j with
  | false => rfl
  | true => exact Bool.not_or_self _

/-- A colour takes all bits above the alpha. -/
theorem packColor_low (w : U32) (color : GXColor) : packColor (w &&& 0xFF) color =
    setField (setField (setField w 8 8 (color.b.setWidth 32)) 8 16 (color.g.setWidth 32)) 8 24 (color.r.setWidth 32) := by
  have hput : ∀ reg size shift v, setField reg size shift v = BitFields.put reg size shift v := fun _ _ _ _ => rfl
  have hones : (0xFF : U32) = ones 32 8 := rfl
  apply BitVec.eq_of_getLsbD_eq
  intro i hi
  simp only [packColor, hput, hones, getLsbD_put hi, BitVec.getLsbD_and]
  by_cases hr : 24 ≤ i ∧ i < 24 + 8
  · rw [if_pos hr, if_pos hr]
  · by_cases hg : 16 ≤ i ∧ i < 16 + 8
    · rw [if_neg hr, if_neg hr, if_pos hg, if_pos hg]
    · by_cases hb : 8 ≤ i ∧ i < 8 + 8
      · rw [if_neg hr, if_neg hr, if_neg hg, if_neg hg, if_pos hb, if_pos hb]
      · rw [if_neg hr, if_neg hr, if_neg hg, if_neg hg, if_neg hb, if_neg hb, if_pos (by omega), getLsbD_ones (by omega),
          decide_eq_true (by omega), Bool.and_true]
        rfl

/-- A colour with its alpha takes the whole word. -/
theorem packColor_all (w : U32) (color : GXColor) : packColor (color.a.setWidth 32) color =
    setField (setField (setField (setField w 8 0 (color.a.setWidth 32)) 8 8 (color.b.setWidth 32)) 8 16
      (color.g.setWidth 32)) 8 24 (color.r.setWidth 32) := by
  have hput : ∀ reg size shift v, setField reg size shift v = BitFields.put reg size shift v := fun _ _ _ _ => rfl
  apply BitVec.eq_of_getLsbD_eq
  intro i hi
  simp only [packColor, hput, getLsbD_put hi]
  by_cases hr : 24 ≤ i ∧ i < 24 + 8
  · rw [if_pos hr, if_pos hr]
  · by_cases hg : 16 ≤ i ∧ i < 16 + 8
    · rw [if_neg hr, if_neg hr, if_pos hg, if_pos hg]
    · by_cases hb : 8 ≤ i ∧ i < 8 + 8
      · rw [if_neg hr, if_neg hr, if_neg hg, if_neg hg, if_pos hb, if_pos hb]
      · rw [if_neg hr, if_neg hr, if_neg hg, if_neg hg, if_neg hb, if_neg hb, if_pos (by omega), if_pos (by omega)]

theorem Place.write_eq {m : SetReg → U32} {k : SetReg} {size shift : Nat} {v : U32} :
    Place.write m ⟨k, size, shift⟩ v = update m k (setField (m k) size shift v) := rfl

theorem lane_val {n : Nat} {x : U32} (h : x.toNat < n + 1) : (lane n x.toNat).val = x.toNat :=
  Nat.mod_eq_of_lt h

/-- The register after a call that may be refused. -/
theorem reg_ite {c : Prop} [Decidable c] {t t' : SetState} {l l' : List (Setting × U32)}
    (ht : t.reg = storeAll settingPlace s.reg l) (ht' : t'.reg = storeAll settingPlace s.reg l') :
    (if c then t else t').reg = storeAll settingPlace s.reg (if c then l else l') := by
  split
  · exact ht
  · exact ht'

theorem GXEnableTexOffsets_reg (s : SetState) (coord : U32) (lineEnable pointEnable : U8) :
    (GXEnableTexOffsets s coord lineEnable pointEnable).reg =
      storeAll settingPlace s.reg (settings (.GXEnableTexOffsets coord lineEnable pointEnable)) := by
  rw [GXEnableTexOffsets, settings]
  by_cases hc : 8 ≤ coord
  · rw [if_pos hc, if_pos hc]
    rfl
  · have hval : (lane 7 coord.toNat).val = coord.toNat := lane_val (BitVec.not_le.mp hc)
    rw [if_neg hc, if_neg hc]
    simp only [storeAll_cons, storeAll_nil, settingPlace, hval]
    rfl

theorem GXSetTexCoordScaleManually_reg (s : SetState) (coord : U32) (enable : U8) (ss ts : U16) :
    (GXSetTexCoordScaleManually s coord enable ss ts).reg =
      storeAll settingPlace s.reg (settings (.GXSetTexCoordScaleManually coord enable ss ts)) := by
  rw [GXSetTexCoordScaleManually, settings]
  by_cases hc : 8 ≤ coord
  · rw [if_pos hc, if_pos hc]
    rfl
  · have hval : (lane 7 coord.toNat).val = coord.toNat := lane_val (BitVec.not_le.mp hc)
    rw [if_neg hc, if_neg hc]
    by_cases he : enable ≠ 0
    · have hbit := setField_bit (s.get .tcsManEnab 0) coord.toNat (enable ≠ 0)
      rw [bit, if_pos he] at hbit
      simp only [if_pos he, storeAll_cons, storeAll_nil, settingPlace, hval, ← hbit]
      rfl
    · have hbit := setField_bit (s.get .tcsManEnab 0) coord.toNat (enable ≠ 0)
      rw [bit, if_neg he] at hbit
      simp only [if_neg he, storeAll_cons, storeAll_nil, settingPlace, hval, ← hbit]
      rfl

theorem enableCoord_reg (s : SetState) (stage coord : U32) : (enableCoord s stage coord).reg =
    Place.write s.reg ⟨⟨.tevTcEnab, 0⟩, 1, stage.toNat⟩ (bit (¬ 8 ≤ coord)) := by
  rw [enableCoord, Place.write_eq, bit]
  by_cases hc : 8 ≤ coord
  · rw [if_pos hc, if_neg (not_not.mpr hc), setField_clear]
    rfl
  · rw [if_neg hc, if_pos hc, setField_mark]
    rfl

/-- The odd stage has the upper half of the word. -/
theorem setTref_reg (s : SetState) (stage tmap tcoord rasc enable : U32) :
    (setTref s stage tmap tcoord rasc enable).reg =
      Place.write (Place.write (Place.write (Place.write s.reg
        ⟨⟨.tref, stage.toNat / 2⟩, 3, 12 * (stage.toNat % 2)⟩ tmap)
        ⟨⟨.tref, stage.toNat / 2⟩, 3, 12 * (stage.toNat % 2) + 3⟩ tcoord)
        ⟨⟨.tref, stage.toNat / 2⟩, 3, 12 * (stage.toNat % 2) + 7⟩ rasc)
        ⟨⟨.tref, stage.toNat / 2⟩, 1, 12 * (stage.toNat % 2) + 6⟩ enable := by
  have hbit : (stage &&& 1).toNat = stage.toNat % 2 := Nat.and_one_is_mod _
  rw [setTref]
  by_cases hs : stage &&& 1 ≠ 0
  · have hodd : stage.toNat % 2 = 1 := by
      have hne : stage.toNat % 2 ≠ 0 := fun h => hs (BitVec.eq_of_toNat_eq (hbit.trans h))
      omega
    rw [if_pos hs, hodd]
    rfl
  · have heven : stage.toNat % 2 = 0 := by
      rw [← hbit, not_not.mp hs]
      rfl
    rw [if_neg hs, heven]
    rfl

theorem GXSetTevOrder_reg (s : SetState) (stage coord map color : U32) :
    ((GXSetTevOrder s stage coord map color).getD s).reg =
      storeAll settingPlace s.reg (settings (.GXSetTevOrder stage coord map color)) := by
  rw [GXSetTevOrder, settings]
  by_cases hs : 16 ≤ stage
  · rw [if_pos hs, if_pos hs]
    rfl
  · have hval : (lane 15 stage.toNat).val = stage.toNat := lane_val (BitVec.not_le.mp hs)
    rw [if_neg hs, if_neg hs]
    cases rasColor color with
    | none => rfl
    | some rasc =>
      simp only [Option.map_some, Option.getD_some, orderStage, storeAll_cons, storeAll_nil, settingPlace, hval,
        SetState.sentNot_reg, SetState.dirty_reg, setTref_reg, enableCoord_reg]
      rfl

theorem GXSetIndTexOrder_reg (s : SetState) (indStage texCoord texMap : U32) :
    (GXSetIndTexOrder s indStage texCoord texMap).reg =
      storeAll settingPlace s.reg (settings (.GXSetIndTexOrder indStage texCoord texMap)) := by
  rw [GXSetIndTexOrder, settings]
  by_cases hs : indStage < 4
  · have hval : (lane 3 indStage.toNat).val = indStage.toNat := lane_val hs
    simp only [if_pos hs, storeAll_cons, storeAll_nil, settingPlace, hval]
    rfl
  · simp only [if_neg hs]
    rfl

theorem GXSetIndTexCoordScale_reg (s : SetState) (indStage scaleS scaleT : U32) :
    (GXSetIndTexCoordScale s indStage scaleS scaleT).reg =
      storeAll settingPlace s.reg (settings (.GXSetIndTexCoordScale indStage scaleS scaleT)) := by
  rw [GXSetIndTexCoordScale, settings]
  by_cases hs : indStage < 4
  · have hlt : indStage.toNat < 4 := hs
    have hval : (lane 3 indStage.toNat).val = indStage.toNat := lane_val hs
    have hpair : (lane 1 (indStage.toNat / 2)).val = indStage.toNat / 2 := Nat.mod_eq_of_lt (by omega)
    simp only [if_pos hs, storeAll_cons, storeAll_nil, settingPlace, hval, hpair]
    rfl
  · simp only [if_neg hs]
    rfl

theorem GXSetTexCoordGen2_reg (s : SetState) (dstCoord : U8) (func srcParam mtx normalize postmtx : U32) :
    (GXSetTexCoordGen2 s dstCoord func srcParam mtx normalize postmtx).reg =
      storeAll settingPlace s.reg (settings (.GXSetTexCoordGen2 dstCoord func srcParam mtx normalize postmtx)) := by
  rw [GXSetTexCoordGen2, settings]
  by_cases hc : 8 ≤ dstCoord
  · rw [if_pos hc, if_pos hc]
    rfl
  · have hlt : dstCoord.toNat < 8 := BitVec.not_le.mp hc
    have hval : (lane 7 dstCoord.toNat).val = dstCoord.toNat := Nat.mod_eq_of_lt hlt
    rw [if_neg hc, if_neg hc]
    simp only [storeAll_cons, storeAll_nil, settingPlace, hval]
    by_cases h3 : dstCoord.toNat ≤ 3
    · simp only [if_pos h3, SetState.sentNot_reg, SetState.writeXf_reg]
      rfl
    · simp only [if_neg h3, SetState.sentNot_reg, SetState.writeXf_reg]
      rfl

theorem writeColor_reg (k : Kind) (base : Nat) (s : SetState) (i : Nat) (v : U32) :
    (writeColor k base s i v).reg = update s.reg ⟨k, i⟩ v := by
  rw [writeColor, SetState.put_reg, SetState.sentNot_reg, SetState.writeXf_reg]

theorem chan_cases (chan : U32) : chan = GX_COLOR0 ∨ chan = GX_COLOR1 ∨ chan = GX_ALPHA0 ∨ chan = GX_ALPHA1 ∨
    chan = GX_COLOR0A0 ∨ chan = GX_COLOR1A1 ∨ 6 ≤ chan := by
  have hcases : chan.toNat = 0 ∨ chan.toNat = 1 ∨ chan.toNat = 2 ∨ chan.toNat = 3 ∨ chan.toNat = 4 ∨ chan.toNat = 5 ∨
      6 ≤ chan.toNat := by omega
  simp only [BitVec.le_def, ← BitVec.toNat_inj]
  exact hcases

theorem setChanColor_other {base : Nat} {chan : U32} {color : GXColor} (h : 6 ≤ chan) :
    setChanColor k base s chan color = s := by
  have hne : ∀ {c : U32}, c.toNat < 6 → chan ≠ c := by
    intro c hc he
    have hle : 6 ≤ chan.toNat := h
    rw [he] at hle
    omega
  rw [setChanColor, if_neg (hne (by decide)), if_neg (hne (by decide)), if_neg (hne (by decide)), if_neg (hne (by decide)),
    if_neg (hne (by decide)), if_neg (hne (by decide))]

section Color

variable {field : Fin 2 → Component → Setting} (hf : ∀ i c, settingPlace (field i c) = ⟨⟨k, i.val⟩, 8, c.shift⟩)
include hf

theorem color_low (m : SetReg → U32) (i : Fin 2) (color : GXColor) :
    update m ⟨k, i.val⟩ (packColor (m ⟨k, i.val⟩ &&& 0xFF) color) = storeAll settingPlace m
      [(field i .b, color.b.setWidth 32), (field i .g, color.g.setWidth 32), (field i .r, color.r.setWidth 32)] := by
  rw [packColor_low]
  simp only [storeAll_cons, storeAll_nil, hf, Place.write_eq, update_self, update_idem]
  rfl

theorem color_all (m : SetReg → U32) (i : Fin 2) (color : GXColor) :
    update m ⟨k, i.val⟩ (packColor (color.a.setWidth 32) color) = storeAll settingPlace m
      [(field i .a, color.a.setWidth 32), (field i .b, color.b.setWidth 32), (field i .g, color.g.setWidth 32),
        (field i .r, color.r.setWidth 32)] := by
  rw [packColor_all (m ⟨k, i.val⟩)]
  simp only [storeAll_cons, storeAll_nil, hf, Place.write_eq, update_self, update_idem]
  rfl

theorem color_alpha (m : SetReg → U32) (i : Fin 2) (color : GXColor) :
    update m ⟨k, i.val⟩ (setField (m ⟨k, i.val⟩) 8 0 (color.a.setWidth 32)) =
      storeAll settingPlace m [(field i .a, color.a.setWidth 32)] := by
  simp only [storeAll_cons, storeAll_nil, hf, Place.write_eq]
  rfl

/-- A colour is stored part by part. -/
theorem setChanColor_reg (base : Nat) (s : SetState) (chan : U32) (color : GXColor) :
    (setChanColor k base s chan color).reg = storeAll settingPlace s.reg (colorValues field chan color) := by
  have hwrite := writeColor_reg k base s
  obtain rfl | rfl | rfl | rfl | rfl | rfl | h := chan_cases chan
  · exact (hwrite 0 _).trans (color_low hf s.reg 0 color)
  · exact (hwrite 1 _).trans (color_low hf s.reg 1 color)
  · exact (hwrite 0 _).trans (color_alpha hf s.reg 0 color)
  · exact (hwrite 1 _).trans (color_alpha hf s.reg 1 color)
  · exact (hwrite 0 _).trans (color_all hf s.reg 0 color)
  · exact (hwrite 1 _).trans (color_all hf s.reg 1 color)
  · have hle : 6 ≤ chan.toNat := h
    have hlt : ∀ {c : U32}, c.toNat ≤ 6 → ¬ chan < c := by
      intro c hc hlt
      have hlt : chan.toNat < c.toNat := hlt
      omega
    rw [setChanColor_other h, colorValues, if_neg (hlt (by decide)), if_neg (hlt (by decide)), if_neg (hlt (by decide))]
    rfl

end Color

theorem GXSetChanCtrl_reg (s : SetState) (chan : U32) (enable : U8) (ambSrc matSrc lightMask diffFn attnFn : U32) :
    (GXSetChanCtrl s chan enable ambSrc matSrc lightMask diffFn attnFn).reg = s.reg := by
  rw [GXSetChanCtrl]
  split
  · rw [SetState.writeXf_reg, SetState.sentNot_reg, SetState.writeXf_reg]
  · split
    · rw [SetState.writeXf_reg, SetState.sentNot_reg, SetState.writeXf_reg]
    · rw [SetState.sentNot_reg, SetState.writeXf_reg]

theorem settings_stores : Stores settingPlace SetState.apply SetState.reg settings := by
  intro s c
  cases c with
  | GXSetTevOrder stage coord map color => exact GXSetTevOrder_reg s stage coord map color
  | GXSetScissor => rfl
  | GXSetLineWidth => rfl
  | GXSetPointSize => rfl
  | GXEnableTexOffsets coord lineEnable pointEnable => exact GXEnableTexOffsets_reg s coord lineEnable pointEnable
  | GXSetTexCoordScaleManually coord enable ss ts => exact GXSetTexCoordScaleManually_reg s coord enable ss ts
  | GXSetCullMode => rfl
  | GXSetCoPlanar => rfl
  | GXSetZCompLoc => rfl
  | GXPixModeSync => rfl
  | GXSetNumTexGens => rfl
  | GXSetNumChans => rfl
  | GXSetNumTevStages nStages => exact reg_ite rfl rfl
  | GXSetNumIndStages nIndStages => exact reg_ite rfl rfl
  | GXSetIndTexOrder indStage texCoord texMap => exact GXSetIndTexOrder_reg s indStage texCoord texMap
  | GXSetIndTexCoordScale indStage scaleS scaleT => exact GXSetIndTexCoordScale_reg s indStage scaleS scaleT
  | GXSetCurrentMtx id => exact SetState.writeXf_reg _ _ _
  | GXSetTexCoordGen2 dstCoord func srcParam mtx normalize postmtx =>
    exact GXSetTexCoordGen2_reg s dstCoord func srcParam mtx normalize postmtx
  | GXSetTexCoordGen dstCoord func srcParam mtx => exact GXSetTexCoordGen2_reg s dstCoord func srcParam mtx 0 125
  | GXSetChanAmbColor chan color => exact setChanColor_reg (fun _ _ => rfl) _ s chan color
  | GXSetChanMatColor chan color => exact setChanColor_reg (fun _ _ => rfl) _ s chan color
  | GXSetChanCtrl chan enable ambSrc matSrc lightMask diffFn attnFn =>
    exact GXSetChanCtrl_reg s chan enable ambSrc matSrc lightMask diffFn attnFn

theorem nodup_ite {c : Prop} [Decidable c] {l l' : List (Setting × U32)} (h : (l.map Prod.fst).Nodup)
    (h' : (l'.map Prod.fst).Nodup) : ((if c then l else l').map Prod.fst).Nodup := by
  split
  · exact h
  · exact h'

theorem colorValues_nodup {field : Fin 2 → Component → Setting} (hf : ∀ i, Function.Injective (field i)) (chan : U32)
    (color : GXColor) : ((colorValues field chan color).map Prod.fst).Nodup := by
  have hne : ∀ i {c d : Component}, c ≠ d → field i c ≠ field i d := fun i _ _ hcd he => hcd (hf i he)
  apply nodup_ite
  · simp [hne]
  · apply nodup_ite
    · simp
    · apply nodup_ite
      · simp [hne]
      · simp

theorem settings_nodup (c : SetCall) : ((settings c).map Prod.fst).Nodup := by
  cases c with
  | GXSetScissor => simp [settings]
  | GXSetLineWidth => simp [settings]
  | GXSetPointSize => simp [settings]
  | GXEnableTexOffsets => exact nodup_ite List.nodup_nil (by simp)
  | GXSetTexCoordScaleManually => exact nodup_ite List.nodup_nil (nodup_ite (by simp) (by simp))
  | GXSetCullMode => simp [settings]
  | GXSetCoPlanar => simp [settings]
  | GXSetZCompLoc => simp [settings]
  | GXPixModeSync => exact List.nodup_nil
  | GXSetNumTexGens => simp [settings]
  | GXSetNumChans => simp [settings]
  | GXSetNumTevStages => exact nodup_ite List.nodup_nil (by simp)
  | GXSetNumIndStages => exact nodup_ite List.nodup_nil (by simp)
  | GXSetTevOrder stage coord map color =>
    refine nodup_ite (l := []) List.nodup_nil ?_
    cases rasColor color with
    | none => exact List.nodup_nil
    | some rasc => simp
  | GXSetIndTexOrder => exact nodup_ite (by simp) List.nodup_nil
  | GXSetIndTexCoordScale => exact nodup_ite (by simp) List.nodup_nil
  | GXSetCurrentMtx => simp [settings]
  | GXSetTexCoordGen2 => exact nodup_ite List.nodup_nil (by simp)
  | GXSetTexCoordGen => exact nodup_ite List.nodup_nil (by simp)
  | GXSetChanAmbColor chan color => exact colorValues_nodup (fun _ _ _ h => (Setting.ambColor.inj h).2) chan color
  | GXSetChanMatColor chan color => exact colorValues_nodup (fun _ _ _ h => (Setting.matColor.inj h).2) chan color
  | GXSetChanCtrl => exact List.nodup_nil

/-! ### The transform unit -/

/-- The registers of the transform unit that have the words of shadows. -/
def mirrored : List (Nat × SetReg) :=
  [(24, ⟨.matIdxA, 0⟩), (25, ⟨.matIdxB, 0⟩), (10, ⟨.ambColor, 0⟩), (11, ⟨.ambColor, 1⟩), (12, ⟨.matColor, 0⟩),
    (13, ⟨.matColor, 1⟩)]

namespace SetState

def Synced (s : SetState) : Prop := ∀ x ∈ mirrored, s.xf x.1 = s.reg x.2

/-- The control words of the channels. -/
def ctrl (s : SetState) (j : Fin 4) : U32 := s.xf (14 + j.val)

theorem writeXf_xf (s : SetState) {n : Nat} (hn : n < 64) (v : U32) : (s.writeXf n v).xf = update s.xf n v := by
  rw [writeXf, if_pos hn]

theorem Synced.put (h : s.Synced) (hk : k ∉ [Kind.matIdxA, .matIdxB, .ambColor, .matColor]) (v : U32) :
    (s.put k i v).Synced := by
  have hall : ∀ x ∈ mirrored, x.2.kind ∈ [Kind.matIdxA, .matIdxB, .ambColor, .matColor] := by decide
  intro x hx
  have hne : x.2 ≠ ⟨k, i⟩ := by
    intro he
    have hkind := hall x hx
    rw [he] at hkind
    exact hk hkind
  exact (h x hx).trans (update_of_ne hne _ _).symm

theorem Synced.set (h : s.Synced) (hk : k ∉ [Kind.matIdxA, .matIdxB, .ambColor, .matColor]) (size shift : Nat)
    (v : U32) : (s.set k i size shift v).Synced :=
  h.put hk _

theorem Synced.sentNot (h : s.Synced) (v : U32) : (s.sentNot v).Synced := h

theorem Synced.dirty (h : s.Synced) (bits : U32) : (s.dirty bits).Synced := h

theorem Synced.send (h : s.Synced) (k : Kind) (i : Nat) : (s.send k i).Synced := h

/-- Shadow and register are written together. -/
theorem Synced.both {t : SetState} {n : Nat} {r : SetReg} {v : U32} (h : s.Synced) (hx : (n, r) ∈ mirrored)
    (hxf : t.xf = update s.xf n v) (hreg : t.reg = update s.reg r v) : t.Synced := by
  have hall : ∀ x ∈ mirrored, ∀ y ∈ mirrored, x.1 = y.1 ↔ x.2 = y.2 := by decide
  intro y hy
  have hiff := hall y hy _ hx
  rw [hxf, hreg]
  by_cases he : y.1 = n
  · rw [he, hiff.mp he, update_self, update_self]
  · rw [update_of_ne he, update_of_ne fun hr => he (hiff.mpr hr)]
    exact h y hy

/-- Other registers may be written. -/
theorem Synced.writeXf (h : s.Synced) {n : Nat} (hn : ∀ x ∈ mirrored, x.1 ≠ n) (v : U32) : (s.writeXf n v).Synced := by
  rw [SetState.writeXf]
  split
  · intro x hx
    exact (update_of_ne (hn x hx) _ _).trans (h x hx)
  · exact h

theorem Synced.enableCoord (h : s.Synced) (stage coord : U32) : (enableCoord s stage coord).Synced := by
  rw [GX.enableCoord]
  split
  · exact h.put (by decide) _
  · exact h.put (by decide) _

theorem Synced.setTref (h : s.Synced) (stage tmap tcoord rasc enable : U32) :
    (setTref s stage tmap tcoord rasc enable).Synced := by
  have hset : ∀ {s : SetState}, s.Synced → ∀ i size shift v, (s.set .tref i size shift v).Synced :=
    fun h _ _ _ _ => h.set (by decide) _ _ _
  rw [GX.setTref]
  split
  · exact hset (hset (hset (hset h _ _ _ _) _ _ _ _) _ _ _ _) _ _ _ _
  · exact hset (hset (hset (hset h _ _ _ _) _ _ _ _) _ _ _ _) _ _ _ _

theorem Synced.texCoordGen (h : s.Synced) (dstCoord : U8) (func srcParam mtx normalize postmtx : U32) :
    (GXSetTexCoordGen2 s dstCoord func srcParam mtx normalize postmtx).Synced := by
  rw [GXSetTexCoordGen2]
  split
  · exact h
  · dsimp only
    split
    · exact h.both (n := 24) (r := ⟨.matIdxA, 0⟩) (by decide) rfl rfl
    · exact h.both (n := 25) (r := ⟨.matIdxB, 0⟩) (by decide) rfl rfl

theorem Synced.writeColor (h : s.Synced) {base : Nat} (hx : (i + base, ⟨k, i⟩) ∈ mirrored) (v : U32) :
    (writeColor k base s i v).Synced := by
  have hall : ∀ x ∈ mirrored, x.1 < 64 := by decide
  exact h.both hx (writeXf_xf s (hall _ hx) v) (writeColor_reg k base s i v)

theorem Synced.setChanColor (h : s.Synced) {base : Nat} (h0 : (0 + base, ⟨k, 0⟩) ∈ mirrored)
    (h1 : (1 + base, ⟨k, 1⟩) ∈ mirrored) (chan : U32) (color : GXColor) : (setChanColor k base s chan color).Synced := by
  obtain rfl | rfl | rfl | rfl | rfl | rfl | hc := chan_cases chan
  · exact h.writeColor h0 _
  · exact h.writeColor h1 _
  · exact h.writeColor h0 _
  · exact h.writeColor h1 _
  · exact h.writeColor h0 _
  · exact h.writeColor h1 _
  · rw [setChanColor_other hc]
    exact h

/-- A channel that there is. -/
theorem Synced.chanCtrl (h : s.Synced) {chan : U32} (hc : chan < 6) (enable : U8)
    (ambSrc matSrc lightMask diffFn attnFn : U32) :
    (GXSetChanCtrl s chan enable ambSrc matSrc lightMask diffFn attnFn).Synced := by
  have hfree : ∀ n ∈ [14, 15, 16, 17], ∀ x ∈ mirrored, x.1 ≠ n := by decide
  obtain rfl | rfl | rfl | rfl | rfl | rfl | h6 := chan_cases chan
  · exact h.writeXf (hfree 14 (by decide)) _
  · exact h.writeXf (hfree 15 (by decide)) _
  · exact h.writeXf (hfree 16 (by decide)) _
  · exact h.writeXf (hfree 17 (by decide)) _
  · exact (h.writeXf (hfree 14 (by decide)) _).writeXf (hfree 16 (by decide)) _
  · exact (h.writeXf (hfree 15 (by decide)) _).writeXf (hfree 17 (by decide)) _
  · exact absurd hc (BitVec.not_lt.mpr h6)

end SetState

/-- The transform unit has no registers for other channels. -/
def SetCall.InRange : SetCall → Prop
  | .GXSetChanCtrl chan _ _ _ _ _ _ => chan < 6
  | _ => True

theorem SetState.Synced.apply (h : s.Synced) {c : SetCall} (hc : c.InRange) : (s.apply c).Synced := by
  cases c with
  | GXSetScissor left top wd ht =>
    rw [SetState.apply, SetState.call, Option.getD_some, GXSetScissor]
    apply Synced.sentNot
    exact (((h.set (by decide) _ _ _).set (by decide) _ _ _).set (by decide) _ _ _).set (by decide) _ _ _
  | GXSetLineWidth => exact ((h.set (by decide) _ _ _).set (by decide) _ _ _).sentNot _
  | GXSetPointSize => exact ((h.set (by decide) _ _ _).set (by decide) _ _ _).sentNot _
  | GXEnableTexOffsets coord lineEnable pointEnable =>
    rw [SetState.apply, SetState.call, Option.getD_some, GXEnableTexOffsets]
    split
    · exact h
    · exact ((h.set (by decide) _ _ _).set (by decide) _ _ _).sentNot _
  | GXSetTexCoordScaleManually coord enable ss ts =>
    rw [SetState.apply, SetState.call, Option.getD_some, GXSetTexCoordScaleManually]
    split
    · exact h
    · dsimp only
      split
      · exact (((((h.put (by decide) _).set (by decide) _ _ _).set (by decide) _ _ _).send _ _).send _ _).sentNot _
      · exact h.put (by decide) _
  | GXSetCullMode => exact (h.set (by decide) _ _ _).dirty _
  | GXSetCoPlanar => exact h.set (by decide) _ _ _
  | GXSetZCompLoc => exact ((h.set (by decide) _ _ _).send _ _).sentNot _
  | GXPixModeSync => exact (h.send _ _).sentNot _
  | GXSetNumTexGens => exact (h.set (by decide) _ _ _).dirty _
  | GXSetNumChans => exact (h.set (by decide) _ _ _).dirty _
  | GXSetNumTevStages nStages =>
    rw [SetState.apply, SetState.call, Option.getD_some, GXSetNumTevStages]
    split
    · exact h
    · exact (h.set (by decide) _ _ _).dirty _
  | GXSetNumIndStages nIndStages =>
    rw [SetState.apply, SetState.call, Option.getD_some, GXSetNumIndStages]
    split
    · exact h
    · exact (h.set (by decide) _ _ _).dirty _
  | GXSetTevOrder stage coord map color =>
    rw [SetState.apply, SetState.call, GXSetTevOrder]
    split
    · exact h
    · cases rasColor color with
      | none => exact h
      | some rasc =>
        have hs : ({ s with texmapId := update s.texmapId stage.toNat map } : SetState).Synced := h
        exact (((hs.enableCoord _ _).setTref _ _ _ _ _).sentNot _).dirty _
  | GXSetIndTexOrder indStage texCoord texMap =>
    rw [SetState.apply, SetState.call, Option.getD_some, GXSetIndTexOrder]
    split
    · exact (((h.set (by decide) _ _ _).set (by decide) _ _ _).dirty _).sentNot _
    · exact (h.dirty _).sentNot _
  | GXSetIndTexCoordScale indStage scaleS scaleT =>
    rw [SetState.apply, SetState.call, Option.getD_some, GXSetIndTexCoordScale]
    split
    · exact (((h.set (by decide) _ _ _).set (by decide) _ _ _).set (by decide) _ _ _).sentNot _
    · exact h.sentNot _
  | GXSetCurrentMtx id => exact h.both (n := 24) (r := ⟨.matIdxA, 0⟩) (by decide) rfl rfl
  | GXSetTexCoordGen2 dstCoord func srcParam mtx normalize postmtx =>
    exact h.texCoordGen dstCoord func srcParam mtx normalize postmtx
  | GXSetTexCoordGen dstCoord func srcParam mtx => exact h.texCoordGen dstCoord func srcParam mtx 0 125
  | GXSetChanAmbColor chan color => exact h.setChanColor (by decide) (by decide) chan color
  | GXSetChanMatColor chan color => exact h.setChanColor (by decide) (by decide) chan color
  | GXSetChanCtrl chan enable ambSrc matSrc lightMask diffFn attnFn =>
    exact h.chanCtrl hc enable ambSrc matSrc lightMask diffFn attnFn

theorem SetState.Synced.calls (h : s.Synced) {calls : List SetCall} (hc : ∀ c ∈ calls, c.InRange) :
    (calls.foldl SetState.apply s).Synced := by
  induction calls generalizing s with
  | nil => exact h
  | cons c calls ih =>
    exact ih (h.apply (hc c List.mem_cons_self)) fun d hd => hc d (List.mem_cons_of_mem c hd)

/-! ### Control words -/

def ctrlPlace (j : Fin 4) : Place (Fin 4) := ⟨j, 32, 0⟩

/-- The colour, the alpha or both of a channel. -/
def controls : SetCall → List (Fin 4 × U32)
  | .GXSetChanCtrl chan enable ambSrc matSrc lightMask diffFn attnFn =>
    let reg := chanCtrlReg enable ambSrc matSrc lightMask diffFn attnFn
    if chan < 4 then [(lane 3 chan.toNat, reg)]
    else if chan < 6 then [(lane 3 (chan.toNat - 4), reg), (lane 3 (chan.toNat - 2), reg)]
    else []
  | _ => []

theorem ctrlPlace_layout : Layout 32 ctrlPlace where
  fits _ := le_refl 32
  apart _ _ h := .inl h

theorem ctrlPlace_write (m : Fin 4 → U32) (j : Fin 4) (v : U32) : (ctrlPlace j).write m v = update m j v := by
  rw [Place.write]
  congr 1
  apply BitVec.eq_of_getLsbD_eq
  intro i hi
  have hsum : i < 0 + 32 := by omega
  exact (getLsbD_put hi).trans (if_pos ⟨Nat.zero_le i, hsum⟩)

theorem ctrl_writeXf_free (s : SetState) {n : Nat} (hn : n < 14 ∨ 18 ≤ n) (v : U32) : (s.writeXf n v).ctrl = s.ctrl := by
  rw [SetState.writeXf]
  split
  · funext j
    exact update_of_ne (by omega) _ _
  · rfl

theorem ctrl_writeXf (s : SetState) (j : Fin 4) (v : U32) : (s.writeXf (14 + j.val) v).ctrl = update s.ctrl j v := by
  funext i
  rw [SetState.ctrl, SetState.writeXf_xf s (by omega)]
  by_cases hi : i = j
  · rw [hi, update_self, update_self]
  · have hne : 14 + i.val ≠ 14 + j.val := fun h => hi (Fin.ext (by omega))
    rw [update_of_ne hne, update_of_ne hi]
    rfl

theorem GXSetChanCtrl_ctrl (s : SetState) (chan : U32) (enable : U8) (ambSrc matSrc lightMask diffFn attnFn : U32) :
    (GXSetChanCtrl s chan enable ambSrc matSrc lightMask diffFn attnFn).ctrl =
      storeAll ctrlPlace s.ctrl (controls (.GXSetChanCtrl chan enable ambSrc matSrc lightMask diffFn attnFn)) := by
  have hone : ∀ (s : SetState) (n : Nat) (v : U32), (s.writeXf (14 + (lane 3 n).val) v).ctrl =
      (ctrlPlace (lane 3 n)).write s.ctrl v := fun s n v => (ctrl_writeXf s _ v).trans (ctrlPlace_write _ _ v).symm
  have htwo : ∀ (n n' : Nat) (v : U32),
      (((s.writeXf (14 + (lane 3 n).val) v).sentNot 1).writeXf (14 + (lane 3 n').val) v).ctrl =
        (ctrlPlace (lane 3 n')).write ((ctrlPlace (lane 3 n)).write s.ctrl v) v := by
    intro n n' v
    have h := hone s n v
    rw [← h]
    exact hone _ n' v
  obtain rfl | rfl | rfl | rfl | rfl | rfl | h := chan_cases chan
  · exact hone s 0 _
  · exact hone s 1 _
  · exact hone s 2 _
  · exact hone s 3 _
  · exact htwo 0 2 _
  · exact htwo 1 3 _
  · have hle : 6 ≤ chan.toNat := h
    have hlt : ∀ {c : U32}, c.toNat ≤ 6 → ¬ chan < c := by
      intro c hc hlt
      have hlt : chan.toNat < c.toNat := hlt
      omega
    have hne : ∀ {c : U32}, c.toNat < 6 → chan ≠ c := by
      intro c hc he
      rw [he] at hle
      omega
    have hsum : (chan + 14).toNat = (chan.toNat + 14) % 2 ^ 32 := BitVec.toNat_add _ _
    have hchan := chan.isLt
    rw [GXSetChanCtrl, controls]
    simp only [if_neg (hne (c := GX_COLOR0A0) (by decide)), if_neg (hne (c := GX_COLOR1A1) (by decide))]
    rw [if_neg (hlt (by decide)), if_neg (hlt (by decide))]
    exact ctrl_writeXf_free s (by omega) _

theorem writeColor_ctrl (k : Kind) {base : Nat} (s : SetState) {i : Nat} (hb : i + base < 14) (v : U32) :
    (writeColor k base s i v).ctrl = s.ctrl := ctrl_writeXf_free s (.inl hb) v

theorem setChanColor_ctrl (k : Kind) {base : Nat} (s : SetState) (hb : base < 13) (chan : U32) (color : GXColor) :
    (setChanColor k base s chan color).ctrl = s.ctrl := by
  have h0 : 0 + base < 14 := by omega
  have h1 : 1 + base < 14 := by omega
  obtain rfl | rfl | rfl | rfl | rfl | rfl | hc := chan_cases chan
  · exact writeColor_ctrl k s h0 _
  · exact writeColor_ctrl k s h1 _
  · exact writeColor_ctrl k s h0 _
  · exact writeColor_ctrl k s h1 _
  · exact writeColor_ctrl k s h0 _
  · exact writeColor_ctrl k s h1 _
  · rw [setChanColor_other hc]

theorem texCoordGen_ctrl (s : SetState) (dstCoord : U8) (func srcParam mtx normalize postmtx : U32) :
    (GXSetTexCoordGen2 s dstCoord func srcParam mtx normalize postmtx).ctrl = s.ctrl := by
  rw [GXSetTexCoordGen2]
  split
  · rfl
  · dsimp only
    split
    · exact ctrl_writeXf_free _ (n := 24) (.inr (by decide)) _
    · exact ctrl_writeXf_free _ (n := 25) (.inr (by decide)) _

theorem enableCoord_xf (s : SetState) (stage coord : U32) : (enableCoord s stage coord).xf = s.xf := by
  rw [enableCoord]
  split
  · rfl
  · rfl

theorem setTref_xf (s : SetState) (stage tmap tcoord rasc enable : U32) :
    (setTref s stage tmap tcoord rasc enable).xf = s.xf := by
  rw [setTref]
  split
  · rfl
  · rfl

theorem controls_stores : Stores ctrlPlace SetState.apply SetState.ctrl controls := by
  intro s c
  cases c with
  | GXSetChanCtrl chan enable ambSrc matSrc lightMask diffFn attnFn =>
    exact GXSetChanCtrl_ctrl s chan enable ambSrc matSrc lightMask diffFn attnFn
  | GXSetChanAmbColor chan color => exact setChanColor_ctrl .ambColor s (by decide) chan color
  | GXSetChanMatColor chan color => exact setChanColor_ctrl .matColor s (by decide) chan color
  | GXSetTexCoordGen2 dstCoord func srcParam mtx normalize postmtx =>
    exact texCoordGen_ctrl s dstCoord func srcParam mtx normalize postmtx
  | GXSetTexCoordGen dstCoord func srcParam mtx => exact texCoordGen_ctrl s dstCoord func srcParam mtx 0 125
  | GXSetCurrentMtx id => exact ctrl_writeXf_free _ (n := 24) (.inr (by decide)) _
  | GXEnableTexOffsets =>
    rw [SetState.apply, SetState.call, Option.getD_some, GXEnableTexOffsets]
    split
    · rfl
    · rfl
  | GXSetTexCoordScaleManually =>
    rw [SetState.apply, SetState.call, Option.getD_some, GXSetTexCoordScaleManually]
    split
    · rfl
    · dsimp only
      split
      · rfl
      · rfl
  | GXSetNumTevStages =>
    rw [SetState.apply, SetState.call, Option.getD_some, GXSetNumTevStages]
    split
    · rfl
    · rfl
  | GXSetNumIndStages =>
    rw [SetState.apply, SetState.call, Option.getD_some, GXSetNumIndStages]
    split
    · rfl
    · rfl
  | GXSetTevOrder stage coord map color =>
    rw [SetState.apply, SetState.call, GXSetTevOrder]
    split
    · rfl
    · cases rasColor color with
      | none => rfl
      | some rasc =>
        funext j
        exact congrFun ((setTref_xf _ _ _ _ _ _).trans (enableCoord_xf _ _ _)) _
  | GXSetIndTexOrder =>
    rw [SetState.apply, SetState.call, Option.getD_some, GXSetIndTexOrder]
    split
    · rfl
    · rfl
  | GXSetIndTexCoordScale =>
    rw [SetState.apply, SetState.call, Option.getD_some, GXSetIndTexCoordScale]
    split
    · rfl
    · rfl
  | _ => rfl

theorem controls_nodup (c : SetCall) : ((controls c).map Prod.fst).Nodup := by
  cases c with
  | GXSetChanCtrl chan =>
    rw [controls]
    by_cases h4 : chan < 4
    · simp only [if_pos h4]
      simp
    · by_cases h6 : chan < 6
      · have hge : 4 ≤ chan.toNat := BitVec.not_lt.mp h4
        have hlt : chan.toNat < 6 := h6
        have hne : lane 3 (chan.toNat - 4) ≠ lane 3 (chan.toNat - 2) := by
          intro h
          have hval : (chan.toNat - 4) % 4 = (chan.toNat - 2) % 4 := congrArg Fin.val h
          omega
        simp only [if_neg h4, if_pos h6]
        exact List.nodup_cons.mpr ⟨fun h => hne (List.mem_singleton.mp h), List.nodup_singleton _⟩
      · simp only [if_neg h4, if_neg h6]
        exact List.nodup_nil
  | _ => exact List.nodup_nil

/-! ### Runs -/

theorem and_ones_all (x : U32) : x &&& ones 32 32 = x := by
  apply BitVec.eq_of_getLsbD_eq
  intro i hi
  rw [BitVec.getLsbD_and, getLsbD_ones hi, decide_eq_true hi, Bool.and_true]

/-- What the latest call that sets it gave to a setting, and what it was before if there is none. -/
def settingAfter (s : SetState) (calls : List SetCall) (f : Setting) : U32 :=
  ((latest settings calls f).map (· &&& ones 32 (settingPlace f).size)).getD ((settingPlace f).read s.reg)

theorem rasColor_isSome (color : U32) : (rasColor color).isSome ↔ color ≤ 8 ∨ color = 0xFF := by
  have hle : color ≤ 8 ↔ color.toNat < c2r.length := Nat.lt_succ_iff.symm
  rw [rasColor, hle]
  by_cases hc : color = 0xFF
  · rw [if_pos hc]
    exact iff_of_true rfl (.inr hc)
  · rw [if_neg hc, isSome_getElem?]
    exact (or_iff_left hc).symm

/-- Only a colour that is in no table makes a call fail. -/
theorem SetState.call_isSome (s : SetState) (c : SetCall) : (s.call c).isSome ↔ c.Readable := by
  cases c with
  | GXSetTevOrder stage coord map color =>
    rw [SetState.call, GXSetTevOrder, SetCall.Readable]
    by_cases hs : 16 ≤ stage
    · rw [if_pos hs]
      exact iff_of_true rfl (.inl hs)
    · rw [if_neg hs, Option.isSome_map, rasColor_isSome]
      exact (or_iff_right hs).symm
  | _ => exact iff_of_true rfl trivial

theorem SetState.calls_eq (s : SetState) {calls : List SetCall} (hr : ∀ c ∈ calls, c.Readable) :
    calls.foldlM SetState.call s = some (calls.foldl SetState.apply s) := by
  induction calls generalizing s with
  | nil => rfl
  | cons c calls ih =>
    obtain ⟨s', hs'⟩ := Option.isSome_iff_exists.mp ((s.call_isSome c).mpr (hr c List.mem_cons_self))
    have happly : s.apply c = s' := by rw [SetState.apply, hs', Option.getD_some]
    rw [List.foldlM_cons, hs', List.foldl_cons, happly]
    exact ih s' fun d hd => hr d (List.mem_cons_of_mem c hd)

/-- Each setting and each control word is the latest one given, other bits stay, and the transform unit
keeps the words of the shadows as long as no other channel is controlled. -/
theorem settings_lastWriter (s : SetState) {calls : List SetCall} (hr : ∀ c ∈ calls, c.Readable) :
    ∃ s', calls.foldlM SetState.call s = some s' ∧
      (∀ f, (settingPlace f).read s'.reg = settingAfter s calls f) ∧
      (∀ r, ∀ i < 32, (∀ f, ¬ (settingPlace f).Covers r i) → (s'.reg r).getLsbD i = (s.reg r).getLsbD i) ∧
      (∀ j : Fin 4, s'.ctrl j = (latest controls calls j).getD (s.ctrl j)) ∧
      (s.Synced → (∀ c ∈ calls, c.InRange) → s'.Synced) := by
  refine ⟨_, s.calls_eq hr, fun f => ?_, fun r i hi hout => ?_, fun j => ?_, fun hs hc => hs.calls hc⟩
  · exact settings_stores.read settingPlace_layout settings_nodup s calls f
  · exact settings_stores.outside s calls hi fun c _ x _ => hout x.1
  · have hread : ∀ m : Fin 4 → U32, (ctrlPlace j).read m = m j := fun m => and_ones_all (m j)
    have h := controls_stores.read ctrlPlace_layout controls_nodup s calls j
    rw [hread, hread] at h
    rw [h]
    cases latest controls calls j with
    | none => rfl
    | some v => exact and_ones_all v

/-- Before anything is set. -/
def SetState.cleared : SetState where
  reg _ := 0
  xf _ := 0
  xfTexCoordGen40 _ := 0
  xfTexCoordGen50 _ := 0
  texmapId _ := 0
  lastRasReg := 0
  bpSentNot := 0
  dirtyState := 0

def trialCalls : List SetCall :=
  [.GXSetChanAmbColor GX_COLOR0A0 ⟨0x10, 0x20, 0x30, 0x40⟩, .GXSetTevOrder 3 5 2 GX_COLOR1A1, .GXSetNumTevStages 4,
    .GXSetTevOrder 2 1 0xFF 0xFF, .GXSetChanCtrl GX_COLOR1A1 1 0 0 3 1 1, .GXSetNumChans 2,
    .GXSetChanAmbColor GX_ALPHA0 ⟨0, 0, 0, 0x50⟩]

theorem trialCalls_settings : ∃ s', trialCalls.foldlM SetState.call SetState.cleared = some s' ∧
    (settingPlace (.tevCoord (lane 15 3))).read s'.reg = 5 ∧ (settingPlace (.ambColor (lane 1 0) .g)).read s'.reg = 0x20 ∧
    s'.ctrl (lane 3 3) = 0x68E ∧ s'.Synced := by
  have hr : ∀ c ∈ trialCalls, c.Readable := by
    simp [trialCalls, SetCall.Readable, GX_COLOR1A1]
  have hs : SetState.cleared.Synced := fun _ _ => rfl
  have hc : ∀ c ∈ trialCalls, c.InRange := by
    simp [trialCalls, SetCall.InRange, GX_COLOR1A1]
  obtain ⟨s', hrun, hread, _, hctrl, hsync⟩ := settings_lastWriter SetState.cleared hr
  refine ⟨s', hrun, ?_, ?_, ?_, hsync hs hc⟩
  · rw [hread]
    decide
  · rw [hread]
    decide
  · rw [hctrl]
    decide

end SdkPort.GX
