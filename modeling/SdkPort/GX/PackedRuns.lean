import SdkPort.GX.PackedFields

/-!
# Runs of the setters

After any calls each field holds what the most recent call that targets it gave it. The
other bits keep their values, and calls without a common field can change places.
-/
namespace SdkPort.GX

open BitFields (Place Layout storeAll storeAll_append storeAll_outside storeAll_nil storeAll_cons lastValue ones)
open Function (update update_self update_idem)

inductive GxCall where
  | GXSetVtxAttrFmt (vtxfmt attr cnt type : U32) (frac : U8)
  | GXSetTevColorIn (stage a b c d : U32)
  | GXSetTevColorOp (stage op bias scale clamp outReg : U32)
  | GXSetTevAlphaIn (stage a b c d : U32)
  | GXSetTevAlphaOp (stage op bias scale clamp outReg : U32)
  | GXSetTevSwapMode (stage rasSel texSel : U32)
  | GXSetTevKColorSel (stage sel : U32)
  | GXSetTevKAlphaSel (stage sel : U32)
  | GXSetTevSwapModeTable (table red green blue alpha : U32)
  | GXSetBlendMode (type srcFactor dstFactor op : U32)
  | GXSetAlphaUpdate (updateEnable : U8)
  | GXSetDither (dither : U8)

def exec (s : GxState) : GxCall → GxState
  | .GXSetVtxAttrFmt vtxfmt attr cnt type frac => GXSetVtxAttrFmt s vtxfmt attr cnt type frac
  | .GXSetTevColorIn stage a b c d => GXSetTevColorIn s stage a b c d
  | .GXSetTevColorOp stage op bias scale clamp outReg => GXSetTevColorOp s stage op bias scale clamp outReg
  | .GXSetTevAlphaIn stage a b c d => GXSetTevAlphaIn s stage a b c d
  | .GXSetTevAlphaOp stage op bias scale clamp outReg => GXSetTevAlphaOp s stage op bias scale clamp outReg
  | .GXSetTevSwapMode stage rasSel texSel => GXSetTevSwapMode s stage rasSel texSel
  | .GXSetTevKColorSel stage sel => GXSetTevKColorSel s stage sel
  | .GXSetTevKAlphaSel stage sel => GXSetTevKAlphaSel s stage sel
  | .GXSetTevSwapModeTable table red green blue alpha => GXSetTevSwapModeTable s table red green blue alpha
  | .GXSetBlendMode type srcFactor dstFactor op => GXSetBlendMode s type srcFactor dstFactor op
  | .GXSetAlphaUpdate updateEnable => GXSetAlphaUpdate s updateEnable
  | .GXSetDither dither => GXSetDither s dither

def execAll (s : GxState) (calls : List GxCall) : GxState := calls.foldl exec s

section Encodings

/-- What a call gives to the fields of its attribute. -/
def vatValues (attr cnt type shft : U32) : List (VatPart × U32) :=
  if attr = GX_VA_POS then [(.posCnt, cnt), (.posType, type), (.posShft, shft)]
  else if attr = GX_VA_NRM ∨ attr = GX_VA_NBT then
    [(.nrmType, type), (.nrmCnt, if cnt = 2 then 1 else cnt), (.nrmIndex3, if cnt = 2 then 1 else 0)]
  else if attr = GX_VA_CLR0 then [(.clrCnt 0, cnt), (.clrType 0, type)]
  else if attr = GX_VA_CLR1 then [(.clrCnt 1, cnt), (.clrType 1, type)]
  else if attr = GX_VA_TEX0 then [(.texCnt 0, cnt), (.texType 0, type), (.texShft 0, shft)]
  else if attr = GX_VA_TEX1 then [(.texCnt 1, cnt), (.texType 1, type), (.texShft 1, shft)]
  else if attr = GX_VA_TEX2 then [(.texCnt 2, cnt), (.texType 2, type), (.texShft 2, shft)]
  else if attr = GX_VA_TEX3 then [(.texCnt 3, cnt), (.texType 3, type), (.texShft 3, shft)]
  else if attr = GX_VA_TEX4 then [(.texCnt 4, cnt), (.texType 4, type), (.texShft 4, shft)]
  else if attr = GX_VA_TEX5 then [(.texCnt 5, cnt), (.texType 5, type), (.texShft 5, shft)]
  else if attr = GX_VA_TEX6 then [(.texCnt 6, cnt), (.texType 6, type), (.texShft 6, shft)]
  else if attr = GX_VA_TEX7 then [(.texCnt 7, cnt), (.texType 7, type), (.texShft 7, shft)]
  else []

/-- A comparison, an operation above one, has its own scale and bias. -/
def opScale (op scale : U32) : U32 := if op ≤ 1 then scale else (op >>> 1) &&& 3

def opBias (op bias : U32) : U32 := if op ≤ 1 then bias else 3

/-- The fields a call targets and what it gives to them. -/
def values : GxCall → List (Field × U32)
  | .GXSetVtxAttrFmt vtxfmt attr cnt type frac =>
    if 8 ≤ vtxfmt then []
    else (vatValues attr cnt type (frac.setWidth 32)).map fun x => (.vat vtxfmt.toNat x.1, x.2)
  | .GXSetTevColorIn stage a b c d =>
    if 16 ≤ stage then []
    else [(.tevc stage.toNat .a, a), (.tevc stage.toNat .b, b), (.tevc stage.toNat .c, c),
      (.tevc stage.toNat .d, d)]
  | .GXSetTevColorOp stage op bias scale clamp outReg =>
    if 16 ≤ stage then []
    else [(.tevc stage.toNat .op, op &&& 1), (.tevc stage.toNat .scale, opScale op scale),
      (.tevc stage.toNat .bias, opBias op bias), (.tevc stage.toNat .clamp, clamp &&& 0xFF),
      (.tevc stage.toNat .outReg, outReg)]
  | .GXSetTevAlphaIn stage a b c d =>
    if 16 ≤ stage then []
    else [(.teva stage.toNat .a, a), (.teva stage.toNat .b, b), (.teva stage.toNat .c, c),
      (.teva stage.toNat .d, d)]
  | .GXSetTevAlphaOp stage op bias scale clamp outReg =>
    if 16 ≤ stage then []
    else [(.teva stage.toNat .op, op &&& 1), (.teva stage.toNat .scale, opScale op scale),
      (.teva stage.toNat .bias, opBias op bias), (.teva stage.toNat .clamp, clamp &&& 0xFF),
      (.teva stage.toNat .outReg, outReg)]
  | .GXSetTevSwapMode stage rasSel texSel =>
    if 16 ≤ stage then []
    else [(.teva stage.toNat .rasSel, rasSel), (.teva stage.toNat .texSel, texSel)]
  | .GXSetTevKColorSel stage sel => if 16 ≤ stage then [] else [(.kColorSel stage.toNat, sel)]
  | .GXSetTevKAlphaSel stage sel => if 16 ≤ stage then [] else [(.kAlphaSel stage.toNat, sel)]
  | .GXSetTevSwapModeTable table red green blue alpha =>
    if 4 ≤ table then []
    else [(.swap table.toNat .red, red), (.swap table.toNat .green, green),
      (.swap table.toNat .blue, blue), (.swap table.toNat .alpha, alpha)]
  | .GXSetBlendMode type srcFactor dstFactor op =>
    [(.cmode0 .blendEnable, if type = 1 ∨ type = 3 then 1 else 0),
      (.cmode0 .subtract, if type = 3 then 1 else 0), (.cmode0 .logic, if type = 2 then 1 else 0),
      (.cmode0 .op, op &&& 0xF), (.cmode0 .srcFactor, srcFactor &&& 7),
      (.cmode0 .dstFactor, dstFactor &&& 7), (.cmode0 .id, 0x41)]
  | .GXSetAlphaUpdate updateEnable => [(.cmode0 .alphaUpdate, if updateEnable ≠ 0 then 1 else 0)]
  | .GXSetDither dither => [(.cmode0 .dither, if dither ≠ 0 then 1 else 0)]

def Targets (c : GxCall) (f : Field) : Prop := ∃ v, (f, v) ∈ values c

/-- What a call gives to a field. -/
def encoding (c : GxCall) (f : Field) : Option U32 := (values c).lookup f

/-- What the most recent call that targets a field gives to it. -/
def mostRecent (calls : List GxCall) (f : Field) : Option U32 := calls.reverse.findSome? (encoding · f)

end Encodings

section Calls

variable (s : GxState)

theorem set_reg (r : Reg) (size shift : Nat) (v : U32) :
    (s.set r size shift v).reg = Place.write s.reg ⟨r, size, shift⟩ v := rfl

theorem send_reg (r : Reg) : (s.send r).reg = s.reg := rfl

/-- The branches of a setter and of its values are taken together. -/
theorem ite_reg {α : Type} {c : Prop} [Decidable c] {x y : GxState} {l l' : α} (F : α → Reg → U32)
    (hx : x.reg = F l) (hy : y.reg = F l') : (if c then x else y).reg = F (if c then l else l') := by
  by_cases h : c
  · rw [if_pos h, if_pos h, hx]
  · rw [if_neg h, if_neg h, hy]

theorem normal_reg (i : Nat) (cnt type : U32) :
    (let s := s.set (.gcGxVatA i) 3 10 type
      if cnt = 2 then (s.set (.gcGxVatA i) 1 9 1).set (.gcGxVatA i) 1 31 1
      else (s.set (.gcGxVatA i) 1 9 cnt).set (.gcGxVatA i) 1 31 0).reg =
      storeAll place s.reg [(.vat i .nrmType, type), (.vat i .nrmCnt, if cnt = 2 then 1 else cnt),
        (.vat i .nrmIndex3, if cnt = 2 then 1 else 0)] := by
  by_cases h : cnt = 2
  · simp only [if_pos h]
    rfl
  · simp only [if_neg h]
    rfl

theorem gcGxSetVat_reg (i : Nat) (attr cnt type shft : U32) :
    (gcGxSetVat s (.gcGxVatA i) (.gcGxVatB i) (.gcGxVatC i) attr cnt type shft).reg =
      storeAll place s.reg ((vatValues attr cnt type shft).map fun x => (.vat i x.1, x.2)) := by
  let F (l : List (VatPart × U32)) : Reg → U32 := storeAll place s.reg (l.map fun x => (.vat i x.1, x.2))
  apply ite_reg F (by rfl)
  apply ite_reg F (normal_reg s i cnt type)
  iterate 10 apply ite_reg F (by rfl)
  rfl

/-- A write stores a field into its word. -/
theorem write_self {m : Reg → U32} {r : Reg} {size shift : Nat} {v : U32} :
    Place.write m ⟨r, size, shift⟩ v = update m r (setField (m r) size shift v) := rfl

theorem setTevOp_eq (reg op bias scale clamp outReg : U32) :
    setTevOp reg op bias scale clamp outReg =
      setField (setField (setField (setField (setField reg 1 18 (op &&& 1)) 2 20 (opScale op scale)) 2 16
        (opBias op bias)) 1 19 (clamp &&& 0xFF)) 2 22 outReg := by
  unfold setTevOp opScale opBias
  by_cases h : op ≤ 1
  · simp only [if_pos h]
  · simp only [if_neg h]

theorem kSel_reg {r : Reg} {odd even : Nat} {stage sel : U32} {f : Field}
    (hf : place f = ⟨r, 5, if stage.toNat % 2 = 1 then odd else even⟩) :
    ((if stage &&& 1 ≠ 0 then s.set r 5 odd sel else s.set r 5 even sel).send r).reg =
      storeAll place s.reg [(f, sel)] := by
  have hodd : stage &&& 1 ≠ 0 ↔ stage.toNat % 2 = 1 := by
    rw [ne_eq, ← BitVec.toNat_inj, BitVec.toNat_and]
    simp
  rw [send_reg, storeAll_cons, storeAll_nil, hf]
  by_cases h : stage &&& 1 ≠ 0
  · rw [if_pos h, if_pos (hodd.mp h), set_reg]
  · rw [if_neg h, if_neg (fun h' => h (hodd.mpr h')), set_reg]

/-- A call stores what it gives to its fields. -/
theorem exec_reg (c : GxCall) : (exec s c).reg = storeAll place s.reg (values c) := by
  cases c with
  | GXSetVtxAttrFmt vtxfmt attr cnt type frac =>
    apply ite_reg (storeAll place s.reg) rfl
    exact gcGxSetVat_reg s _ _ _ _ _
  | GXSetTevColorIn stage a b c d =>
    apply ite_reg (storeAll place s.reg) rfl
    simp only [send_reg, storeAll_cons, storeAll_nil, place, tevcPlace, write_self, update_self, update_idem]
  | GXSetTevAlphaIn stage a b c d =>
    apply ite_reg (storeAll place s.reg) rfl
    simp only [send_reg, storeAll_cons, storeAll_nil, place, tevaPlace, write_self, update_self, update_idem]
  | GXSetTevColorOp stage op bias scale clamp outReg =>
    apply ite_reg (storeAll place s.reg) rfl
    simp only [send_reg, storeAll_cons, storeAll_nil, place, tevcPlace, write_self, update_self, update_idem,
      setTevOp_eq]
  | GXSetTevAlphaOp stage op bias scale clamp outReg =>
    apply ite_reg (storeAll place s.reg) rfl
    simp only [send_reg, storeAll_cons, storeAll_nil, place, tevaPlace, write_self, update_self, update_idem,
      setTevOp_eq]
  | GXSetTevKColorSel stage sel =>
    apply ite_reg (storeAll place s.reg) rfl
    exact kSel_reg s rfl
  | GXSetTevKAlphaSel stage sel =>
    apply ite_reg (storeAll place s.reg) rfl
    exact kSel_reg s rfl
  | GXSetTevSwapMode stage rasSel texSel => exact ite_reg (storeAll place s.reg) rfl rfl
  | GXSetTevSwapModeTable table red green blue alpha => exact ite_reg (storeAll place s.reg) rfl rfl
  | GXSetBlendMode type srcFactor dstFactor op => rfl
  | GXSetAlphaUpdate updateEnable => rfl
  | GXSetDither dither => rfl

end Calls

section Runs

variable (s : GxState) (calls : List GxCall)

theorem execAll_reg : (execAll s calls).reg = storeAll place s.reg (calls.flatMap values) := by
  induction calls generalizing s with
  | nil => rfl
  | cons c calls ih =>
    rw [List.flatMap_cons, storeAll_append, ← exec_reg, ← ih]
    rfl

theorem ite_values {α : Type} {c : Prop} [Decidable c] {l l' : List (α × U32)}
    (hl : (l.map Prod.fst).Nodup) (hl' : (l'.map Prod.fst).Nodup) :
    ((if c then l else l').map Prod.fst).Nodup := by
  by_cases h : c
  · rwa [if_pos h]
  · rwa [if_neg h]

theorem vatValues_nodup (attr cnt type shft : U32) : ((vatValues attr cnt type shft).map Prod.fst).Nodup := by
  iterate 12 apply ite_values (by simp)
  exact List.nodup_nil

/-- No call gives two values to one field. -/
theorem values_nodup (c : GxCall) : ((values c).map Prod.fst).Nodup := by
  cases c with
  | GXSetVtxAttrFmt vtxfmt attr cnt type frac =>
    apply ite_values (by exact List.nodup_nil)
    have hinj : Function.Injective (Field.vat vtxfmt.toNat) := fun _ _ h => (Field.vat.inj h).2
    have h := (vatValues_nodup attr cnt type (frac.setWidth 32)).map hinj
    rwa [List.map_map] at h ⊢
  | GXSetBlendMode => simp [values]
  | GXSetAlphaUpdate => simp [values]
  | GXSetDither => simp [values]
  | _ =>
    apply ite_values (by exact List.nodup_nil)
    simp

theorem lastValue_calls (f : Field) : lastValue (calls.flatMap values) f = mostRecent calls f := by
  induction calls with
  | nil => rfl
  | cons c calls ih =>
    rw [List.flatMap_cons, BitFields.lastValue_append, ih, BitFields.lastValue_eq_lookup (values_nodup c)]
    simp [mostRecent, encoding]

/-- The fields of the shadow registers after any calls: each holds what the most recent call
that targets it gave it, as far as it fits. Other bits stay, no bit is in two fields, and
calls without a common field can change places. -/
theorem packed_lastWriter :
    (∀ f, (place f).read (execAll s calls).reg =
      ((mostRecent calls f).map (· &&& ones 32 (place f).size)).getD ((place f).read s.reg)) ∧
    (∀ r, ∀ i < 32, (∀ c ∈ calls, ∀ f, Targets c f → ¬ (place f).Covers r i) →
      ((execAll s calls).reg r).getLsbD i = (s.reg r).getLsbD i) ∧
    (∀ f g, f ≠ g → (place f).Apart (place g)) ∧
    (∀ c d, (∀ f, Targets c f → ¬ Targets d f) → (exec (exec s c) d).reg = (exec (exec s d) c).reg) := by
  refine ⟨fun f => ?_, fun r i hi h => ?_, place_apart, fun c d h => ?_⟩
  · rw [execAll_reg, place_layout.read_storeAll, lastValue_calls]
  · rw [execAll_reg]
    apply storeAll_outside hi
    intro x hx
    obtain ⟨c, hc, hx⟩ := List.mem_flatMap.mp hx
    exact h c hc x.1 ⟨x.2, hx⟩
  · rw [exec_reg, exec_reg, exec_reg, exec_reg]
    apply place_layout.storeAll_comm
    intro x hx y hy he
    exact h x.1 ⟨x.2, hx⟩ ⟨y.2, he ▸ hy⟩

end Runs

end SdkPort.GX
