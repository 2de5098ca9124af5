import Mathlib.Tactic.FinCases
import SdkPort.GX.PackedFields

/-!
# The vertex descriptor

`GX.c`: two words say for each attribute of a vertex whether and how it is given. Normals come alone
or with binormals; both share one field of the first word, so one kind is switched off when the other
one is switched on.
-/
namespace SdkPort.GX

open BitFields (Place Layout ones)
open BitFields.Layout (read_write)
open Function (update update_self update_of_ne)

inductive VcdReg where
  | gcGxVcdLo | gcGxVcdHi
  deriving DecidableEq

structure VtxDesc where
  vcd : VcdReg → U32
  hasNrms : U32
  hasBinrms : U32
  nrmType : U32
  dirtyState : U32

namespace VtxDesc

def set (s : VtxDesc) (r : VcdReg) (size shift : Nat) (v : U32) : VtxDesc :=
  { s with vcd := update s.vcd r (setField (s.vcd r) size shift v) }

end VtxDesc

/-- The indices of matrices, attributes 0 to 8, have a bit each; the texture coordinates lie in a row. -/
def gcGxSetVcdAttr (s : VtxDesc) (attr type : U32) : VtxDesc :=
  if attr < GX_VA_POS then s.set .gcGxVcdLo 1 attr.toNat type
  else if attr = GX_VA_POS then s.set .gcGxVcdLo 2 9 type
  else if attr = GX_VA_NRM then
    if type ≠ 0 then { s with hasNrms := 1, hasBinrms := 0, nrmType := type } else { s with hasNrms := 0 }
  else if attr = GX_VA_NBT then
    if type ≠ 0 then { s with hasBinrms := 1, hasNrms := 0, nrmType := type } else { s with hasBinrms := 0 }
  else if attr = GX_VA_CLR0 then s.set .gcGxVcdLo 2 13 type
  else if attr = GX_VA_CLR1 then s.set .gcGxVcdLo 2 15 type
  else if GX_VA_TEX0 ≤ attr ∧ attr ≤ GX_VA_TEX7 then s.set .gcGxVcdHi 2 (2 * (attr.toNat - 13)) type
  else s

def GXSetVtxDesc (s : VtxDesc) (attr type : U32) : VtxDesc :=
  let s := gcGxSetVcdAttr s attr type
  let s := s.set .gcGxVcdLo 2 11 (if s.hasNrms ≠ 0 ∨ s.hasBinrms ≠ 0 then s.nrmType else 0)
  { s with dirtyState := s.dirtyState ||| 8 }

def GXClearVtxDesc (s : VtxDesc) : VtxDesc :=
  let s := { s with vcd := update s.vcd .gcGxVcdLo 0 }.set .gcGxVcdLo 2 9 1
  { s with vcd := update s.vcd .gcGxVcdHi 0, hasNrms := 0, hasBinrms := 0, dirtyState := s.dirtyState ||| 8 }

inductive DescCall where
  | GXSetVtxDesc (attr type : U32)
  | GXClearVtxDesc
  deriving DecidableEq

def execDesc (s : VtxDesc) : DescCall → VtxDesc
  | .GXSetVtxDesc attr type => GXSetVtxDesc s attr type
  | .GXClearVtxDesc => GXClearVtxDesc s

/-! ### What is described -/

/-- The type last given to each attribute, and the attribute that gives normals, with its type. -/
structure Desc where
  type : U32 → U32
  normals : Option (U32 × U32)

/-- Positions are given directly, and nothing else is. -/
def Desc.clear : Desc := ⟨fun attr => if attr = GX_VA_POS then 1 else 0, none⟩

/-- Normals are switched off by the attribute that gives them. -/
def Desc.call (a : Desc) : DescCall → Desc
  | .GXClearVtxDesc => Desc.clear
  | .GXSetVtxDesc attr type =>
    if attr = GX_VA_NRM ∨ attr = GX_VA_NBT then
      if type ≠ 0 then { a with normals := some (attr, type) }
      else { a with normals := a.normals.filter fun x => x.1 ≠ attr }
    else { a with type := update a.type attr type }

inductive VcdField where
  | mtxIdx (i : Fin 9) | pos | nrm | clr (i : Fin 2) | tex (i : Fin 8)
  deriving DecidableEq, Fintype

def vcdPlace : VcdField → Place VcdReg
  | .mtxIdx i => ⟨.gcGxVcdLo, 1, i⟩
  | .pos => ⟨.gcGxVcdLo, 2, 9⟩
  | .nrm => ⟨.gcGxVcdLo, 2, 11⟩
  | .clr i => ⟨.gcGxVcdLo, 2, 13 + 2 * i⟩
  | .tex i => ⟨.gcGxVcdHi, 2, 2 * i⟩

/-- The attribute a field belongs to; that of the normals stands for both kinds. -/
def attrOf : VcdField → U32
  | .mtxIdx i => BitVec.ofNat 32 i
  | .pos => GX_VA_POS
  | .nrm => GX_VA_NRM
  | .clr i => BitVec.ofNat 32 (11 + i)
  | .tex i => BitVec.ofNat 32 (13 + i)

def Desc.value (a : Desc) : VcdField → U32
  | .nrm => a.normals.elim 0 (·.2)
  | f => a.type (attrOf f)

/-- The words and flags say what is described, and nothing more. -/
structure Describes (s : VtxDesc) (a : Desc) : Prop where
  fields : ∀ f, (vcdPlace f).read s.vcd = a.value f &&& ones 32 (vcdPlace f).size
  rest : ∀ r, ∀ i < 32, (∀ f, ¬ (vcdPlace f).Covers r i) → (s.vcd r).getLsbD i = false
  nrms : s.hasNrms ≠ 0 ↔ ∃ type, a.normals = some (GX_VA_NRM, type)
  binrms : s.hasBinrms ≠ 0 ↔ ∃ type, a.normals = some (GX_VA_NBT, type)
  normals : ∀ x ∈ a.normals, s.nrmType = x.2 ∧ (x.1 = GX_VA_NRM ∨ x.1 = GX_VA_NBT)

variable {s : VtxDesc} {a : Desc} {f g : VcdField} {attr type v : U32}

theorem vcdPlace_layout : Layout 32 vcdPlace :=
  ⟨by decide +kernel, by decide +kernel⟩

theorem attrOf_injective : Function.Injective attrOf := by decide +kernel

/-- An attribute with a field of its own is stored there. -/
theorem gcGxSetVcdAttr_field (s : VtxDesc) (hf : f ≠ .nrm) (type : U32) :
    gcGxSetVcdAttr s (attrOf f) type = { s with vcd := (vcdPlace f).write s.vcd type } := by
  cases f with
  | mtxIdx i => fin_cases i <;> rfl
  | pos => rfl
  | nrm => exact absurd rfl hf
  | clr i => fin_cases i <;> rfl
  | tex i => fin_cases i <;> rfl

/-- Other attributes are ignored. -/
theorem gcGxSetVcdAttr_other (s : VtxDesc) (h : ∀ f, attrOf f ≠ attr) (hb : attr ≠ GX_VA_NBT) (type : U32) :
    gcGxSetVcdAttr s attr type = s := by
  have hidx : ¬ attr < GX_VA_POS := by
    intro hlt
    have hlt : attr.toNat < 9 := BitVec.lt_def.mp hlt
    exact h (.mtxIdx ⟨attr.toNat, hlt⟩) (by simp [attrOf])
  have htex : ¬ (GX_VA_TEX0 ≤ attr ∧ attr ≤ GX_VA_TEX7) := by
    rintro ⟨hle, hge⟩
    have hle : 13 ≤ attr.toNat := BitVec.le_def.mp hle
    have hge : attr.toNat ≤ 20 := BitVec.le_def.mp hge
    have hsum : 13 + (attr.toNat - 13) = attr.toNat := by omega
    exact h (.tex ⟨attr.toNat - 13, by omega⟩) (by simp [attrOf, hsum])
  have hpos : attr ≠ GX_VA_POS := Ne.symm (h .pos)
  have hnrm : attr ≠ GX_VA_NRM := Ne.symm (h .nrm)
  have hclr0 : attr ≠ GX_VA_CLR0 := Ne.symm (h (.clr 0))
  have hclr1 : attr ≠ GX_VA_CLR1 := Ne.symm (h (.clr 1))
  rw [gcGxSetVcdAttr, if_neg hidx, if_neg hpos, if_neg hnrm, if_neg hb, if_neg hclr0, if_neg hclr1, if_neg htex]

/-- The field of the normals is written again with every attribute. -/
theorem describes_normals (hfields : ∀ f ≠ .nrm, (vcdPlace f).read s.vcd = a.value f &&& ones 32 (vcdPlace f).size)
    (hrest : ∀ r, ∀ i < 32, (∀ f, ¬ (vcdPlace f).Covers r i) → (s.vcd r).getLsbD i = false)
    (hnrms : s.hasNrms ≠ 0 ↔ ∃ type, a.normals = some (GX_VA_NRM, type))
    (hbinrms : s.hasBinrms ≠ 0 ↔ ∃ type, a.normals = some (GX_VA_NBT, type))
    (hnormals : ∀ x ∈ a.normals, s.nrmType = x.2 ∧ (x.1 = GX_VA_NRM ∨ x.1 = GX_VA_NBT)) (d : U32) :
    Describes { s.set .gcGxVcdLo 2 11 (if s.hasNrms ≠ 0 ∨ s.hasBinrms ≠ 0 then s.nrmType else 0) with dirtyState := d }
      a where
  fields f := by
    have hw : (s.set .gcGxVcdLo 2 11 (if s.hasNrms ≠ 0 ∨ s.hasBinrms ≠ 0 then s.nrmType else 0)).vcd =
        (vcdPlace .nrm).write s.vcd (if s.hasNrms ≠ 0 ∨ s.hasBinrms ≠ 0 then s.nrmType else 0) := rfl
    dsimp only
    rw [hw, read_write vcdPlace_layout]
    by_cases hf : f = .nrm
    · subst hf
      rw [if_pos rfl, Desc.value]
      congr 1
      cases hn : a.normals with
      | none =>
        have hoff : ¬ (s.hasNrms ≠ 0 ∨ s.hasBinrms ≠ 0) := by
          rw [hnrms, hbinrms, hn]
          simp
        rw [if_neg hoff, Option.elim_none]
      | some x =>
        obtain ⟨htype, hattr⟩ := hnormals x hn
        have hon : s.hasNrms ≠ 0 ∨ s.hasBinrms ≠ 0 := by
          refine hattr.imp (fun he => hnrms.mpr ⟨x.2, ?_⟩) fun he => hbinrms.mpr ⟨x.2, ?_⟩
          · rw [hn, ← he]
          · rw [hn, ← he]
        rw [if_pos hon, htype, Option.elim_some]
    · rw [if_neg hf, hfields f hf]
  rest r i hi hr := (Place.write_bit_outside hi (hr .nrm)).trans (hrest r i hi hr)
  nrms := hnrms
  binrms := hbinrms
  normals := hnormals

theorem value_normals (n : Option (U32 × U32)) (hf : f ≠ .nrm) : ({ a with normals := n } : Desc).value f = a.value f := by
  cases f with
  | nrm => exact absurd rfl hf
  | _ => rfl

/-- One kind of normals is switched on and the other one off. -/
theorem describes_on (h : Describes s a) (hattr : attr = GX_VA_NRM ∨ attr = GX_VA_NBT) (d x y : U32)
    (hx : x ≠ 0 ↔ attr = GX_VA_NRM) (hy : y ≠ 0 ↔ attr = GX_VA_NBT) :
    Describes { { s with hasNrms := x, hasBinrms := y, nrmType := type }.set .gcGxVcdLo 2 11
      (if x ≠ 0 ∨ y ≠ 0 then type else 0) with dirtyState := d } { a with normals := some (attr, type) } := by
  have hgives : ∀ attr', (∃ type', some (attr, type) = some (attr', type')) ↔ attr = attr' := by simp
  apply describes_normals (s := { s with hasNrms := x, hasBinrms := y, nrmType := type })
  · intro f hf
    rw [value_normals _ hf]
    exact h.fields f
  · exact h.rest
  · exact hx.trans (hgives _).symm
  · exact hy.trans (hgives _).symm
  · rintro z hz
    cases hz
    exact ⟨rfl, hattr⟩

/-- The kind that is given, if it is this one, is switched off. -/
theorem describes_off (h : Describes s a) (attr d x y : U32)
    (hx : x ≠ 0 ↔ s.hasNrms ≠ 0 ∧ attr ≠ GX_VA_NRM) (hy : y ≠ 0 ↔ s.hasBinrms ≠ 0 ∧ attr ≠ GX_VA_NBT) :
    Describes { { s with hasNrms := x, hasBinrms := y }.set .gcGxVcdLo 2 11
      (if x ≠ 0 ∨ y ≠ 0 then s.nrmType else 0) with dirtyState := d }
      { a with normals := a.normals.filter fun z => z.1 ≠ attr } := by
  have hgiven : ∀ attr', (∃ type, (a.normals.filter fun z => z.1 ≠ attr) = some (attr', type)) ↔
      (∃ type, a.normals = some (attr', type)) ∧ attr ≠ attr' := by
    intro attr'
    simp only [Option.filter_eq_some_iff, decide_eq_true_eq]
    exact ⟨fun hz => ⟨hz.imp fun _ hz => hz.1, Ne.symm hz.choose_spec.2⟩, fun hz => hz.1.imp fun _ hn => ⟨hn, hz.2.symm⟩⟩
  apply describes_normals (s := { s with hasNrms := x, hasBinrms := y })
  · intro f hf
    rw [value_normals _ hf]
    exact h.fields f
  · exact h.rest
  · rw [hgiven, ← h.nrms]
    exact hx
  · rw [hgiven, ← h.binrms]
    exact hy
  · intro z hz
    exact h.normals z (Option.filter_eq_some_iff.mp hz).1

theorem describes_set (h : Describes s a) (attr type : U32) :
    Describes (GXSetVtxDesc s attr type) (a.call (.GXSetVtxDesc attr type)) := by
  have hfields : ∀ f ≠ .nrm, (vcdPlace f).read s.vcd = a.value f &&& ones 32 (vcdPlace f).size := fun f _ => h.fields f
  rw [GXSetVtxDesc, Desc.call]
  by_cases hn : attr = GX_VA_NRM ∨ attr = GX_VA_NBT
  · rw [if_pos hn]
    by_cases ht : type = 0
    · rw [if_neg (not_not.mpr ht), ht]
      cases hn with
      | inl he =>
        subst he
        exact describes_off h GX_VA_NRM _ 0 s.hasBinrms (by simp) (iff_self_and.mpr fun _ => by decide)
      | inr he =>
        subst he
        exact describes_off h GX_VA_NBT _ s.hasNrms 0 (iff_self_and.mpr fun _ => by decide) (by simp)
    · rw [if_pos ht]
      cases hn with
      | inl he =>
        subst he
        have hs : gcGxSetVcdAttr s GX_VA_NRM type = { s with hasNrms := 1, hasBinrms := 0, nrmType := type } := if_pos ht
        rw [hs]
        exact describes_on h (.inl rfl) _ 1 0 (by decide) (by decide)
      | inr he =>
        subst he
        have hs : gcGxSetVcdAttr s GX_VA_NBT type = { s with hasNrms := 0, hasBinrms := 1, nrmType := type } := if_pos ht
        rw [hs]
        exact describes_on h (.inr rfl) _ 0 1 (by decide) (by decide)
  · rw [if_neg hn]
    rw [not_or] at hn
    by_cases hf : ∃ f, attrOf f = attr
    · obtain ⟨f, rfl⟩ := hf
      have hnf : f ≠ .nrm := fun he => hn.1 (he ▸ rfl)
      rw [gcGxSetVcdAttr_field s hnf]
      apply describes_normals
      · intro g hg
        have hval : ({ a with type := update a.type (attrOf f) type } : Desc).value g =
            if g = f then type else a.value g := by
          cases g with
          | nrm => exact absurd rfl hg
          | _ => simp only [Desc.value, update, attrOf_injective.eq_iff, eq_rec_constant, dite_eq_ite]
        rw [hval, read_write vcdPlace_layout]
        split
        · rename_i he
          rw [he]
        · exact h.fields g
      · intro r i hi hr
        exact (Place.write_bit_outside hi (hr f)).trans (h.rest r i hi hr)
      · exact h.nrms
      · exact h.binrms
      · exact h.normals
    · have hno : ∀ f, attrOf f ≠ attr := fun f he => hf ⟨f, he⟩
      rw [gcGxSetVcdAttr_other s hno hn.2]
      apply describes_normals
      · intro g hg
        have hval : ({ a with type := update a.type attr type } : Desc).value g = a.value g := by
          cases g with
          | nrm => exact absurd rfl hg
          | _ => simp only [Desc.value, update_of_ne (hno _)]
        rw [hval]
        exact h.fields g
      · exact h.rest
      · exact h.nrms
      · exact h.binrms
      · exact h.normals

theorem clear_vcd (s : VtxDesc) : (GXClearVtxDesc s).vcd = fun r => if r = .gcGxVcdLo then 0x200 else 0 := by
  have hpos : setField 0 2 9 1 = 0x200 := by decide
  funext r
  cases r with
  | gcGxVcdHi => rfl
  | gcGxVcdLo =>
    rw [GXClearVtxDesc, VtxDesc.set]
    dsimp only
    rw [update_of_ne (by decide), update_self, update_self, hpos]
    rfl

/-- Clearing forgets whatever was there. -/
theorem describes_clear (s : VtxDesc) : Describes (GXClearVtxDesc s) Desc.clear where
  fields := by
    rw [clear_vcd]
    decide +kernel
  rest r i hi hr := by
    have hbits : ∀ i < 32, i ≠ 9 → (0x200 : U32).getLsbD i = false := by decide
    rw [clear_vcd]
    cases r with
    | gcGxVcdHi => exact BitVec.getLsbD_zero
    | gcGxVcdLo => exact hbits i hi fun h9 => hr .pos ⟨rfl, by simp [vcdPlace, h9], by simp [vcdPlace, h9]⟩
  nrms := by simp [GXClearVtxDesc, Desc.clear, VtxDesc.set]
  binrms := by simp [GXClearVtxDesc, Desc.clear, VtxDesc.set]
  normals := by simp [Desc.clear]

theorem describes_exec (h : Describes s a) (c : DescCall) : Describes (execDesc s c) (a.call c) := by
  cases c with
  | GXSetVtxDesc attr type => exact describes_set h attr type
  | GXClearVtxDesc => exact describes_clear s

theorem describes_run (h : Describes s a) (calls : List DescCall) :
    Describes (calls.foldl execDesc s) (calls.foldl Desc.call a) := by
  induction calls generalizing s a with
  | nil => exact h
  | cons c calls ih => exact ih (describes_exec h c)

/-- From the first time it is cleared the descriptor holds for each attribute the type it was given
last, for at most one kind of normals, and no other bit. -/
theorem descriptor_lastWriter (s : VtxDesc) (calls : List DescCall) :
    Describes ((DescCall.GXClearVtxDesc :: calls).foldl execDesc s) (calls.foldl Desc.call Desc.clear) :=
  describes_run (describes_clear s) calls

end SdkPort.GX
