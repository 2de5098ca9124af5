import Mathlib.Data.Fin.VecNotation
import Mathlib.Data.Fintype.Sum
import Mathlib.Tactic.DeriveFintype
import SdkPort.GX.PackedState
import SdkPort.Lib.BitFields

/-!
# The fields of the packed registers

Each setter stores values into fields that belong to its attribute, stage, selector or
table. No two fields share a bit.
-/
namespace SdkPort.GX

open BitFields (Place Layout storeAll lastValue ones)
open Function (update update_self update_idem)

/-- The fields of a vertex format. A normal of three vectors has a field of its own for them. -/
inductive VatPart where
  | posCnt | posType | posShft
  | nrmCnt | nrmType | nrmIndex3
  | clrCnt (i : Fin 2) | clrType (i : Fin 2)
  | texCnt (i : Fin 8) | texType (i : Fin 8) | texShft (i : Fin 8)
  deriving DecidableEq, Fintype

/-- The fields of a stage of the TEV, for colour and for alpha. -/
inductive TevcPart where
  | a | b | c | d | bias | op | clamp | scale | outReg
  deriving DecidableEq

instance : Fintype TevcPart where
  elems := {.a, .b, .c, .d, .bias, .op, .clamp, .scale, .outReg}
  complete x := by cases x <;> decide

inductive TevaPart where
  | rasSel | texSel | a | b | c | d | bias | op | clamp | scale | outReg
  deriving DecidableEq

instance : Fintype TevaPart where
  elems := {.rasSel, .texSel, .a, .b, .c, .d, .bias, .op, .clamp, .scale, .outReg}
  complete x := by cases x <;> decide

inductive Channel where
  | red | green | blue | alpha
  deriving DecidableEq

instance : Fintype Channel where
  elems := {.red, .green, .blue, .alpha}
  complete x := by cases x <;> decide

inductive Cmode0Part where
  | blendEnable | logic | dither | alphaUpdate | dstFactor | srcFactor | subtract | op | id
  deriving DecidableEq

instance : Fintype Cmode0Part where
  elems := {.blendEnable, .logic, .dither, .alphaUpdate, .dstFactor, .srcFactor, .subtract, .op, .id}
  complete x := by cases x <;> decide

inductive Field where
  | vat (vtxfmt : Nat) (part : VatPart)
  | tevc (stage : Nat) (part : TevcPart)
  | teva (stage : Nat) (part : TevaPart)
  | kColorSel (stage : Nat)
  | kAlphaSel (stage : Nat)
  | swap (table : Nat) (channel : Channel)
  | cmode0 (part : Cmode0Part)
  deriving DecidableEq

section Places

inductive VatReg where
  | a | b | c
  deriving DecidableEq

def VatReg.reg (vtxfmt : Nat) : VatReg → Reg
  | a => .gcGxVatA vtxfmt
  | b => .gcGxVatB vtxfmt
  | c => .gcGxVatC vtxfmt

def vatPlace : VatPart → Place VatReg
  | .posCnt => ⟨.a, 1, 0⟩
  | .posType => ⟨.a, 3, 1⟩
  | .posShft => ⟨.a, 5, 4⟩
  | .nrmCnt => ⟨.a, 1, 9⟩
  | .nrmType => ⟨.a, 3, 10⟩
  | .nrmIndex3 => ⟨.a, 1, 31⟩
  | .clrCnt i => ⟨.a, 1, 13 + 4 * i⟩
  | .clrType i => ⟨.a, 3, 14 + 4 * i⟩
  | .texCnt i => ⟨![.a, .b, .b, .b, .b, .c, .c, .c] i, 1, ![21, 0, 9, 18, 27, 5, 14, 23] i⟩
  | .texType i => ⟨![.a, .b, .b, .b, .b, .c, .c, .c] i, 3, ![22, 1, 10, 19, 28, 6, 15, 24] i⟩
  | .texShft i => ⟨![.a, .b, .b, .b, .c, .c, .c, .c] i, 5, ![25, 4, 13, 22, 0, 9, 18, 27] i⟩

def tevcPlace : TevcPart → Place Unit
  | .d => ⟨(), 4, 0⟩
  | .c => ⟨(), 4, 4⟩
  | .b => ⟨(), 4, 8⟩
  | .a => ⟨(), 4, 12⟩
  | .bias => ⟨(), 2, 16⟩
  | .op => ⟨(), 1, 18⟩
  | .clamp => ⟨(), 1, 19⟩
  | .scale => ⟨(), 2, 20⟩
  | .outReg => ⟨(), 2, 22⟩

def tevaPlace : TevaPart → Place Unit
  | .rasSel => ⟨(), 2, 0⟩
  | .texSel => ⟨(), 2, 2⟩
  | .d => ⟨(), 3, 4⟩
  | .c => ⟨(), 3, 7⟩
  | .b => ⟨(), 3, 10⟩
  | .a => ⟨(), 3, 13⟩
  | .bias => ⟨(), 2, 16⟩
  | .op => ⟨(), 1, 18⟩
  | .clamp => ⟨(), 1, 19⟩
  | .scale => ⟨(), 2, 20⟩
  | .outReg => ⟨(), 2, 22⟩

/-- The word of a table, counted from its first one. -/
def swapPlace : Channel → Place Nat
  | .red => ⟨0, 2, 0⟩
  | .green => ⟨0, 2, 2⟩
  | .blue => ⟨1, 2, 0⟩
  | .alpha => ⟨1, 2, 2⟩

def cmode0Place : Cmode0Part → Place Unit
  | .blendEnable => ⟨(), 1, 0⟩
  | .logic => ⟨(), 1, 1⟩
  | .dither => ⟨(), 1, 2⟩
  | .alphaUpdate => ⟨(), 1, 4⟩
  | .dstFactor => ⟨(), 3, 5⟩
  | .srcFactor => ⟨(), 3, 8⟩
  | .subtract => ⟨(), 1, 11⟩
  | .op => ⟨(), 4, 12⟩
  | .id => ⟨(), 8, 24⟩

def place : Field → Place Reg
  | .vat vtxfmt part => ⟨(vatPlace part).word.reg vtxfmt, (vatPlace part).size, (vatPlace part).shift⟩
  | .tevc stage part => ⟨.gcGxTevc stage, (tevcPlace part).size, (tevcPlace part).shift⟩
  | .teva stage part => ⟨.gcGxTeva stage, (tevaPlace part).size, (tevaPlace part).shift⟩
  | .kColorSel stage => ⟨.gcGxTevKsel (stage / 2), 5, if stage % 2 = 1 then 14 else 4⟩
  | .kAlphaSel stage => ⟨.gcGxTevKsel (stage / 2), 5, if stage % 2 = 1 then 19 else 9⟩
  | .swap table channel =>
    ⟨.gcGxTevKsel (table * 2 + (swapPlace channel).word), (swapPlace channel).size, (swapPlace channel).shift⟩
  | .cmode0 part => ⟨.gcGxCmode0, (cmode0Place part).size, (cmode0Place part).shift⟩

instance {ι : Type} [DecidableEq ι] (p q : Place ι) : Decidable (p.Apart q) :=
  inferInstanceAs (Decidable (_ ∨ _ ∨ _))

theorem vatPlace_apart : ∀ p q : VatPart, p ≠ q → (vatPlace p).Apart (vatPlace q) := by decide +kernel

theorem tevcPlace_apart : ∀ p q : TevcPart, p ≠ q → (tevcPlace p).Apart (tevcPlace q) := by decide +kernel

theorem tevaPlace_apart : ∀ p q : TevaPart, p ≠ q → (tevaPlace p).Apart (tevaPlace q) := by decide +kernel

theorem swapPlace_apart : ∀ p q : Channel, p ≠ q → (swapPlace p).Apart (swapPlace q) := by decide +kernel

theorem cmode0Place_apart : ∀ p q : Cmode0Part, p ≠ q → (cmode0Place p).Apart (cmode0Place q) := by decide +kernel

theorem apart_of_word {ι : Type} [DecidableEq ι] {p q : Place ι}
    (h : p.word = q.word → p.shift + p.size ≤ q.shift ∨ q.shift + q.size ≤ p.shift) : p.Apart q := by
  by_cases hw : p.word = q.word
  · exact .inr (h hw)
  · exact .inl hw

theorem VatReg.reg_injective {i j : Nat} {x y : VatReg} (h : x.reg i = y.reg j) : i = j ∧ x = y := by
  cases x <;> cases y <;> simp_all [VatReg.reg]

theorem vat_apart {i j : Nat} {p q : VatPart} (h : Field.vat i p ≠ .vat j q) :
    (place (.vat i p)).Apart (place (.vat j q)) := by
  apply apart_of_word
  intro hw
  obtain ⟨rfl, hreg⟩ := VatReg.reg_injective hw
  exact (vatPlace_apart p q (fun he => h (he ▸ rfl))).resolve_left (not_not.mpr hreg)

theorem tevc_apart {i j : Nat} {p q : TevcPart} (h : Field.tevc i p ≠ .tevc j q) :
    (place (.tevc i p)).Apart (place (.tevc j q)) := by
  apply apart_of_word
  intro hw
  obtain rfl := Reg.gcGxTevc.inj hw
  exact (tevcPlace_apart p q (fun he => h (he ▸ rfl))).resolve_left (not_not.mpr rfl)

theorem teva_apart {i j : Nat} {p q : TevaPart} (h : Field.teva i p ≠ .teva j q) :
    (place (.teva i p)).Apart (place (.teva j q)) := by
  apply apart_of_word
  intro hw
  obtain rfl := Reg.gcGxTeva.inj hw
  exact (tevaPlace_apart p q (fun he => h (he ▸ rfl))).resolve_left (not_not.mpr rfl)

/-- Two channels of one table, or of two tables. -/
theorem swap_apart {i j : Nat} {p q : Channel} (h : Field.swap i p ≠ .swap j q) :
    (place (.swap i p)).Apart (place (.swap j q)) := by
  apply apart_of_word
  intro hw
  have hidx := Reg.gcGxTevKsel.inj hw
  have htwo : ∀ p : Channel, (swapPlace p).word < 2 := by decide
  have hp := htwo p
  have hq := htwo q
  obtain rfl : i = j := by omega
  exact (swapPlace_apart p q (fun he => h (he ▸ rfl))).resolve_left (not_not.mpr (by omega))

/-- The channels of a table lie below the selectors of the two stages. -/
theorem swap_apart_sel {i j shift : Nat} {p : Channel} (h : 4 ≤ shift) :
    (place (.swap i p)).Apart ⟨.gcGxTevKsel j, 5, shift⟩ := by
  have hlow : ∀ p : Channel, (swapPlace p).shift + (swapPlace p).size ≤ 4 := by decide
  exact .inr (.inl ((hlow p).trans h))

theorem Apart.symm {ι : Type} {p q : Place ι} (h : p.Apart q) : q.Apart p :=
  h.imp Ne.symm Or.symm

/-- No two fields share a bit. -/
theorem place_apart (f g : Field) (h : f ≠ g) : (place f).Apart (place g) := by
  cases f with
  | vat i p =>
    cases g with
    | vat j q => exact vat_apart h
    | _ => exact .inl (by cases hp : (vatPlace p).word <;> simp [place, VatReg.reg, hp])
  | tevc i p =>
    cases g with
    | tevc j q => exact tevc_apart h
    | vat j q => exact .inl (by cases hq : (vatPlace q).word <;> simp [place, VatReg.reg, hq])
    | _ => exact .inl (by simp [place])
  | teva i p =>
    cases g with
    | teva j q => exact teva_apart h
    | vat j q => exact .inl (by cases hq : (vatPlace q).word <;> simp [place, VatReg.reg, hq])
    | _ => exact .inl (by simp [place])
  | kColorSel i =>
    cases g with
    | vat j q => exact .inl (by cases hq : (vatPlace q).word <;> simp [place, VatReg.reg, hq])
    | kColorSel j =>
      apply apart_of_word
      intro hw
      have hij := Reg.gcGxTevKsel.inj hw
      have hne : i ≠ j := fun he => h (he ▸ rfl)
      simp only [place]
      split <;> split <;> omega
    | kAlphaSel j =>
      apply apart_of_word
      intro hw
      simp only [place]
      split <;> split <;> omega
    | swap j q => exact Apart.symm (swap_apart_sel (by split <;> omega))
    | _ => exact .inl (by simp [place])
  | kAlphaSel i =>
    cases g with
    | vat j q => exact .inl (by cases hq : (vatPlace q).word <;> simp [place, VatReg.reg, hq])
    | kColorSel j =>
      apply apart_of_word
      intro hw
      simp only [place]
      split <;> split <;> omega
    | kAlphaSel j =>
      apply apart_of_word
      intro hw
      have hij := Reg.gcGxTevKsel.inj hw
      have hne : i ≠ j := fun he => h (he ▸ rfl)
      simp only [place]
      split <;> split <;> omega
    | swap j q => exact Apart.symm (swap_apart_sel (by split <;> omega))
    | _ => exact .inl (by simp [place])
  | swap i p =>
    cases g with
    | vat j q => exact .inl (by cases hq : (vatPlace q).word <;> simp [place, VatReg.reg, hq])
    | swap j q => exact swap_apart h
    | kColorSel j => exact swap_apart_sel (by split <;> omega)
    | kAlphaSel j => exact swap_apart_sel (by split <;> omega)
    | _ => exact .inl (by simp [place])
  | cmode0 p =>
    cases g with
    | vat j q => exact .inl (by cases hq : (vatPlace q).word <;> simp [place, VatReg.reg, hq])
    | cmode0 q => exact (cmode0Place_apart p q (fun he => h (he ▸ rfl))).imp (fun hw => (hw rfl).elim) id
    | _ => exact .inl (by simp [place])

theorem place_fits (f : Field) : (place f).shift + (place f).size ≤ 32 := by
  cases f with
  | vat i p =>
    have hfit : ∀ p : VatPart, (vatPlace p).shift + (vatPlace p).size ≤ 32 := by decide +kernel
    exact hfit p
  | tevc i p =>
    have hfit : ∀ p : TevcPart, (tevcPlace p).shift + (tevcPlace p).size ≤ 32 := by decide +kernel
    exact hfit p
  | teva i p =>
    have hfit : ∀ p : TevaPart, (tevaPlace p).shift + (tevaPlace p).size ≤ 32 := by decide +kernel
    exact hfit p
  | kColorSel i => simp only [place]; split <;> decide
  | kAlphaSel i => simp only [place]; split <;> decide
  | swap i p =>
    have hfit : ∀ p : Channel, (swapPlace p).shift + (swapPlace p).size ≤ 32 := by decide
    exact hfit p
  | cmode0 p =>
    have hfit : ∀ p : Cmode0Part, (cmode0Place p).shift + (cmode0Place p).size ≤ 32 := by decide
    exact hfit p

theorem place_layout : Layout 32 place := ⟨place_fits, place_apart⟩

end Places

end SdkPort.GX
