import Mathlib.Logic.Function.Basic
import SdkPort.Lib.BitFields

/-!
# The audio interface

`ai.c`: the volumes and the play state of the stream and the address of the DMA, packed into
registers.
-/
namespace SdkPort.AI

open BitFields (Place Layout ones put)
open Function (update)

abbrev U32 := BitVec 32
abbrev U16 := BitVec 16
abbrev U8 := BitVec 8

/-- The registers of the audio interface and those of the DSP that it uses, four of each. -/
structure AiState where
  gcAiRegs : Nat → U32
  gcAiDspRegs : Nat → U16

def AiState.setReg (s : AiState) (i : Nat) (v : U32) : AiState :=
  { s with gcAiRegs := update s.gcAiRegs i v }

def AiState.setDspReg (s : AiState) (i : Nat) (v : U32) : AiState :=
  { s with gcAiDspRegs := update s.gcAiDspRegs i (v.setWidth 16) }

/-- A register of the DSP as it enters an expression. -/
def AiState.dspReg (s : AiState) (i : Nat) : U32 := (s.gcAiDspRegs i).setWidth 32

def AIInitDMA (s : AiState) (addr length : U32) : AiState :=
  let s := s.setDspReg 0 ((s.dspReg 0 &&& ~~~0x3FF#32) ||| (addr >>> 16))
  let s := s.setDspReg 1 ((s.dspReg 1 &&& ~~~0xFFE0#32) ||| (0xFFFF#32 &&& addr))
  s.setDspReg 3 ((s.dspReg 3 &&& ~~~0x7FFF#32) ||| ((length >>> 5) &&& 0xFFFF#32))

def AIStartDMA (s : AiState) : AiState := s.setDspReg 3 (s.dspReg 3 ||| 0x8000#32)

def AIGetDMAStartAddr (s : AiState) : U32 := ((s.dspReg 0 &&& 0x03FF#32) <<< 16) ||| (s.dspReg 1 &&& 0xFFE0#32)

def AIGetStreamPlayState (s : AiState) : U32 := s.gcAiRegs 0 &&& 1#32

def AIGetStreamSampleRate (s : AiState) : U32 := (s.gcAiRegs 0 >>> 1) &&& 1#32

def AISetStreamVolLeft (s : AiState) (volume : U8) : AiState :=
  s.setReg 1 ((s.gcAiRegs 1 &&& ~~~0xFF#32) ||| (volume.setWidth 32 &&& 0xFF#32))

def AIGetStreamVolLeft (s : AiState) : U8 := (s.gcAiRegs 1).setWidth 8

def AISetStreamVolRight (s : AiState) (volume : U8) : AiState :=
  s.setReg 1 ((s.gcAiRegs 1 &&& ~~~0xFF00#32) ||| ((volume.setWidth 32 &&& 0xFF#32) <<< 8))

def AIGetStreamVolRight (s : AiState) : U8 := (s.gcAiRegs 1 >>> 8).setWidth 8

def AISetStreamPlayState (s : AiState) (state : U32) : AiState :=
  if state = AIGetStreamPlayState s then s
  else if AIGetStreamSampleRate s = 0 ∧ state = 1 then
    let volRight := AIGetStreamVolRight s
    let volLeft := AIGetStreamVolLeft s
    let s := AISetStreamVolRight s 0
    let s := AISetStreamVolLeft s 0
    let s := s.setReg 0 ((s.gcAiRegs 0 &&& ~~~0x20#32) ||| 0x20#32)
    let s := s.setReg 0 ((s.gcAiRegs 0 &&& ~~~1#32) ||| 1#32)
    -- The right volume goes to the left and the left one to the right.
    let s := AISetStreamVolLeft s volRight
    AISetStreamVolRight s volLeft
  else s.setReg 0 ((s.gcAiRegs 0 &&& ~~~1#32) ||| state)

/-- The bit of the DSP that starts the DMA. -/
def dmaStarted (s : AiState) : Bool := (s.gcAiDspRegs 3).getLsbD 15

/-- The cells of the registers of the audio interface. -/
inductive AiCell where
  | play | rate | bit5 | volLeft | volRight
  deriving DecidableEq

/-- The cells of the registers of the DSP. -/
inductive DspCell where
  | addrHigh | addrLow | length | start
  deriving DecidableEq

def aiPlace : AiCell → Place Nat
  | .play => ⟨0, 1, 0⟩
  | .rate => ⟨0, 1, 1⟩
  | .bit5 => ⟨0, 1, 5⟩
  | .volLeft => ⟨1, 8, 0⟩
  | .volRight => ⟨1, 8, 8⟩

def dspPlace : DspCell → Place Nat
  | .addrHigh => ⟨0, 10, 0⟩
  | .addrLow => ⟨1, 11, 5⟩
  | .length => ⟨3, 15, 0⟩
  | .start => ⟨3, 1, 15⟩

theorem aiLayout : Layout 32 aiPlace where
  fits f := by cases f <;> decide
  apart f g h := by
    cases f <;> cases g <;> first
      | exact absurd rfl h
      | exact Or.inl (by decide)
      | exact Or.inr (by decide)

theorem dspLayout : Layout 16 dspPlace where
  fits f := by cases f <;> decide
  apart f g h := by
    cases f <;> cases g <;> first
      | exact absurd rfl h
      | exact Or.inl (by decide)
      | exact Or.inr (by decide)

def AiState.cell (s : AiState) (c : AiCell) : U32 := (aiPlace c).read s.gcAiRegs

def AiState.dspCell (s : AiState) (c : DspCell) : U16 := (dspPlace c).read s.gcAiDspRegs

def AiState.writeCell (s : AiState) (c : AiCell) (v : U32) : AiState :=
  { s with gcAiRegs := (aiPlace c).write s.gcAiRegs v }

def AiState.writeDspCell (s : AiState) (c : DspCell) (v : U16) : AiState :=
  { s with gcAiDspRegs := (dspPlace c).write s.gcAiDspRegs v }

variable {s : AiState} {c d : AiCell} {c' d' : DspCell} {v state addr length : U32} {v' : U16} {volume : U8}

@[simp] theorem cell_writeCell :
    (s.writeCell d v).cell c = if c = d then v &&& ones 32 (aiPlace c).size else s.cell c := aiLayout.read_write

@[simp] theorem dspCell_writeDspCell :
    (s.writeDspCell d' v').dspCell c' = if c' = d' then v' &&& ones 16 (dspPlace c').size else s.dspCell c' :=
  dspLayout.read_write

@[simp] theorem dspCell_writeCell : (s.writeCell c v).dspCell c' = s.dspCell c' := rfl

@[simp] theorem cell_writeDspCell : (s.writeDspCell c' v').cell c = s.cell c := rfl

theorem AISetStreamVolLeft_eq : AISetStreamVolLeft s volume = s.writeCell .volLeft (volume.setWidth 32) := by
  have hshift : volume.setWidth 32 &&& 0xFF#32 = (volume.setWidth 32 <<< 0) &&& (ones 32 8 <<< 0) := by
    rw [BitVec.shiftLeft_zero]
    rfl
  rw [AISetStreamVolLeft, hshift]
  rfl

theorem AISetStreamVolRight_eq : AISetStreamVolRight s volume = s.writeCell .volRight (volume.setWidth 32) := by
  rw [AISetStreamVolRight, BitVec.shiftLeft_and_distrib]
  rfl

theorem setPlay_eq (state : U32) (hstate : state = 0 ∨ state = 1) :
    s.setReg 0 ((s.gcAiRegs 0 &&& ~~~1#32) ||| state) = s.writeCell .play state := by
  obtain rfl | rfl := hstate <;> rfl

theorem setBit5_eq : s.setReg 0 ((s.gcAiRegs 0 &&& ~~~0x20#32) ||| 0x20#32) = s.writeCell .bit5 1 := rfl

/-- A byte is all of a word that is left under a mask of eight bits. -/
theorem setWidth_mask (x : U32) : (x &&& 0xFF#32).setWidth 8 = x.setWidth 8 := by
  rw [BitVec.setWidth_and]
  exact BitVec.and_allOnes

theorem mask_byte (volume : U8) : (volume.setWidth 32 &&& 0xFF#32).setWidth 8 = volume := by
  rw [setWidth_mask, BitVec.setWidth_setWidth_of_le _ (by decide), BitVec.setWidth_eq]

theorem AIGetStreamVolLeft_eq : AIGetStreamVolLeft s = (s.cell .volLeft).setWidth 8 := (setWidth_mask _).symm

theorem AIGetStreamVolRight_eq : AIGetStreamVolRight s = (s.cell .volRight).setWidth 8 := (setWidth_mask _).symm

/-- An assignment to a register of the DSP that replaces a cell. -/
theorem setDspReg_eq (c' : DspCell) (mask : U32)
    (hmask : mask.setWidth 16 = ones 16 (dspPlace c').size <<< (dspPlace c').shift)
    (hv : v.setWidth 16 = (v' &&& ones 16 (dspPlace c').size) <<< (dspPlace c').shift) :
    s.setDspReg (dspPlace c').word ((s.dspReg (dspPlace c').word &&& ~~~mask) ||| v) = s.writeDspCell c' v' := by
  have hput : ((s.dspReg (dspPlace c').word &&& ~~~mask) ||| v).setWidth 16 =
      put (s.gcAiDspRegs (dspPlace c').word) (dspPlace c').size (dspPlace c').shift v' := by
    rw [BitVec.setWidth_or, BitVec.setWidth_and, BitVec.setWidth_not (by decide), hmask, hv, AiState.dspReg,
      BitVec.setWidth_setWidth_of_le _ (by decide), BitVec.setWidth_eq, put, BitVec.shiftLeft_and_distrib]
  rw [AiState.setDspReg, hput]
  rfl

/-- The bits of an argument that a cell has room for. -/
theorem fits_cell {size shift : Nat} (h : v.toNat % 2 ^ 16 = v'.toNat % 2 ^ size * 2 ^ shift) :
    v.setWidth 16 = (v' &&& ones 16 size) <<< shift := by
  apply BitVec.eq_of_toNat_eq
  rw [BitVec.toNat_setWidth, BitVec.toNat_shiftLeft, BitFields.toNat_and_ones, Nat.shiftLeft_eq, ← h, Nat.mod_mod]

theorem AIInitDMA_eq (halign : addr.toNat % 2 ^ 5 = 0) (haddr : addr.toNat < 2 ^ 26) (hlength : length.toNat < 2 ^ 20) :
    AIInitDMA s addr length = ((s.writeDspCell .addrHigh ((addr >>> 16).setWidth 16)).writeDspCell .addrLow
      ((addr >>> 5).setWidth 16)).writeDspCell .length ((length >>> 5).setWidth 16) := by
  have hhigh : (addr >>> 16).setWidth 16 = ((addr >>> 16).setWidth 16 &&& ones 16 10) <<< 0 := by
    apply fits_cell
    rw [BitVec.toNat_setWidth, BitVec.toNat_ushiftRight, Nat.shiftRight_eq_div_pow]
    omega
  have hlow : (0xFFFF#32 &&& addr).setWidth 16 = ((addr >>> 5).setWidth 16 &&& ones 16 11) <<< 5 := by
    apply fits_cell
    rw [BitVec.toNat_setWidth, BitVec.toNat_ushiftRight, Nat.shiftRight_eq_div_pow, BitVec.and_comm,
      show 0xFFFF#32 = ones 32 16 from rfl, BitFields.toNat_and_ones]
    omega
  have hlen : ((length >>> 5) &&& 0xFFFF#32).setWidth 16 = ((length >>> 5).setWidth 16 &&& ones 16 15) <<< 0 := by
    apply fits_cell
    rw [BitVec.toNat_setWidth, BitVec.toNat_ushiftRight, Nat.shiftRight_eq_div_pow,
      show 0xFFFF#32 = ones 32 16 from rfl, BitFields.toNat_and_ones, BitVec.toNat_ushiftRight,
      Nat.shiftRight_eq_div_pow]
    omega
  rw [← setDspReg_eq .addrHigh 0x3FF rfl hhigh, ← setDspReg_eq .addrLow 0xFFE0 rfl hlow,
    ← setDspReg_eq .length 0x7FFF rfl hlen]
  rfl

theorem AIStartDMA_eq : AIStartDMA s = s.writeDspCell .start 1 := by
  have hor : s.dspReg 3 ||| 0x8000#32 = (s.dspReg 3 &&& ~~~0x8000#32) ||| 0x8000#32 := by
    apply BitVec.eq_of_getLsbD_eq
    intro i hi
    rw [BitVec.getLsbD_or, BitVec.getLsbD_or, BitVec.getLsbD_and, BitVec.getLsbD_not]
    cases (0x8000#32).getLsbD i <;> simp [hi]
  rw [AIStartDMA, hor]
  exact setDspReg_eq .start 0x8000 rfl rfl

theorem dspReg_toNat (i : Nat) : (s.dspReg i).toNat = (s.gcAiDspRegs i).toNat :=
  BitVec.toNat_setWidth_of_le (by decide)

theorem addrHigh_toNat : (s.dspCell .addrHigh).toNat = (s.gcAiDspRegs 0).toNat % 2 ^ 10 :=
  BitFields.toNat_get.trans (congrArg (· % 2 ^ 10) (Nat.div_one _))

theorem addrLow_toNat : (s.dspCell .addrLow).toNat = (s.gcAiDspRegs 1).toNat / 2 ^ 5 % 2 ^ 11 := BitFields.toNat_get

/-- The start address as its two cells. -/
theorem AIGetDMAStartAddr_toNat : (AIGetDMAStartAddr s).toNat =
    (s.dspCell .addrHigh).toNat * 2 ^ 16 + (s.dspCell .addrLow).toNat * 2 ^ 5 := by
  have hhigh : ((s.dspReg 0 &&& 0x03FF#32) <<< 16).toNat = (s.dspCell .addrHigh).toNat <<< 16 := by
    rw [show 0x03FF#32 = ones 32 10 from rfl, BitVec.toNat_shiftLeft, BitFields.toNat_and_ones, dspReg_toNat,
      addrHigh_toNat, Nat.shiftLeft_eq]
    omega
  have hlow : (s.dspReg 1 &&& 0xFFE0#32).toNat = (s.dspCell .addrLow).toNat * 2 ^ 5 := by
    rw [show 0xFFE0#32 = ones 32 11 <<< 5 from rfl, BitFields.and_shiftLeft, BitVec.toNat_shiftLeft,
      BitFields.toNat_and_ones, BitVec.toNat_ushiftRight, Nat.shiftRight_eq_div_pow, Nat.shiftLeft_eq, dspReg_toNat,
      addrLow_toNat]
    omega
  have hlt : (s.dspCell .addrLow).toNat * 2 ^ 5 < 2 ^ 16 := by
    rw [addrLow_toNat]
    omega
  rw [AIGetDMAStartAddr, BitVec.toNat_or, hhigh, hlow, ← Nat.shiftLeft_add_eq_or_of_lt hlt, Nat.shiftLeft_eq]

theorem dmaStarted_eq : dmaStarted s = (s.dspCell .start).getLsbD 0 := by
  rw [AiState.dspCell, Place.read, BitFields.getLsbD_get (by decide)]
  rfl

end SdkPort.AI
