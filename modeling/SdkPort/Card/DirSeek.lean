import SdkPort.Card.DirLookup
import SdkPort.Lib.BitFields
import SdkPort.Lib.Chains

/-!
# Moving a file position

The block of a position is the one its offset lies in, whatever moves led there: a move
ahead goes on from the block it is at, a move back begins again at the first one.
-/
namespace SdkPort.CardDir

open Chains (Chained)
open Gc (GcMem u32)
open Linked (firstOf)

/-- Two bytes, the most significant first. -/
def word16 (f : Nat → UInt8) (a : Nat) : Nat := (f a).toNat * 2 ^ 8 + (f (a + 1)).toNat

/-- An attached card: its two tables are mapped, its sectors are of one of the six sizes. -/
structure Attached (card : DirControl) : Prop extends DirMapped card where
  attached : card.attached
  blocks : card.cBlock ≤ 4096
  sectors : ∃ k, 13 ≤ k ∧ k ≤ 18 ∧ card.sectorSize = 2 ^ k
  fatFits : card.fatAddr + 4096 * 2 ≤ 2 ^ 32
  fatMaps : card.mem.Maps card.fatAddr (card.fatAddr + 4096 * 2)

/-- The number of blocks in an entry. -/
def fileLength (card : DirControl) (fileNo : Nat) : Nat :=
  word16 card.mem.byte (card.dirAddr + fileNo * PORT_CARD_DIR_SIZE + PORT_CARD_DIR_OFF_LENGTH)

def fileStart (card : DirControl) (fileNo : Nat) : Nat :=
  word16 card.mem.byte (card.dirAddr + fileNo * PORT_CARD_DIR_SIZE + PORT_CARD_DIR_OFF_STARTBLOCK)

def fatWord (card : DirControl) (i : Nat) : Nat := word16 card.mem.byte (card.fatAddr + i * 2)

/-- An entry and the chain of its blocks. -/
structure FileChain (card : DirControl) (fileNo : Nat) (blocks : List Nat) : Prop where
  entry : fileNo < PORT_CARD_MAX_FILE
  nonempty : blocks ≠ []
  length : fileLength card fileNo = blocks.length
  start : fileStart card fileNo = firstOf 0xFFFF blocks
  chained : Chained 0xFFFF (fatWord card) blocks
  nodup : blocks.Nodup
  valid : ∀ x ∈ blocks, portCARDIsValidBlockNo card x

/-- The block of a position is the one its offset lies in. -/
structure At (card : DirControl) (blocks : List Nat) (f : FileInfo) : Prop where
  nonneg : 0 ≤ f.offset
  block : blocks[(f.offset / card.sectorSize).toNat]? = some f.iBlock

/-- Calls one after the other, whatever they return. -/
def seeks (card : DirControl) : FileInfo → List (Int × Int) → Option FileInfo
  | f, [] => some f
  | f, (length, offset) :: calls => (portCARDSeek card f length offset).bind fun (_, f) => seeks card f calls

variable {card : DirControl} {f : FileInfo} {m : GcMem} {blocks : List Nat} {a i k n fileNo : Nat}
  {length offset S t x : Int}

section Words

theorem loadU16be_eq (h : m.Maps a (a + 2)) : loadU16be m a = some (word16 m.byte a) := by
  have hb := h.1
  rw [loadU16be, GcMem.ptr_of_maps h, Option.map_some, word16]
  simp only [GcMem.byte]
  rw [show a + 1 - m.base = a - m.base + 1 by omega]

theorem s32_eq (hlo : -2 ^ 31 ≤ x) (hhi : x < 2 ^ 31) : s32 x = x := by
  rw [s32, Int.bmod_def]
  omega

theorem trunc_eq (h0 : 0 ≤ t) (ht : t < 2 ^ 31) : trunc t (2 ^ k) = t / 2 ^ k * 2 ^ k := by
  obtain ⟨n, rfl⟩ := Int.eq_ofNat_of_zero_le h0
  have hle : n / 2 ^ k * 2 ^ k ≤ n := Nat.div_mul_le_self n _
  have hones : BitVec.ofInt 32 (2 ^ k) - 1#32 = BitFields.ones 32 k := by
    have hpow : BitVec.ofInt 32 (2 ^ k) = 1#32 <<< k := by
      apply BitVec.eq_of_toNat_eq
      have hcast : (2 : Int) ^ k = ((2 ^ k : Nat) : Int) := (Int.natCast_pow 2 k).symm
      have hone : 1 % 2 ^ 32 = 1 := by decide
      rw [hcast, BitVec.ofInt_natCast, BitVec.toNat_shiftLeft, BitVec.toNat_ofNat, BitVec.toNat_ofNat, hone,
        Nat.one_shiftLeft]
    rw [hpow, BitFields.ones]
  rw [trunc, hones, BitVec.ofInt_natCast, BitFields.and_not_ones, BitVec.toInt_ofNat']
  exact s32_eq (by omega) (by omega)

end Words

namespace Attached

theorem sector_pos (h : Attached card) : 0 < card.sectorSize ∧ card.sectorSize ≤ 2 ^ 18 := by
  obtain ⟨k, -, hk, he⟩ := h.sectors
  rw [he]
  exact ⟨Int.pow_pos (by decide), pow_le_pow_right₀ (by decide) hk⟩

/-- A number of blocks of a card, in bytes. -/
theorem bytes (h : Attached card) (hn : n ≤ 4096) :
    0 ≤ n * card.sectorSize ∧ n * card.sectorSize ≤ 2 ^ 30 := by
  obtain ⟨h0, hle⟩ := h.sector_pos
  refine ⟨Int.mul_nonneg (by omega) (by omega), ?_⟩
  calc (n : Int) * card.sectorSize ≤ 4096 * 2 ^ 18 := Int.mul_le_mul (by omega) hle (by omega) (by decide)
    _ = 2 ^ 30 := by decide

theorem trunc_eq (h : Attached card) (h0 : 0 ≤ t) (ht : t < 2 ^ 31) :
    trunc t card.sectorSize = t / card.sectorSize * card.sectorSize := by
  obtain ⟨k, -, -, he⟩ := h.sectors
  rw [he]
  exact CardDir.trunc_eq h0 ht

theorem nextBlock_eq (h : Attached card) (hi : portCARDIsValidBlockNo card i) :
    nextBlock card i = some (fatWord card i) := by
  have hc := h.blocks
  have hv := hi.2
  have hf := h.fatFits
  obtain ⟨hlo, hhi⟩ := h.fatMaps
  have hu : u32 (card.fatAddr + i * 2) = card.fatAddr + i * 2 := Nat.mod_eq_of_lt (by omega)
  rw [nextBlock, hu]
  exact loadU16be_eq ⟨by omega, by omega⟩

theorem entLength_eq (h : Attached card) (hn : fileNo < PORT_CARD_MAX_FILE) :
    entLength card fileNo = some (fileLength card fileNo) := by
  have hlt : fileNo < 2 ^ 32 := Nat.lt_trans hn (by decide)
  have hmod : ((fileNo : Int) % 2 ^ 32).toNat = fileNo := by omega
  obtain ⟨ha, -, hm⟩ := h.addr hn PORT_CARD_DIR_OFF_LENGTH 2 (by decide) (by decide)
  rw [entLength, hmod, ha]
  exact loadU16be_eq hm

theorem entStartBlock_eq (h : Attached card) (hn : fileNo < PORT_CARD_MAX_FILE) :
    entStartBlock card fileNo = some (fileStart card fileNo) := by
  have hlt : fileNo < 2 ^ 32 := Nat.lt_trans hn (by decide)
  have hmod : ((fileNo : Int) % 2 ^ 32).toNat = fileNo := by omega
  obtain ⟨ha, -, hm⟩ := h.addr hn PORT_CARD_DIR_OFF_STARTBLOCK 2 (by decide) (by decide)
  rw [entStartBlock, hmod, ha]
  exact loadU16be_eq hm

end Attached

section Limits

/-- A position that lies on the card. -/
structure OnCard (card : DirControl) (fileNo : Nat) (f : FileInfo) : Prop where
  entry : fileNo < PORT_CARD_MAX_FILE
  file : f.fileNo = fileNo
  valid : portCARDIsValidBlockNo card f.iBlock
  nonneg : 0 ≤ f.offset
  lt : f.offset < card.cBlock * card.sectorSize

/-- A request is refused, as far as the sum of its two words tells. -/
def Refused (card : DirControl) (fileNo : Nat) (length offset : Int) : Prop :=
  fileLength card fileNo * card.sectorSize ≤ offset ∨
    fileLength card fileNo * card.sectorSize < s32 (offset + length)

instance (card : DirControl) (fileNo : Nat) (length offset : Int) : Decidable (Refused card fileNo length offset) :=
  inferInstanceAs (Decidable (_ ∨ _))

/-- A move ahead goes on from where it is, a move back from the start of the file. -/
theorem seek_eq (h : Attached card) (hf : OnCard card fileNo f) (hL : fileLength card fileNo ≤ 4091) :
    portCARDSeek card f length offset =
      if Refused card fileNo length offset then some (PORT_CARD_DIR_RESULT_LIMIT, f)
      else if offset < f.offset then
        if portCARDIsValidBlockNo card (fileStart card fileNo) then
          seekFrom card offset { f with length := length, offset := 0, iBlock := fileStart card fileNo }
        else some (PORT_CARD_DIR_RESULT_BROKEN,
          { f with length := length, offset := 0, iBlock := fileStart card fileNo })
      else seekFrom card offset { f with length := length } := by
  obtain ⟨h0, hle⟩ := h.bytes h.blocks
  obtain ⟨h0', hle'⟩ := h.bytes (n := fileLength card fileNo) (by omega)
  have hlt := hf.lt
  have hgood : ¬ (¬ portCARDIsValidBlockNo card f.iBlock ∨ s32 (card.cBlock * card.sectorSize) ≤ f.offset) := by
    rw [s32_eq (by omega) (by omega)]
    intro hbad
    cases hbad with
    | inl hv => exact hv hf.valid
    | inr hle => omega
  rw [portCARDSeek, if_neg (not_not.mpr h.attached), if_neg hgood, hf.file, h.entLength_eq hf.entry,
    h.entStartBlock_eq hf.entry, Option.bind_some, Option.bind_some, s32_eq (by omega) (by omega)]
  rfl

/-- The walk ends: the position comes closer at each step. -/
theorem seekLoop_ends (h : Attached card) (hv : portCARDIsValidBlockNo card f.iBlock) (h0 : 0 ≤ f.offset)
    (ht : 0 ≤ t) (ht' : t < 2 ^ 30) (hn : (t - f.offset).toNat < n) :
    ∃ done f', seekLoop card t n f = some (done, f') := by
  obtain ⟨hS, hS'⟩ := h.sector_pos
  have hround : t / card.sectorSize * card.sectorSize ≤ t := Int.ediv_mul_le t (by omega)
  induction n generalizing f with
  | zero => omega
  | succ n ih =>
    rw [seekLoop, h.trunc_eq ht (by omega)]
    by_cases hlt : f.offset < t / card.sectorSize * card.sectorSize
    · rw [if_pos hlt, h.nextBlock_eq hv, Option.bind_some, s32_eq (by omega) (by omega)]
      dsimp only
      by_cases hv' : portCARDIsValidBlockNo card (fatWord card f.iBlock)
      · rw [if_pos hv']
        exact ih hv' (by dsimp only; omega) (by dsimp only; omega)
      · exact ⟨false, _, if_neg hv'⟩
    · exact ⟨true, f, if_neg hlt⟩

theorem seekFrom_ends (h : Attached card) (hv : portCARDIsValidBlockNo card f.iBlock) (h0 : 0 ≤ f.offset)
    (ht : 0 ≤ t) (ht' : t < 2 ^ 30) : ∃ r f', seekFrom card t f = some (r, f') ∧ r ≠ PORT_CARD_DIR_RESULT_LIMIT := by
  obtain ⟨done, f', hr⟩ := seekLoop_ends (n := seekFuel t) h hv h0 ht ht' (by unfold seekFuel; omega)
  rw [seekFrom, hr]
  cases done with
  | true => exact ⟨_, _, rfl, by decide⟩
  | false => exact ⟨_, _, rfl, by decide⟩

/-- A request lies in the file. -/
def InFile (card : DirControl) (fileNo : Nat) (length offset : Int) : Prop :=
  offset < fileLength card fileNo * card.sectorSize ∧ offset + length ≤ fileLength card fileNo * card.sectorSize

/-- What is reported is right: only a request that lies in the file is ready, and any other
one is refused and changes nothing. -/
def LimitsRight (card : DirControl) (fileNo : Nat) (f : FileInfo) (length offset : Int) : Prop :=
  ∃ r f', portCARDSeek card f length offset = some (r, f') ∧
    (r = PORT_CARD_DIR_RESULT_READY → InFile card fileNo length offset) ∧
    (¬ InFile card fileNo length offset → r = PORT_CARD_DIR_RESULT_LIMIT ∧
      f'.offset = f.offset ∧ f'.length = f.length ∧ f'.iBlock = f.iBlock)

/-- A request that is not refused is neither. -/
theorem seek_ends (h : Attached card) (hf : OnCard card fileNo f) (hL : fileLength card fileNo ≤ 4091)
    (h0 : 0 ≤ offset) (hr : ¬ Refused card fileNo length offset) :
    ∃ r f', portCARDSeek card f length offset = some (r, f') ∧ r ≠ PORT_CARD_DIR_RESULT_LIMIT := by
  obtain ⟨-, hle'⟩ := h.bytes (n := fileLength card fileNo) (by omega)
  have hlt : offset < 2 ^ 30 := by
    rw [Refused, not_or] at hr
    omega
  rw [seek_eq h hf hL, if_neg hr]
  by_cases hback : offset < f.offset
  · rw [if_pos hback]
    by_cases hv : portCARDIsValidBlockNo card (fileStart card fileNo)
    · rw [if_pos hv]
      exact seekFrom_ends h hv (Int.le_refl 0) h0 hlt
    · exact ⟨_, _, if_neg hv, by decide⟩
  · rw [if_neg hback]
    exact seekFrom_ends h hf.valid hf.nonneg h0 hlt

/-- The limits are right exactly as long as the sum of the two words fits, or the offset
alone is out of the file. -/
theorem seek_limits (h : Attached card) (hf : OnCard card fileNo f) (hL : fileLength card fileNo ≤ 4091)
    (hlen : 0 ≤ length) (hlen' : length < 2 ^ 31) (hoff : 0 ≤ offset) (hoff' : offset < 2 ^ 31) :
    LimitsRight card fileNo f length offset ↔
      offset + length < 2 ^ 31 ∨ fileLength card fileNo * card.sectorSize ≤ offset := by
  obtain ⟨h0, hle⟩ := h.bytes (n := fileLength card fileNo) (by omega)
  by_cases hsum : offset + length < 2 ^ 31
  · -- the sum is exact, so that the refused requests are those that do not lie in the file
    have hiff : ¬ Refused card fileNo length offset ↔ InFile card fileNo length offset := by
      rw [Refused, s32_eq (by omega) hsum, InFile]
      omega
    refine iff_of_true ?_ (.inl hsum)
    by_cases hr : Refused card fileNo length offset
    · refine ⟨_, _, by rw [seek_eq h hf hL, if_pos hr], ?_, fun _ => ⟨rfl, rfl, rfl, rfl⟩⟩
      intro hready
      exact absurd hready (by decide)
    · obtain ⟨r, f', he, -⟩ := seek_ends h hf hL hoff hr
      exact ⟨r, f', he, fun _ => hiff.mp hr, fun hn => absurd (hiff.mp hr) hn⟩
  · by_cases hout : fileLength card fileNo * card.sectorSize ≤ offset
    · have hr : Refused card fileNo length offset := .inl hout
      refine iff_of_true ⟨_, _, by rw [seek_eq h hf hL, if_pos hr], ?_, fun _ => ⟨rfl, rfl, rfl, rfl⟩⟩ (.inr hout)
      intro hready
      exact absurd hready (by decide)
    · -- the sum wraps to a negative number and passes
      have hneg : s32 (offset + length) = offset + length - 2 ^ 32 := by
        rw [s32, Int.bmod_def]
        omega
      have hr : ¬ Refused card fileNo length offset := by
        rw [Refused, hneg]
        omega
      have hin : ¬ InFile card fileNo length offset := by
        rw [InFile]
        omega
      obtain ⟨r, f', he, hne⟩ := seek_ends h hf hL hoff hr
      refine iff_of_false ?_ (by omega)
      intro ⟨r', f'', he', _, hlim⟩
      rw [he, Option.some_inj, Prod.mk.injEq] at he'
      exact hne (he'.1.trans (hlim hin).1)

end Limits

section Position

theorem At.lt (h : At card blocks f) : (f.offset / card.sectorSize).toNat < blocks.length :=
  (List.getElem?_eq_some_iff.mp h.block).1

theorem FileChain.length_le (hc : FileChain card fileNo blocks) : blocks.length ≤ card.cBlock - 5 := by
  have hlen : (List.range' 5 (card.cBlock - 5)).length = card.cBlock - 5 := List.length_range'
  rw [← hlen]
  apply (hc.nodup.subperm _).length_le
  intro x hx
  have hv := hc.valid x hx
  unfold portCARDIsValidBlockNo PORT_CARD_DIR_NUM_SYSTEM_BLOCK at hv
  rw [List.mem_range'_1]
  omega

/-- One sector further on is the next block. -/
theorem At.next (hat : At card blocks f) (h : Attached card) (hc : FileChain card fileNo blocks)
    (hlt : f.offset / card.sectorSize + 1 < blocks.length) : At card blocks
      { f with offset := f.offset + card.sectorSize, iBlock := fatWord card f.iBlock } := by
  obtain ⟨hS, -⟩ := h.sector_pos
  have hq := Int.ediv_nonneg hat.nonneg hS.le
  have h0 := hat.nonneg
  refine ⟨by dsimp only; omega, ?_⟩
  have hdiv : (f.offset + card.sectorSize) / card.sectorSize = f.offset / card.sectorSize + 1 := by
    have := Int.add_mul_ediv_right f.offset 1 hS.ne'
    rwa [one_mul] at this
  have hi : (f.offset / card.sectorSize + 1).toNat = (f.offset / card.sectorSize).toNat + 1 := by omega
  rw [hdiv, hi]
  exact hc.chained.next hat.block (by omega)

/-- The walk ends at the block the target lies in. -/
theorem seekLoop_walk (h : Attached card) (hc : FileChain card fileNo blocks) (hat : At card blocks f)
    (ht : 0 ≤ t) (hT : t / card.sectorSize < blocks.length) (hq : f.offset / card.sectorSize ≤ t / card.sectorSize)
    (hn : (t / card.sectorSize - f.offset / card.sectorSize).toNat < n) :
    ∃ o b, seekLoop card t n f = some (true, { f with offset := o, iBlock := b }) ∧
      blocks[(t / card.sectorSize).toNat]? = some b := by
  obtain ⟨hS, hS'⟩ := h.sector_pos
  have hlen := hc.length_le
  have hcard := h.blocks
  obtain ⟨-, hle⟩ := h.bytes (n := blocks.length) (by omega)
  have htL : t < blocks.length * card.sectorSize := (Int.ediv_lt_iff_lt_mul hS).mp hT
  have hround : t / card.sectorSize * card.sectorSize ≤ t := Int.ediv_mul_le t hS.ne'
  induction n generalizing f with
  | zero => omega
  | succ n ih =>
    rw [seekLoop, h.trunc_eq ht (by omega)]
    by_cases hlt : f.offset / card.sectorSize < t / card.sectorSize
    · have hv := hc.valid f.iBlock (List.mem_of_getElem? hat.block)
      have hnext := hat.next h hc (by omega)
      have hv' := hc.valid _ (List.mem_of_getElem? hnext.block)
      have ho : f.offset < t / card.sectorSize * card.sectorSize := (Int.ediv_lt_iff_lt_mul hS).mp hlt
      have h0 := hat.nonneg
      have hdiv := Int.add_mul_ediv_right f.offset 1 hS.ne'
      rw [one_mul] at hdiv
      rw [if_pos ho, h.nextBlock_eq hv, Option.bind_some, s32_eq (by omega) (by omega)]
      dsimp only
      rw [if_pos hv']
      exact ih hnext (by dsimp only; omega) (by dsimp only; omega)
    · have heq : f.offset / card.sectorSize = t / card.sectorSize := by omega
      exact ⟨f.offset, f.iBlock, if_neg fun ho => hlt ((Int.ediv_lt_iff_lt_mul hS).mpr ho), heq ▸ hat.block⟩

theorem seekFrom_at (h : Attached card) (hc : FileChain card fileNo blocks) (hat : At card blocks f)
    (ht : 0 ≤ t) (hT : t < blocks.length * card.sectorSize) (hq : f.offset ≤ t) :
    ∃ b, seekFrom card t f = some (PORT_CARD_DIR_RESULT_READY, { f with offset := t, iBlock := b }) ∧
      blocks[(t / card.sectorSize).toNat]? = some b := by
  obtain ⟨hS, -⟩ := h.sector_pos
  have hle : t / card.sectorSize ≤ t := Int.ediv_le_self _ ht
  have h0 := Int.ediv_nonneg hat.nonneg hS.le
  obtain ⟨o, b, hr, hb⟩ := seekLoop_walk (n := seekFuel t) h hc hat ht ((Int.ediv_lt_iff_lt_mul hS).mpr hT)
    (Int.ediv_le_ediv hS hq) (by unfold seekFuel; omega)
  refine ⟨b, ?_, hb⟩
  rw [seekFrom, hr]
  rfl

/-- A position in a file. -/
structure InChain (card : DirControl) (fileNo : Nat) (blocks : List Nat) (f : FileInfo) : Prop
    extends At card blocks f where
  file : f.fileNo = fileNo

/-- What is asked of a call: the words are not negative. -/
def Words (call : Int × Int) : Prop := 0 ≤ call.1 ∧ call.1 < 2 ^ 31 ∧ 0 ≤ call.2 ∧ call.2 < 2 ^ 31

/-- A call is granted and moves to where it was asked to, or changes nothing. -/
theorem seek_step (length : Int) (h : Attached card) (hc : FileChain card fileNo blocks) (hf : InChain card fileNo blocks f)
    (hoff : 0 ≤ offset) : ∃ r f', portCARDSeek card f length offset = some (r, f') ∧ InChain card fileNo blocks f' ∧
      (r = PORT_CARD_DIR_RESULT_READY ∧ f'.offset = offset ∨ r = PORT_CARD_DIR_RESULT_LIMIT ∧ f' = f) := by
  obtain ⟨hS, -⟩ := h.sector_pos
  have hlen := hc.length_le
  have hcard := h.blocks
  have hL : fileLength card fileNo ≤ 4091 := by
    rw [hc.length]
    omega
  have hon : OnCard card fileNo f := by
    refine ⟨hc.entry, hf.file, hc.valid _ (List.mem_of_getElem? hf.block), hf.nonneg, ?_⟩
    have hlt := hf.lt
    have hq := Int.ediv_nonneg hf.nonneg hS.le
    exact (Int.ediv_lt_iff_lt_mul hS).mp (by omega)
  rw [seek_eq h hon hL]
  by_cases hr : Refused card fileNo length offset
  · exact ⟨_, _, if_pos hr, hf, .inr ⟨rfl, rfl⟩⟩
  · have hlt : offset < blocks.length * card.sectorSize := by
      rw [Refused, not_or, hc.length] at hr
      omega
    have hat : ∀ {b}, blocks[(offset / card.sectorSize).toNat]? = some b →
        InChain card fileNo blocks { f with length := length, offset := offset, iBlock := b } :=
      fun hb => ⟨⟨hoff, hb⟩, hf.file⟩
    rw [if_neg hr]
    by_cases hback : offset < f.offset
    · have hstart : At card blocks { f with length := length, offset := 0, iBlock := fileStart card fileNo } := by
        refine ⟨Int.le_refl 0, ?_⟩
        rw [Int.zero_ediv, hc.start]
        exact Chains.firstOf_eq hc.nonempty
      have hv := hc.valid _ (List.mem_of_getElem? hstart.block)
      obtain ⟨b, hr', hb⟩ := seekFrom_at h hc hstart hoff hlt hoff
      rw [if_pos hback, if_pos hv]
      exact ⟨_, _, hr', hat hb, .inl ⟨rfl, rfl⟩⟩
    · have hhere : At card blocks { f with length := length } := ⟨hf.nonneg, hf.block⟩
      obtain ⟨b, hr', hb⟩ := seekFrom_at h hc hhere hoff hlt (Int.not_lt.mp hback)
      rw [if_neg hback]
      exact ⟨_, _, hr', hat hb, .inl ⟨rfl, rfl⟩⟩

/-- Calls one after the other leave a position in the file. -/
theorem seeks_inChain (h : Attached card) (hc : FileChain card fileNo blocks) (hf : InChain card fileNo blocks f)
    (calls : List (Int × Int)) (hcalls : ∀ call ∈ calls, Words call) :
    ∃ f', seeks card f calls = some f' ∧ InChain card fileNo blocks f' := by
  induction calls generalizing f with
  | nil => exact ⟨f, rfl, hf⟩
  | cons call calls ih =>
    obtain ⟨length, offset⟩ := call
    obtain ⟨r, f', hr, hf', -⟩ := seek_step length h hc hf (hcalls _ List.mem_cons_self).2.2.1
    rw [seeks, hr, Option.bind_some]
    exact ih hf' fun call hcall => hcalls call (List.mem_cons_of_mem _ hcall)

/-- After an open and any calls, a call that is ready is at the block its offset lies in, and
no call ends in an error of the table or of the position. -/
theorem seeks_position (h : Attached card) (hc : FileChain card fileNo blocks) (hfile : f.fileNo = fileNo)
    (hopen : f.offset = 0) (hstart : f.iBlock = fileStart card fileNo) (calls : List (Int × Int))
    (hcalls : ∀ call ∈ calls, Words call) (hlast : Words (length, offset)) :
    ∃ f' r f'', seeks card f calls = some f' ∧ portCARDSeek card f' length offset = some (r, f'') ∧
      (r = PORT_CARD_DIR_RESULT_READY → f''.offset = offset ∧
        blocks[(offset / card.sectorSize).toNat]? = some f''.iBlock) ∧
      r ≠ PORT_CARD_DIR_RESULT_BROKEN ∧ r ≠ PORT_CARD_DIR_RESULT_FATAL_ERROR := by
  have hf : InChain card fileNo blocks f := by
    refine ⟨⟨hopen.ge, ?_⟩, hfile⟩
    rw [hopen, hstart, Int.zero_ediv, hc.start]
    exact Chains.firstOf_eq hc.nonempty
  obtain ⟨f', hr, hf'⟩ := seeks_inChain h hc hf calls hcalls
  obtain ⟨r, f'', hr', hf'', hcase⟩ := seek_step length h hc hf' hlast.2.2.1
  refine ⟨f', r, f'', hr, hr', ?_⟩
  cases hcase with
  | inl hready =>
    obtain ⟨rfl, rfl⟩ := hready
    exact ⟨fun _ => ⟨rfl, hf''.block⟩, by decide, by decide⟩
  | inr hlimit =>
    obtain ⟨rfl, -⟩ := hlimit
    exact ⟨fun hready => absurd hready (by decide), by decide, by decide⟩

end Position

section Trial

/-- A card of 16 blocks; its first file has the blocks 5 and 7. -/
def smallCard : DirControl where
  mem := ⟨4096, 24576, fun x =>
    if x = 55 then 5 else if x = 57 then 2 else if x = 12288 + 11 then 7
    else if x = 12288 + 14 then 255 else if x = 12288 + 15 then 255 else 0⟩
  attached := true
  cBlock := 16
  sectorSize := 8192
  dirAddr := 4096
  fatAddr := 16384
  gameName := Vector.replicate 4 0
  company := Vector.replicate 2 0
  diskIDIsNone := true

def smallFile : FileInfo := ⟨0, 0, 0, 0, 5⟩

theorem smallCard_attached : Attached smallCard :=
  ⟨⟨by decide, by decide, by decide⟩, rfl, by decide, ⟨13, by decide, by decide, rfl⟩, by decide, by decide, by decide⟩

theorem smallCard_chain : FileChain smallCard 0 [5, 7] := by
  refine ⟨by decide, by decide, by decide +kernel, by decide +kernel, ⟨?_, ?_, trivial⟩, by decide, by decide⟩
  · decide +kernel
  · decide +kernel

theorem smallFile_onCard : OnCard smallCard 0 smallFile := by
  refine ⟨by decide, rfl, by decide, by decide, by decide⟩

/-- Ahead, back into the first sector, and ahead again. -/
theorem smallCard_position : ∃ f' r f'', seeks smallCard smallFile [(8192, 8192), (100, 5)] = some f' ∧
    portCARDSeek smallCard f' 8000 8292 = some (r, f'') ∧
    (r = PORT_CARD_DIR_RESULT_READY → f''.offset = 8292 ∧
      ([5, 7] : List Nat)[((8292 : Int) / smallCard.sectorSize).toNat]? = some f''.iBlock) ∧
    r ≠ PORT_CARD_DIR_RESULT_BROKEN ∧ r ≠ PORT_CARD_DIR_RESULT_FATAL_ERROR :=
  seeks_position smallCard_attached smallCard_chain rfl rfl (by decide +kernel) [(8192, 8192), (100, 5)]
    (by unfold Words; decide) (by unfold Words; decide)

theorem smallCard_limits : LimitsRight smallCard 0 smallFile 8192 8193 ↔
    (8193 : Int) + 8192 < 2 ^ 31 ∨ fileLength smallCard 0 * smallCard.sectorSize ≤ 8193 :=
  seek_limits smallCard_attached smallFile_onCard (by decide +kernel) (by decide) (by decide) (by decide) (by decide)

/-- A length that makes the sum wrap is granted. -/
theorem beyond_granted : Attached smallCard ∧ OnCard smallCard 0 smallFile ∧ fileLength smallCard 0 = 2 ∧
    (portCARDSeek smallCard smallFile (2 ^ 31 - 1) 1).map Prod.fst = some PORT_CARD_DIR_RESULT_READY ∧
    ¬ InFile smallCard 0 (2 ^ 31 - 1) 1 :=
  ⟨smallCard_attached, smallFile_onCard, by decide +kernel, by decide +kernel, by unfold InFile; decide +kernel⟩

end Trial

end SdkPort.CardDir
