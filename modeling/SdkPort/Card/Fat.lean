import SdkPort.OS.GcMem

/-!
# The block allocator of a memory card

`card_fat.c`: a table of 16-bit words in emulated memory, five words of header and one
word for each data block.
-/
namespace SdkPort.Card

open Gc (GcMem u32)

def PORT_CARD_FAT_AVAIL : Nat := 0
def PORT_CARD_FAT_CHECKSUM : Nat := 0
def PORT_CARD_FAT_CHECKSUMINV : Nat := 1
def PORT_CARD_FAT_CHECKCODE : Nat := 2
def PORT_CARD_FAT_FREEBLOCKS : Nat := 3
def PORT_CARD_FAT_LASTSLOT : Nat := 4
def PORT_CARD_NUM_SYSTEM_BLOCK : Nat := 5
def PORT_CARD_FAT_ENTRIES : Nat := 4096

def PORT_CARD_RESULT_READY : Int := 0
def PORT_CARD_RESULT_NOCARD : Int := -3
def PORT_CARD_RESULT_BROKEN : Int := -6
def PORT_CARD_RESULT_INSSPACE : Int := -9

/-- Reduction to `uint16_t`. -/
def u16 (x : Nat) : Nat := x % 2 ^ 16

def loadU16 (m : GcMem) (addr : Nat) : Nat :=
  match m.ptr addr 2 with
  | none => 0
  | some p => (m.buf p).toNat * 2 ^ 8 + (m.buf (p + 1)).toNat

def storeU16 (m : GcMem) (addr v : Nat) : GcMem :=
  match m.ptr addr 2 with
  | none => m
  | some p => { m with buf := fun x =>
      if x = p then UInt8.ofNat (v / 2 ^ 8) else if x = p + 1 then UInt8.ofNat v else m.buf x }

/-- `port_CARDControl` and the memory. -/
structure Control where
  mem : GcMem
  attached : Bool
  cBlock : Nat
  startBlock : Nat
  fatAddr : Nat

def fatGet (s : Control) (index : Nat) : Nat := loadU16 s.mem (u32 (s.fatAddr + index * 2))

def fatSet (s : Control) (index v : Nat) : Control :=
  { s with mem := storeU16 s.mem (u32 (s.fatAddr + index * 2)) v }

def portCARDIsValidBlockNo (s : Control) (iBlock : Nat) : Prop :=
  PORT_CARD_NUM_SYSTEM_BLOCK ≤ iBlock ∧ iBlock < s.cBlock

instance (s : Control) (i : Nat) : Decidable (portCARDIsValidBlockNo s i) :=
  inferInstanceAs (Decidable (_ ∧ _))

/-- The sums of the first words and of their complements. -/
def checkSumUpTo (m : GcMem) (addr : Nat) : Nat → Nat × Nat
  | 0 => (0, 0)
  | i + 1 =>
    let sums := checkSumUpTo m addr i
    let val := loadU16 m (u32 (addr + i * 2))
    (u16 (sums.1 + val), (((sums.2 : Int) + (-val - 1)) % 2 ^ 16).toNat)

def portCARDCheckSum (m : GcMem) (addr length : Nat) : Nat × Nat :=
  let sums := checkSumUpTo m addr (length / 2)
  (if sums.1 = 0xffff then 0 else sums.1, if sums.2 = 0xffff then 0 else sums.2)

def portCARDUpdateFatBlock (s : Control) : Int × Control :=
  let counter := u16 (fatGet s PORT_CARD_FAT_CHECKCODE + 1)
  let s := fatSet s PORT_CARD_FAT_CHECKCODE counter
  let sums := portCARDCheckSum s.mem (u32 (s.fatAddr + PORT_CARD_FAT_CHECKCODE * 2)) 0x1FFC
  let s := fatSet s PORT_CARD_FAT_CHECKSUM sums.1
  let s := fatSet s PORT_CARD_FAT_CHECKSUMINV sums.2
  (PORT_CARD_RESULT_READY, s)

/-- The search for free blocks, with the number of steps it may still take: the last block
looked at and the first one taken, or nothing when the steps run out. -/
def allocLoop : Nat → Control → (iBlock prevBlock startBlock cBlock : Nat) → Control × Option (Nat × Nat)
  | _, s, iBlock, _, startBlock, 0 => (s, some (iBlock, startBlock))
  | 0, s, _, _, _, _ + 1 => (s, none)
  | n + 1, s, iBlock, prevBlock, startBlock, cBlock + 1 =>
    let iBlock := u16 (iBlock + 1)
    let iBlock := if portCARDIsValidBlockNo s iBlock then iBlock else PORT_CARD_NUM_SYSTEM_BLOCK
    if fatGet s iBlock = PORT_CARD_FAT_AVAIL then
      if startBlock = 0xFFFF then allocLoop n (fatSet s iBlock 0xFFFF) iBlock iBlock iBlock cBlock
      else allocLoop n (fatSet (fatSet s prevBlock iBlock) iBlock 0xFFFF) iBlock iBlock startBlock cBlock
    else allocLoop n s iBlock prevBlock startBlock (cBlock + 1)

def portCARDAllocBlock (s : Control) (cBlock : Nat) : Int × Control :=
  if ¬ s.attached then (PORT_CARD_RESULT_NOCARD, s)
  else
    let freeBlocks := fatGet s PORT_CARD_FAT_FREEBLOCKS
    if freeBlocks < cBlock then (PORT_CARD_RESULT_INSSPACE, s)
    else
      let s := fatSet s PORT_CARD_FAT_FREEBLOCKS (u16 (freeBlocks - cBlock))
      let iBlock := fatGet s PORT_CARD_FAT_LASTSLOT
      match allocLoop (s.cBlock - PORT_CARD_NUM_SYSTEM_BLOCK) s iBlock 0 0xFFFF cBlock with
      | (s, none) => (PORT_CARD_RESULT_BROKEN, s)
      | (s, some (iBlock, startBlock)) =>
        portCARDUpdateFatBlock { fatSet s PORT_CARD_FAT_LASTSLOT iBlock with startBlock := startBlock }

/-- The release of a chain; false for a block number that is not valid. A block that was
released reads as 0, so no chain takes more steps than there are block numbers. -/
def freeLoop : Nat → Control → Nat → Option (Bool × Control)
  | 0, _, _ => none
  | n + 1, s, nBlock =>
    if nBlock = 0xFFFF then some (true, s)
    else if ¬ portCARDIsValidBlockNo s nBlock then some (false, s)
    else
      let nextBlock := fatGet s nBlock
      let s := fatSet s nBlock 0
      let s := fatSet s PORT_CARD_FAT_FREEBLOCKS (u16 (fatGet s PORT_CARD_FAT_FREEBLOCKS + 1))
      freeLoop n s nextBlock

def freeFuel : Nat := 2 ^ 16 + 1

def portCARDFreeBlock (s : Control) (nBlock : Nat) : Option (Int × Control) :=
  if ¬ s.attached then some (PORT_CARD_RESULT_NOCARD, s)
  else
    (freeLoop freeFuel s nBlock).map fun (done, s) =>
      if done then portCARDUpdateFatBlock s else (PORT_CARD_RESULT_BROKEN, s)

end SdkPort.Card
