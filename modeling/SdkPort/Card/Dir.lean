import Mathlib.Algebra.Order.Ring.Int
import SdkPort.OS.GcMem

/-!
# The directory of a memory card

`card_dir.c`: 127 entries of 64 bytes in emulated memory, the search for a file by its name,
and the move of a file position along the chain of its blocks. A read of memory that is not
mapped goes through a null pointer: nothing is returned then.
-/
namespace SdkPort.CardDir

open Gc (GcMem u32)

def PORT_CARD_DIR_OFF_GAMENAME : Nat := 0
def PORT_CARD_DIR_OFF_COMPANY : Nat := 4
def PORT_CARD_DIR_OFF_FILENAME : Nat := 8
def PORT_CARD_DIR_OFF_STARTBLOCK : Nat := 54
def PORT_CARD_DIR_OFF_LENGTH : Nat := 56
def PORT_CARD_DIR_SIZE : Nat := 64
def PORT_CARD_FILENAME_MAX : Nat := 32
def PORT_CARD_MAX_FILE : Nat := 127
def PORT_CARD_DIR_NUM_SYSTEM_BLOCK : Nat := 5

def PORT_CARD_DIR_RESULT_READY : Int := 0
def PORT_CARD_DIR_RESULT_NOCARD : Int := -3
def PORT_CARD_DIR_RESULT_NOFILE : Int := -4
def PORT_CARD_DIR_RESULT_BROKEN : Int := -6
def PORT_CARD_DIR_RESULT_NOPERM : Int := -10
def PORT_CARD_DIR_RESULT_LIMIT : Int := -11
def PORT_CARD_DIR_RESULT_FATAL_ERROR : Int := -128

/-- Reduction to `int32_t`. -/
def s32 (x : Int) : Int := x.bmod (2 ^ 32)

/-- `port_CARDDirControl` and the memory. -/
structure DirControl where
  mem : GcMem
  attached : Bool
  cBlock : Nat
  sectorSize : Int
  dirAddr : Nat
  fatAddr : Nat
  gameName : Vector UInt8 4
  company : Vector UInt8 2
  diskIDIsNone : Bool

/-- `port_CARDFileInfo`. -/
structure FileInfo where
  chan : Int
  fileNo : Int
  offset : Int
  length : Int
  iBlock : Nat

/-- The bytes of a string in front of its terminator. -/
structure CString where
  bytes : List UInt8
  nonzero : ∀ b ∈ bytes, b ≠ 0

def loadU8 (m : GcMem) (addr : Nat) : Option UInt8 := (m.ptr addr 1).map m.buf

def loadU16be (m : GcMem) (addr : Nat) : Option Nat :=
  (m.ptr addr 2).map fun p => (m.buf p).toNat * 2 ^ 8 + (m.buf (p + 1)).toNat

/-- The bytes `memcmp` looks at. -/
def loadBytes (m : GcMem) (addr len : Nat) : Option (Vector UInt8 len) :=
  (m.ptr addr len).map fun p => Vector.ofFn fun i => m.buf (p + i)

def portCARDIsValidBlockNo (card : DirControl) (iBlock : Nat) : Prop :=
  PORT_CARD_DIR_NUM_SYSTEM_BLOCK ≤ iBlock ∧ iBlock < card.cBlock

instance (card : DirControl) (i : Nat) : Decidable (portCARDIsValidBlockNo card i) :=
  inferInstanceAs (Decidable (_ ∧ _))

/-- `TRUNC`, converted to `int32_t`. -/
def trunc (n a : Int) : Int := (BitVec.ofInt 32 n &&& ~~~(BitVec.ofInt 32 a - 1#32)).toInt

/-- The comparison, with the number of bytes of the field left and what is left of the
string; behind its last byte a string reads 0. -/
def compareLoop (m : GcMem) : (n nameAddr : Nat) → (fileName : List UInt8) → Option Bool
  | 0, _, fileName => some (fileName.headD 0 = 0)
  | n + 1, nameAddr, fileName =>
    (loadU8 m nameAddr).bind fun c1 =>
      let c2 := fileName.headD 0
      if c1 ≠ c2 then some false
      else if c2 = 0 then some true
      else compareLoop m n (u32 (nameAddr + 1)) fileName.tail

def portCARDCompareFileName (m : GcMem) (dirEntryAddr : Nat) (fileName : CString) : Option Bool :=
  compareLoop m PORT_CARD_FILENAME_MAX (u32 (dirEntryAddr + PORT_CARD_DIR_OFF_FILENAME)) fileName.bytes

def portCARDAccess (card : DirControl) (dirEntryAddr : Nat) : Option Int :=
  (loadU8 card.mem (u32 (dirEntryAddr + PORT_CARD_DIR_OFF_GAMENAME))).bind fun first =>
    if first = 0xFF then some PORT_CARD_DIR_RESULT_NOFILE
    else if card.diskIDIsNone then some PORT_CARD_DIR_RESULT_READY
    else
      (loadBytes card.mem (u32 (dirEntryAddr + PORT_CARD_DIR_OFF_GAMENAME)) 4).bind fun game =>
        if game = card.gameName then
          (loadBytes card.mem (u32 (dirEntryAddr + PORT_CARD_DIR_OFF_COMPANY)) 2).map fun company =>
            if company = card.company then PORT_CARD_DIR_RESULT_READY else PORT_CARD_DIR_RESULT_NOPERM
        else some PORT_CARD_DIR_RESULT_NOPERM

def entAddr (card : DirControl) (fileNo : Nat) : Nat := u32 (card.dirAddr + fileNo * PORT_CARD_DIR_SIZE)

/-- The search from an entry on, with the number of entries left. -/
def getFileNoLoop (card : DirControl) (fileName : CString) (pfileNo : Int) :
    (left fileNo : Nat) → Option (Int × Int)
  | 0, _ => some (PORT_CARD_DIR_RESULT_NOFILE, pfileNo)
  | left + 1, fileNo =>
    (portCARDAccess card (entAddr card fileNo)).bind fun result =>
      if result < 0 then getFileNoLoop card fileName pfileNo left (fileNo + 1)
      else
        (portCARDCompareFileName card.mem (entAddr card fileNo) fileName).bind fun found =>
          if found then some (PORT_CARD_DIR_RESULT_READY, fileNo)
          else getFileNoLoop card fileName pfileNo left (fileNo + 1)

/-- The result, and what `*pfileNo` holds after the call. -/
def portCARDGetFileNo (card : DirControl) (fileName : CString) (pfileNo : Int) : Option (Int × Int) :=
  if ¬ card.attached then some (PORT_CARD_DIR_RESULT_NOCARD, pfileNo)
  else getFileNoLoop card fileName pfileNo PORT_CARD_MAX_FILE 0

def entLength (card : DirControl) (fileNo : Int) : Option Nat :=
  loadU16be card.mem (u32 (entAddr card (fileNo % 2 ^ 32).toNat + PORT_CARD_DIR_OFF_LENGTH))

def entStartBlock (card : DirControl) (fileNo : Int) : Option Nat :=
  loadU16be card.mem (u32 (entAddr card (fileNo % 2 ^ 32).toNat + PORT_CARD_DIR_OFF_STARTBLOCK))

def nextBlock (card : DirControl) (iBlock : Nat) : Option Nat :=
  loadU16be card.mem (u32 (card.fatAddr + iBlock * 2))

/-- The walk along the chain, with the number of steps it may still take; false where it
comes to a block number that is not valid. -/
def seekLoop (card : DirControl) (offset : Int) : Nat → FileInfo → Option (Bool × FileInfo)
  | 0, _ => none
  | n + 1, fileInfo =>
    if fileInfo.offset < trunc offset card.sectorSize then
      (nextBlock card fileInfo.iBlock).bind fun iBlock =>
        let fileInfo := { fileInfo with offset := s32 (fileInfo.offset + card.sectorSize), iBlock := iBlock }
        if portCARDIsValidBlockNo card iBlock then seekLoop card offset n fileInfo
        else some (false, fileInfo)
    else some (true, fileInfo)

/-- A position moves by a sector at each step. -/
def seekFuel (offset : Int) : Nat := offset.toNat + 1

/-- The walk and what is behind it. -/
def seekFrom (card : DirControl) (offset : Int) (fileInfo : FileInfo) : Option (Int × FileInfo) :=
  (seekLoop card offset (seekFuel offset) fileInfo).map fun (done, fileInfo) =>
    if done then (PORT_CARD_DIR_RESULT_READY, { fileInfo with offset := offset })
    else (PORT_CARD_DIR_RESULT_BROKEN, fileInfo)

def portCARDSeek (card : DirControl) (fileInfo : FileInfo) (length offset : Int) : Option (Int × FileInfo) :=
  if ¬ card.attached then some (PORT_CARD_DIR_RESULT_NOCARD, fileInfo)
  else if ¬ portCARDIsValidBlockNo card fileInfo.iBlock ∨
      s32 (card.cBlock * card.sectorSize) ≤ fileInfo.offset then
    some (PORT_CARD_DIR_RESULT_FATAL_ERROR, fileInfo)
  else
    (entLength card fileInfo.fileNo).bind fun length' =>
    (entStartBlock card fileInfo.fileNo).bind fun startBlock =>
      if s32 (length' * card.sectorSize) ≤ offset ∨
          s32 (length' * card.sectorSize) < s32 (offset + length) then
        some (PORT_CARD_DIR_RESULT_LIMIT, fileInfo)
      else
        let fileInfo := { fileInfo with length := length }
        if offset < fileInfo.offset then
          let fileInfo := { fileInfo with offset := 0, iBlock := startBlock }
          if portCARDIsValidBlockNo card startBlock then seekFrom card offset fileInfo
          else some (PORT_CARD_DIR_RESULT_BROKEN, fileInfo)
        else seekFrom card offset fileInfo

end SdkPort.CardDir
