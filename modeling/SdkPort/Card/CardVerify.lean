import SdkPort.Card.CardBios
import SdkPort.Card.CardCheck

/-!
# The verification of a mounted card

`CARDCheck.c`: the identification block, then two copies of the directory and two of the
file allocation table. While no copy is chosen, the older one is overwritten by the newer.
-/
namespace SdkPort.Card

/-- The extended part of the SRAM can be locked once. -/
def OSLockSramEx (s : Slot) : Option Slot :=
  if s.scb_locked then none else some { s with scb_locked := true }

def OSUnlockSramEx (s : Slot) : Slot := { s with scb_locked := false }

/-- Conversion to `int16_t`. -/
def s16 (x : Nat) : Int := if u16 x < 2 ^ 15 then u16 x else u16 x - 2 ^ 16

def rd64be (p : Nat → UInt8) (i : Nat) : Nat :=
  (List.range 8).foldl (fun v k => v * 2 ^ 8 + (p (i + k)).toNat) 0

/-- One step of the generator of the serial number. -/
def serialStep (rand : Nat) : Nat := (rand * 1103515245 + 12345) % 2 ^ 64 / 2 ^ 16

/-- The serial number from a position on is that of the SRAM. -/
def serialMatches (flashID id : Nat → UInt8) : Nat → Nat → Nat → Bool
  | 0, _, _ => true
  | n + 1, i, rand =>
    let rand := serialStep rand
    id i = flashID i + UInt8.ofNat rand ∧ serialMatches flashID id n (i + 1) (serialStep rand % 2 ^ 15)

def VerifyID (s : Slot) : Int × Slot :=
  let id := s.card.work_area
  let sums := cardChecksumU16be s.mem id (512 - 4)
  if id = 0 then (CARD_RESULT_BROKEN, s)
  else if rd16be s.mem (id + 32) ≠ 0 ∨ rd16be s.mem (id + 34) ≠ s.card.size_u16 then (CARD_RESULT_BROKEN, s)
  else if rd16be s.mem (id + 508) ≠ sums.1 ∨ rd16be s.mem (id + 510) ≠ sums.2 then (CARD_RESULT_BROKEN, s)
  else if rd16be s.mem (id + 36) ≠ s.font_encode then (CARD_RESULT_ENCODING, s)
  else
    match OSLockSramEx s with
    | none => (CARD_RESULT_BROKEN, s)
    | some s =>
      let serial := serialMatches s.flashID (fun i => s.mem (id + i)) 12 0 (rd64be s.mem (id + 12))
      (if serial then CARD_RESULT_READY else CARD_RESULT_BROKEN, OSUnlockSramEx s)

/-- The copy with the smaller counter is overwritten by the other one and chosen. -/
def chooseCopy (m : Nat → UInt8) (block₀ block₁ counter : Nat) : Nat × (Nat → UInt8) :=
  if s16 (rd16be m (block₀ + counter)) - s16 (rd16be m (block₁ + counter)) < 0 then
    (block₀, ByteMem.store m block₀ (ByteMem.load m block₁ CARD_SYSTEM_BLOCK_SIZE))
  else (block₁, ByteMem.store m block₁ (ByteMem.load m block₀ CARD_SYSTEM_BLOCK_SIZE))

/-- The copies in a work area. -/
def dirBlock (workArea i : Nat) : Nat := workArea + (1 + i) * CARD_SYSTEM_BLOCK_SIZE
def fatBlock (workArea i : Nat) : Nat := workArea + (3 + i) * CARD_SYSTEM_BLOCK_SIZE

/-- The offset of the last entry of a directory, which holds counter and sums. -/
def dirCheck : Nat := 127 * 64

def dirSumsMatch (p : Nat → UInt8) (i : Nat) : Bool :=
  let sums := cardChecksumU16be p i (CARD_SYSTEM_BLOCK_SIZE - 4)
  rd16be p (i + dirCheck + (64 - 4)) = sums.1 ∧ rd16be p (i + dirCheck + (64 - 2)) = sums.2

def dirCounter : Nat := dirCheck + (64 - 6)
def fatCounter : Nat := CARD_FAT_CHECKCODE * 2

/-- The number of broken copies. -/
def VerifyDir (s : Slot) : Nat × Slot :=
  let dir := dirBlock s.card.work_area
  let errors := (if dirSumsMatch s.mem (dir 0) then 0 else 1) + (if dirSumsMatch s.mem (dir 1) then 0 else 1)
  if errors = 0 then
    if s.card.current_dir_ptr = 0 then
      let (current, mem) := chooseCopy s.mem (dir 0) (dir 1) dirCounter
      (errors, { s with card.current_dir_ptr := current, mem := mem })
    else (errors, s)
  else (errors, { s with card.current_dir_ptr := 0 })

def fatOk (p : Nat → UInt8) (i cblock : Nat) : Bool := fatSumsMatch p i ∧ fatFreeMatches p i cblock

def VerifyFAT (s : Slot) : Nat × Slot :=
  let fat := fatBlock s.card.work_area
  let errors := (if fatOk s.mem (fat 0) s.card.cblock then 0 else 1) +
    (if fatOk s.mem (fat 1) s.card.cblock then 0 else 1)
  if errors = 0 then
    if s.card.current_fat_ptr = 0 then
      let (current, mem) := chooseCopy s.mem (fat 0) (fat 1) fatCounter
      (errors, { s with card.current_fat_ptr := current, mem := mem })
    else (errors, s)
  else (errors, { s with card.current_fat_ptr := 0 })

def cardVerify (s : Slot) : Int × Slot :=
  let s := { s with log := s.log ++ [.verify s.mem] }
  let (result, s) := VerifyID s
  if result < 0 then (result, s)
  else
    let (dirErrors, s) := VerifyDir s
    let (fatErrors, s) := VerifyFAT s
    (if dirErrors + fatErrors = 0 then CARD_RESULT_READY else CARD_RESULT_BROKEN, s)

end SdkPort.Card
