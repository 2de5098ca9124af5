import SdkPort.Card.CardVerify

/-!
# Mounting a card

`CARDMount.c`: the card is identified, five system blocks are read into the work area, each
read started by the completion of the one before, and what was read is verified.
-/
namespace SdkPort.Card

def CARD_MAX_MOUNT_STEP : Nat := 7

/-- The vendor of the card in use, none. -/
def cardVendorId : Nat := 0xFFFF

def SectorSizeTable : List Nat :=
  [8 * 1024, 16 * 1024, 32 * 1024, 64 * 1024, 128 * 1024, 256 * 1024, 0, 0]

def LatencyTable : List Nat := [4, 8, 16, 32, 64, 128, 256, 512]

def idSectorSize (id : Nat) : Nat := SectorSizeTable.getD ((id &&& 0x3800) >>> 11) 0

def IsCard (id : Nat) : Bool :=
  if id &&& 0xFFFF0000 ≠ 0 ∧ (id ≠ 0x80000004 ∨ cardVendorId = 0xFFFF) then false
  else if id &&& 3 ≠ 0 then false
  else if id &&& 0xFC ∉ [4, 8, 16, 32, 64, 128] then false
  else if idSectorSize id = 0 then false
  else 8 ≤ (id &&& 0xFC) * 1024 * 1024 / 8 / idSectorSize id

/-- The unlocking of a card is decided from outside. -/
def CARDUnlock (chan : Int) (s : Slot) : Int × Slot :=
  if chan < 0 ∨ 2 ≤ chan then (CARD_RESULT_NOCARD, s)
  else if ¬ s.unlock_ok then (CARD_RESULT_NOCARD, s)
  else (CARD_RESULT_READY, { s with card.id := s.unlock_flash_id })

def DoUnmount (result : Int) (s : Slot) : Slot :=
  if s.card.attached then
    { s with exi := EXIDetach s.exi, card.attached := false, card.result := result, card.mount_step := 0 }
  else s

/-- How a part of `DoMount` ends: at the error label, by returning, or at the next part. -/
inductive Exit where
  | error (result : Int)
  | done (result : Int)
  | next
  deriving DecidableEq, Repr

/-- The check sum of a serial number, complemented. -/
def flashSum (id : Nat → UInt8) : UInt8 := ~~~ (List.range 12).foldl (fun checkSum i => checkSum + id i) 0

/-- What `DoMount` learns from the identification. -/
def identified (id : Nat) (card : GcCardControl) : GcCardControl :=
  { card with
    cid := id
    size_mb := id &&& 0xFC
    size_u16 := id &&& 0xFC
    sector_size := idSectorSize id
    cblock := (id &&& 0xFC) * 1024 * 1024 / 8 / idSectorSize id
    latency := LatencyTable.getD ((id &&& 0x700) >>> 8) 0 }

/-- The serial number of a locked card is stored in the SRAM. -/
def storeSerial (result : Int) (s : Slot) : Option (Exit × Slot) :=
  (OSLockSramEx s).map fun s =>
    (.done result, OSUnlockSramEx { s with
      flashID := fun i => if i < 12 then s.card.id i else s.flashID i
      flashIDCheckSum := flashSum s.card.id })

/-- Identification. Without a result the SRAM is locked and its pointer null. -/
def mountIdentify (chan : Int) (s : Slot) : Option (Exit × Slot) :=
  match EXIGetID s.exi with
  | none => some (.error CARD_RESULT_NOCARD, s)
  | some id =>
    if ¬ IsCard id then some (.error CARD_RESULT_WRONGDEVICE, s)
    else
      let s := { s with card := identified id s.card }
      let (result, e) := cardClearStatus s.exi
      let s := { s with exi := e }
      if result < 0 then some (.error result, s)
      else
        let (result, status, e) := cardReadStatus s.exi 0
        let s := { s with exi := e }
        if result < 0 then some (.error result, s)
        else
          let (found, e) := EXIProbe s.exi
          let s := { s with exi := e }
          if ¬ found then some (.error CARD_RESULT_NOCARD, s)
          else if status &&& 0x40 = 0 then
            let (result, s) := CARDUnlock chan s
            if result < 0 then some (.error result, s) else storeSerial result s
          else
            match OSLockSramEx { s with card.mount_step := 1 } with
            | none => none
            | some s =>
              let s := OSUnlockSramEx s
              if s.flashIDCheckSum ≠ flashSum s.flashID then some (.error CARD_RESULT_IOERROR, s)
              else some (.next, s)

/-- A vendor's card must be that of the vendor in use. -/
def mountVendor (s : Slot) : Option (Exit × Slot) :=
  if s.card.cid = 0x80000004 then
    (OSLockSramEx s).map fun s =>
      let vendorID := (s.flashID 0).toNat * 2 ^ 8 + (s.flashID 1).toNat
      (if cardVendorId = 0xFFFF ∨ vendorID ≠ cardVendorId then .error CARD_RESULT_WRONGDEVICE else .next,
        OSUnlockSramEx s)
  else some (.next, s)

def mountInterrupt (s : Slot) : Exit × Slot :=
  let (result, e) := cardEnableInterrupt s.exi true
  let s := { s with card.mount_step := 2, exi := e }
  if result < 0 then (.error result, s) else (.next, { s with exi := (EXIUnlock s.exi).2 })

/-- The parts of `DoMount` before the reads. -/
def mountPrepare (chan : Int) (s : Slot) : Option (Exit × Slot) :=
  (if s.card.mount_step = 0 then mountIdentify chan s else some (.next, s)).bind fun
    | (.next, s) =>
      if s.card.mount_step = 1 then
        (mountVendor s).map fun
          | (.next, s) => mountInterrupt s
          | r => r
      else some (.next, s)
    | r => some r

def DoMount (call : Call) (chan : Int) (s : Slot) : Option (Int × Slot) :=
  match mountPrepare chan s with
  | none => none
  | some (.error result, s) => some (result, DoUnmount result { s with exi := (EXIUnlock s.exi).2 })
  | some (.done result, s) => some (result, s)
  | some (.next, s) =>
    let step := s.card.mount_step - 2
    (cardRead call chan (s.card.sector_size * step) CARD_SYSTEM_BLOCK_SIZE
        (s.card.work_area + CARD_SYSTEM_BLOCK_SIZE * step) (some .mount) s).map fun (result, s) =>
      (result, if result < 0 then cardPutControlBlock s result else s)

/-- The end of a mount: its result is stored and its user called. -/
def mountEnd (call : Call) (chan result : Int) (s : Slot) : Option Slot :=
  let callback := s.card.api_callback
  let s := cardPutControlBlock { s with card.api_callback := none } result
  match callback with
  | none => some s
  | some callback => call callback chan result s

/-- The next part of a mount; a negative result ends it. -/
def mountNext (call : Call) (chan : Int) (s : Slot) : Option Slot :=
  match DoMount call chan s with
  | none => none
  | some (result, s) => if 0 ≤ result then some s else mountEnd call chan result s

def cardMountCallback (call : Call) (chan result : Int) (s : Slot) : Option Slot :=
  if result = CARD_RESULT_READY then
    let s := { s with card.mount_step := s.card.mount_step + 1 }
    if s.card.mount_step < CARD_MAX_MOUNT_STEP then mountNext call chan s
    else
      let (result, s) := cardVerify s
      mountEnd call chan result s
  else if result = CARD_RESULT_UNLOCKED then
    let s := { s with card.unlock_callback := some .mount }
    match EXILock s.exi 0 with
    | (false, e) => some { s with exi := e }
    | (true, e) => mountNext call chan { s with exi := e, card.unlock_callback := none }
  else if result = CARD_RESULT_IOERROR ∨ result = CARD_RESULT_NOCARD then
    mountEnd call chan result (DoUnmount result s)
  else mountEnd call chan result s

/-- Calls of function pointers, nested at most so deep. The functions of a user are only
observed. -/
def invoke : Nat → Call
  | 0, _, _, _, _ => none
  | n + 1, cb, chan, result, s =>
    match cb with
    | .txHandler => cardTxHandler (invoke n) chan s
    | .blockRead => BlockReadCallback (invoke n) chan result s
    | .mount => cardMountCallback (invoke n) chan result s
    | .default | .user _ => some { s with log := s.log ++ [.callback cb result] }

/-- Nesting enough for any read. -/
def stackDepth : Nat := 2 ^ 32

def CARDMountAsync (chan : Int) (workArea : Nat) (detachCallback attachCallback : Option Callback) (s : Slot) :
    Option (Int × Slot) :=
  if chan < 0 ∨ 2 ≤ chan then some (CARD_RESULT_FATAL_ERROR, s)
  else if s.gamechoice.any (· &&& 0x80 ≠ 0) then some (CARD_RESULT_NOCARD, s)
  else if s.card.result = CARD_RESULT_BUSY then some (CARD_RESULT_BUSY, s)
  else if ¬ s.card.attached ∧ s.exi.attached then some (CARD_RESULT_WRONGDEVICE, s)
  else
    let s := { s with
      card.result := CARD_RESULT_BUSY, card.work_area := workArea, card.ext_callback := detachCallback
      card.api_callback := attachCallback.or (some .default) }
    match if s.card.attached then (true, s.exi) else EXIAttach s.exi with
    | (false, e) => some (CARD_RESULT_NOCARD, { s with exi := e, card.result := CARD_RESULT_NOCARD })
    | (true, e) =>
      let s := { s with
        exi := e, card.mount_step := 0, card.attached := true, card.current_dir := 0, card.current_fat := 0
        card.unlock_callback := some .mount }
      match EXILock s.exi 0 with
      | (false, e) => some (CARD_RESULT_READY, { s with exi := e })
      | (true, e) => DoMount (invoke stackDepth) chan { s with exi := e, card.unlock_callback := none }

def CARDUnmount (chan : Int) (s : Slot) : Int × Slot :=
  let (result, s) := cardGetControlBlock chan s
  if result < 0 then (result, s) else (CARD_RESULT_READY, DoUnmount CARD_RESULT_NOCARD s)

end SdkPort.Card
