import SdkPort.Card.Exi
import SdkPort.Lib.ByteMem
import SdkPort.OS.GcMem

/-!
# The card interface below the file system

`card_bios.c`: status commands, and reads in segments of 512 bytes that call each other
through the completion of their transfers. A function pointer is a constructor of
`Callback`; the functions are given the means to call one.
-/
namespace SdkPort.Card

open Gc (u32)

def CARD_RESULT_READY : Int := 0
def CARD_RESULT_BUSY : Int := -1
def CARD_RESULT_WRONGDEVICE : Int := -2
def CARD_RESULT_NOCARD : Int := -3
def CARD_RESULT_UNLOCKED : Int := -4
def CARD_RESULT_IOERROR : Int := -5
def CARD_RESULT_BROKEN : Int := -6
def CARD_RESULT_ENCODING : Int := -13
def CARD_RESULT_FATAL_ERROR : Int := -128

def CARDID_SIZE : Nat := 512

/-- The functions a pointer can hold: those of the card interface, and those of its user. -/
inductive Callback where
  | txHandler | blockRead | mount | default
  | user (k : Nat)
  deriving DecidableEq, Repr

/-- What can be observed of the interface: immediate writes and DMA requests on the bus, the
memory a verification finds, and calls of its users. -/
inductive Event where
  | imm (bytes : List UInt8)
  | dma (buffer length : Nat)
  | verify (mem : Nat → UInt8)
  | callback (cb : Callback) (result : Int)

structure GcCardControl where
  result : Int
  disk_id : Nat
  attached : Bool
  mount_step : Nat
  size_mb : Nat
  sector_size : Nat
  work_area : Nat
  ext_callback : Option Callback
  api_callback : Option Callback
  unlock_callback : Option Callback
  current_dir : Int
  current_fat : Int
  cid : Nat
  cblock : Nat
  latency : Nat
  id : Nat → UInt8
  cmd : List UInt8
  cmdlen : Nat
  mode : Nat
  repeats : Int
  addr : Nat
  buffer : Nat
  xferred : Int
  tx_callback : Option Callback
  xfer_callback : Option Callback
  size_u16 : Nat
  current_dir_ptr : Nat
  current_fat_ptr : Nat

/-- A card slot: its control block and its channel, and what the functions read besides. -/
structure Slot where
  card : GcCardControl
  exi : Exi
  mem : Nat → UInt8
  scb_locked : Bool
  flashID : Nat → UInt8
  flashIDCheckSum : UInt8
  gamechoice : Option UInt8
  font_encode : Nat
  unlock_ok : Bool
  unlock_flash_id : Nat → UInt8
  log : List Event

/-- The call of a function pointer with a channel and a result. Nothing is returned where
calls would be nested too deep. -/
abbrev Call := Callback → Int → Int → Slot → Option Slot

/-- The three steps of a command that fits into the immediate register. -/
def commandImm (e : Exi) (buffer : List UInt8) (type : Nat) : (Bool × List UInt8) × Exi :=
  let (sent, e) := EXIImm e buffer type
  let ((synced, back), e) := EXISync e
  ((sent && synced, if sent then back else buffer), e)

def cardReadStatus (e : Exi) (status : UInt8) : Int × UInt8 × Exi :=
  match EXISelect e 0 with
  | (false, e) => (CARD_RESULT_NOCARD, status, e)
  | (true, e) =>
    let ((sent, _), e) := commandImm e [0x83, 0x00] EXI_WRITE
    let ((read, back), e) := commandImm e [status] EXI_READ
    let (deselected, e) := EXIDeselect e
    (if sent ∧ read ∧ deselected then CARD_RESULT_READY else CARD_RESULT_NOCARD, back.headD status, e)

def cardClearStatus (e : Exi) : Int × Exi :=
  match EXISelect e 0 with
  | (false, e) => (CARD_RESULT_NOCARD, e)
  | (true, e) =>
    let ((sent, _), e) := commandImm e [0x89] EXI_WRITE
    let (deselected, e) := EXIDeselect e
    (if sent ∧ deselected then CARD_RESULT_READY else CARD_RESULT_NOCARD, e)

def cardEnableInterrupt (e : Exi) (enable : Bool) : Int × Exi :=
  match EXISelect e 0 with
  | (false, e) => (CARD_RESULT_NOCARD, e)
  | (true, e) =>
    let ((sent, _), e) := commandImm e [0x81, if enable then 0x01 else 0x00] EXI_WRITE
    let (deselected, e) := EXIDeselect e
    (if sent ∧ deselected then CARD_RESULT_READY else CARD_RESULT_NOCARD, e)

def cardPutControlBlock (s : Slot) (result : Int) : Slot :=
  if s.card.attached then { s with card.result := result }
  else if s.card.result = CARD_RESULT_BUSY then { s with card.result := result }
  else s

def cardGetControlBlock (chan : Int) (s : Slot) : Int × Slot :=
  if chan < 0 ∨ 2 ≤ chan then (CARD_RESULT_FATAL_ERROR, s)
  else if s.card.disk_id = 0 then (CARD_RESULT_FATAL_ERROR, s)
  else if ¬ s.card.attached then (CARD_RESULT_NOCARD, s)
  else if s.card.result = CARD_RESULT_BUSY then (CARD_RESULT_BUSY, s)
  else (CARD_RESULT_READY, { s with card.result := CARD_RESULT_BUSY, card.api_callback := none })

/-- A DMA transfer completes at once, and its callback runs before the request returns. -/
def EXIDma (call : Call) (chan : Int) (buffer length type : Nat) (callback : Option Callback) (s : Slot) :
    Option (Bool × Slot) :=
  if buffer = 0 ∨ length = 0 then some (false, s)
  else if ¬ s.exi.line.selected then some (false, s)
  else if s.exi.line.busy then some (false, s)
  else if ¬ s.exi.has_addr then some (false, s)
  else
    match s.exi.dma_hook with
    | none => some (false, s)
    | some hook =>
      let (ok, mem) := hook s.exi.dmas s.exi.addr buffer length type s.mem
      let s := { s with mem := mem, exi.dmas := s.exi.dmas + 1, log := s.log ++ [.dma buffer length] }
      if ¬ ok then some (false, s)
      else
        match callback with
        | none => some (true, s)
        | some cb => (call cb chan 0 s).map (true, ·)

def cardStart (chan : Int) (txCallback : Option Callback) (s : Slot) : Int × Slot :=
  if chan < 0 ∨ 2 ≤ chan then (CARD_RESULT_FATAL_ERROR, s)
  else if ¬ s.card.attached then (CARD_RESULT_NOCARD, s)
  else
    let s := { s with card.tx_callback := txCallback.or s.card.tx_callback, card.unlock_callback := none }
    match EXILock s.exi 0 with
    | (false, e) => (CARD_RESULT_BUSY, { s with exi := e })
    | (true, e) =>
      match EXISelect e 0 with
      | (false, e) => (CARD_RESULT_NOCARD, { s with exi := (EXIUnlock e).2 })
      | (true, e) => (CARD_RESULT_READY, { s with exi := e })

/-- The card is only probed if the channel could be deselected. -/
def cardTxHandler (call : Call) (chan : Int) (s : Slot) : Option Slot :=
  if chan < 0 ∨ 2 ≤ chan then some s
  else
    let (ok, e) := EXIDeselect s.exi
    let e := (EXIUnlock e).2
    match s.card.tx_callback with
    | none => some { s with exi := e }
    | some callback =>
      let (found, e) := if ok then EXIProbe e else (false, e)
      call callback chan (if found then CARD_RESULT_READY else CARD_RESULT_NOCARD)
        { s with exi := e, card.tx_callback := none }

/-- The command that reads at an address. -/
def readCommand (addr : Nat) : List UInt8 :=
  [0x52, UInt8.ofNat (addr / 2 ^ 17 % 2 ^ 7), UInt8.ofNat (addr / 2 ^ 9 % 2 ^ 8),
    UInt8.ofNat (addr / 2 ^ 7 % 2 ^ 2), UInt8.ofNat (addr % 2 ^ 7)]

/-- An immediate write, seen on the bus. -/
def sendImm (s : Slot) (buffer : List UInt8) : (Bool × List UInt8) × Slot :=
  let ((ok, back), e) := EXIImmEx s.exi buffer EXI_WRITE
  ((ok, back), { s with exi := e, log := s.log ++ [.imm buffer] })

/-- The transfers of a segment: the command, the bytes that fill the latency, the data. -/
def segmentTransfers (call : Call) (chan : Int) (s : Slot) : Option (Bool × Slot) :=
  let ((ok, cmd), s) := sendImm s (s.card.cmd.take s.card.cmdlen)
  let s := { s with card.cmd := cmd ++ s.card.cmd.drop s.card.cmdlen }
  if ¬ ok then some (false, s)
  else
    let area := s.card.work_area + CARDID_SIZE
    let ((ok, bytes), s) := sendImm s (ByteMem.load s.mem area s.card.latency)
    let s := { s with mem := ByteMem.store s.mem area bytes }
    if ¬ ok then some (false, s)
    else EXIDma call chan s.card.buffer 512 s.card.mode (some .txHandler) s

def cardReadSegment (call : Call) (chan : Int) (callback : Option Callback) (s : Slot) : Option (Int × Slot) :=
  if chan < 0 ∨ 2 ≤ chan then some (CARD_RESULT_FATAL_ERROR, s)
  else
    let s := { s with
      card.cmd := readCommand s.card.addr ++ s.card.cmd.drop 5, card.cmdlen := 5, card.mode := 0 }
    let (result, s) := cardStart chan callback s
    if result = CARD_RESULT_BUSY then some (CARD_RESULT_READY, s)
    else if 0 ≤ result then
      match segmentTransfers call chan s with
      | none => none
      | some (true, s) => some (CARD_RESULT_READY, s)
      | some (false, s) =>
        let e := (EXIUnlock (EXIDeselect s.exi).2).2
        some (CARD_RESULT_NOCARD, { s with exi := e, card.tx_callback := none })
    else some (result, s)

/-- The end of a read, with or without an error. -/
def blockReadEnd (call : Call) (chan result : Int) (s : Slot) : Option Slot :=
  let s := if s.card.api_callback = none then cardPutControlBlock s result else s
  match s.card.xfer_callback with
  | none => some s
  | some callback => call callback chan result { s with card.xfer_callback := none }

def BlockReadCallback (call : Call) (chan result : Int) (s : Slot) : Option Slot :=
  if result < 0 then blockReadEnd call chan result s
  else
    let s := { s with
      card.xferred := s.card.xferred + 512, card.addr := u32 (s.card.addr + 512)
      card.buffer := s.card.buffer + 512, card.repeats := s.card.repeats - 1 }
    if s.card.repeats ≤ 0 then blockReadEnd call chan result s
    else
      match cardReadSegment call chan (some .blockRead) s with
      | none => none
      | some (result, s) => if result < 0 then blockReadEnd call chan result s else some s

def cardRead (call : Call) (chan : Int) (addr : Nat) (length : Int) (dst : Nat) (callback : Option Callback)
    (s : Slot) : Option (Int × Slot) :=
  if chan < 0 ∨ 2 ≤ chan then some (CARD_RESULT_FATAL_ERROR, s)
  else if ¬ s.card.attached then some (CARD_RESULT_NOCARD, s)
  else
    cardReadSegment call chan (some .blockRead) { s with
      card.xfer_callback := callback, card.repeats := length.tdiv 512, card.addr := addr, card.buffer := dst }

end SdkPort.Card
