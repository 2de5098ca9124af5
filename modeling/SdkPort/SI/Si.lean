import SdkPort.OS.GcWords
import SdkPort.VI.Vi

/-!
# The serial interface

`SI.c`: transfers to the four channels are queued as packets in emulated memory, with an alarm where
one must wait; responses come from seeds that stand for the hardware.
-/
namespace SdkPort.SI

open Gc (u32 GcMem)
open State
open VI (GC_SDK_OFF_VI_TV_FORMAT)

def u64 (x : Nat) : Nat := x % 2 ^ 64

abbrev GC_SDK_OFF_VI_REGS_U16BE : Nat := 0x100
abbrev GC_SDK_OFF_SI_SAMPLING_RATE : Nat := 0x360
abbrev GC_SDK_OFF_SI_SETXY_LINE : Nat := 0x364
abbrev GC_SDK_OFF_SI_SETXY_COUNT : Nat := 0x368
abbrev GC_SDK_OFF_SI_SETXY_CALLS : Nat := 0x36C
abbrev GC_SDK_OFF_SI_STATUS_BASE : Nat := 0x3C0
abbrev GC_SDK_OFF_SI_RESP_WORDS_BASE : Nat := 0x3D0

abbrev SI_PACKET_BASE : Nat := 0x801A6F98
abbrev SI_PACKET_SIZE : Nat := 0x20
abbrev SI_ALARM_BASE : Nat := 0x801A7018
abbrev SI_ALARM_SIZE : Nat := 0x28
abbrev SI_XFER_TIME_BASE : Nat := 0x801A70D8
abbrev SI_INPUTBUF_VALID_BASE : Nat := 0x801A7148
abbrev SI_INPUTBUF_BASE : Nat := 0x801A7158
abbrev SI_INPUTBUF_END : Nat := 0x801A7178
def SI_ALARM_HANDLER_PC : Nat := 0x800D9C38
def OS_ALARM_QUEUE_PTR : Nat := 0x801A5E68
def SI_ERROR_RDST : Nat := 0x20

/-- The state page with its memory, and the seeds. -/
structure Si where
  sdk : SdkState
  /-- `gc_os_system_time_seed`. -/
  systemTime : Nat
  setAlarmDelta : Nat
  hwXferOk : Bool
  statusSeed : Nat → Nat
  respSeed : Nat → Nat × Nat

def Si.mem (s : Si) : GcMem := s.sdk.mem

def Si.setMem (s : Si) (m : GcMem) : Si := { s with sdk := { s.sdk with mem := m } }

/-! ### The sampling rate -/

/-- `XY`: lines between polls, and polls. -/
structure XY where
  line : Nat
  count : Nat
  deriving DecidableEq

def XYNTSC : List XY :=
  [⟨263 - 17, 2⟩, ⟨15, 18⟩, ⟨30, 9⟩, ⟨44, 6⟩, ⟨52, 5⟩, ⟨65, 4⟩, ⟨87, 3⟩, ⟨87, 3⟩, ⟨87, 3⟩, ⟨131, 2⟩, ⟨131, 2⟩, ⟨131, 2⟩]

def XYPAL : List XY :=
  [⟨313 - 17, 2⟩, ⟨15, 21⟩, ⟨29, 11⟩, ⟨45, 7⟩, ⟨52, 6⟩, ⟨63, 5⟩, ⟨78, 4⟩, ⟨104, 3⟩, ⟨104, 3⟩, ⟨104, 3⟩, ⟨104, 3⟩, ⟨156, 2⟩]

/-- The entry for a rate. A format that is not known takes the first of the NTSC table. -/
def samplingXY (format msec : Nat) : XY :=
  if format = 0 ∨ format = 2 ∨ format = 5 then XYNTSC.getD msec ⟨0, 0⟩
  else if format = 1 then XYPAL.getD msec ⟨0, 0⟩
  else XYNTSC.getD 0 ⟨0, 0⟩

def SISetXY (s : SdkState) (line count : Nat) : SdkState :=
  let s := s.store GC_SDK_OFF_SI_SETXY_LINE line
  let s := s.store GC_SDK_OFF_SI_SETXY_COUNT count
  s.store GC_SDK_OFF_SI_SETXY_CALLS (u32 (s.loadOr GC_SDK_OFF_SI_SETXY_CALLS 0 + 1))

/-- `__VIRegs[54] & 1`, as a factor. -/
def lineFactor (s : SdkState) : Nat := if s.loadU16Or (GC_SDK_OFF_VI_REGS_U16BE + 54 * 2) 0 % 2 = 1 then 2 else 1

def SISetSamplingRate (s : SdkState) (msec : Nat) : SdkState :=
  let msec := min msec 11
  let enabled := s.OSDisableInterrupts.1
  let s := s.OSDisableInterrupts.2.storeMirror GC_SDK_OFF_SI_SAMPLING_RATE msec
  let format := s.refresh GC_SDK_OFF_VI_TV_FORMAT
  let xy := samplingXY format.1 msec
  let s := format.2
  ((SISetXY s (lineFactor s * xy.line) xy.count).OSRestoreInterrupts enabled).2

def SIRefreshSamplingRate (s : SdkState) : SdkState :=
  let rate := s.refresh GC_SDK_OFF_SI_SAMPLING_RATE
  SISetSamplingRate rate.2 rate.1

/-! ### Transfers -/

/-- The words of a 64-bit value. -/
def words64 (v : Nat) : List Nat := [v / 2 ^ 32, v % 2 ^ 32]

def loadU64be (m : GcMem) (addr : Nat) : Nat := m.load addr * 2 ^ 32 + m.load (addr + 4)

/-- The arguments of a transfer but the channel; pointers are truncated to words. -/
structure Transfer where
  output : BitVec 32
  outputBytes : BitVec 32
  input : BitVec 32
  inputBytes : BitVec 32
  callback : BitVec 32
  delay : BitVec 64
  deriving DecidableEq

/-- The words of a queued packet. -/
def packetWords (c : Nat) (x : Transfer) (fire : Nat) : List Nat :=
  [c, x.output.toNat, x.outputBytes.toNat, x.input.toNat, x.inputBytes.toNat, x.callback.toNat] ++ words64 fire

/-- The words of an alarm that is set. -/
def alarmWords (fire delta : Nat) : List Nat :=
  [SI_ALARM_HANDLER_PC, 0] ++ words64 (u64 (fire + delta)) ++ [0, OS_ALARM_QUEUE_PTR]

def packetAddr (c : Nat) : Nat := SI_PACKET_BASE + c * SI_PACKET_SIZE
def alarmAddr (c : Nat) : Nat := SI_ALARM_BASE + c * SI_ALARM_SIZE

/-- When a transfer is due. -/
def fireTime (now xferTime : Nat) (delay : BitVec 64) : Nat :=
  if delay = 0 then now else u64 (xferTime + delay.toNat)

def SITransfer (s : Si) (chan : Int) (x : Transfer) : Bool × Si :=
  if chan < 0 ∨ 4 ≤ chan then (false, s)
  else
    let c := chan.toNat
    let now := s.systemTime
    let fire := fireTime now (loadU64be s.mem (SI_XFER_TIME_BASE + c * 8)) x.delay
    if fire ≤ now ∧ s.hwXferOk then (true, s)
    else
      let m := s.mem.storeWords (packetAddr c) (packetWords c x fire)
      let m := if now < fire then m.storeWords (alarmAddr c) (alarmWords fire s.setAlarmDelta) else m
      (true, s.setMem m)

/-! ### Responses -/

def gcSiSetStatusSeed (s : Si) (chan status : Nat) : Si :=
  if 4 ≤ chan then s
  else
    { s with
      statusSeed := Function.update s.statusSeed chan status
      sdk := s.sdk.store (GC_SDK_OFF_SI_STATUS_BASE + chan * 4) status }

def gcSiSetRespWordsSeed (s : Si) (chan word0 word1 : Nat) : Si :=
  if 4 ≤ chan then s
  else
    { s with
      respSeed := Function.update s.respSeed chan (word0, word1)
      sdk := (s.sdk.store (GC_SDK_OFF_SI_RESP_WORDS_BASE + chan * 8) word0).store
        (GC_SDK_OFF_SI_RESP_WORDS_BASE + chan * 8 + 4) word1 }

def validAddr (c : Nat) : Nat := SI_INPUTBUF_VALID_BASE + c * 4
def inputAddr (c : Nat) : Nat := SI_INPUTBUF_BASE + c * 8

/-- A bit of the status seed of a channel. -/
def ready (status : Nat) : Bool := status / SI_ERROR_RDST % 2 = 1

/-- The stores of `SIGetResponseRaw`. Its result is not used. -/
def SIGetResponseRaw (s : Si) (c : Nat) : GcMem → GcMem := fun m =>
  if ready (s.statusSeed c) then
    ((m.store (inputAddr c) (s.respSeed c).1).store (inputAddr c + 4) (s.respSeed c).2).store (validAddr c) 1
  else m

/-- `SIGetResponse` between the calls for the interrupts: whether there is a response, and the stores. -/
def takeResponse (s : Si) (c data : Nat) (m : GcMem) : Bool × GcMem :=
  let m := SIGetResponseRaw s c m
  let valid := m.load (validAddr c)
  let m := m.store (validAddr c) 0
  let w0 := m.load (inputAddr c)
  let w1 := m.load (inputAddr c + 4)
  (decide (valid ≠ 0), if valid ≠ 0 then (m.store data w0).store (u32 (data + 4)) w1 else m)

def SIGetResponse (s : Si) (chan : Int) (data : Nat) : Bool × Si :=
  if chan < 0 ∨ 4 ≤ chan then (false, s)
  else
    let enabled := s.sdk.OSDisableInterrupts.1
    let sdk := s.sdk.OSDisableInterrupts.2
    let r := takeResponse s chan.toNat data sdk.mem
    (r.1, { s with sdk := ({ sdk with mem := r.2 }.OSRestoreInterrupts enabled).2 })

end SdkPort.SI
