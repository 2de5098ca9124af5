import SdkPort.SI.Si

/-!
# Controllers

`PAD.c`: clamping of sticks and triggers, the queue of resets, and the settings that are kept in the
state page.
-/
namespace SdkPort.PAD

open Gc (u32 GcMem)
open State State.SdkState

abbrev GC_SDK_OFF_PAD_INITIALIZED : Nat := 0x320
abbrev GC_SDK_OFF_PAD_SPEC : Nat := 0x324
abbrev GC_SDK_OFF_PAD_MAKE_STATUS_KIND : Nat := 0x328
abbrev GC_SDK_OFF_PAD_READ_CALLS : Nat := 0x380
abbrev GC_SDK_OFF_PAD_CLAMP_CALLS : Nat := 0x384
abbrev GC_SDK_OFF_PAD_RESET_CALLS : Nat := 0x388
abbrev GC_SDK_OFF_PAD_RESET_MASK : Nat := 0x38C
abbrev GC_SDK_OFF_PAD_RECALIBRATE_CALLS : Nat := 0x390
abbrev GC_SDK_OFF_PAD_RECALIBRATE_MASK : Nat := 0x394
abbrev GC_SDK_OFF_PAD_RESETTING_BITS : Nat := 0x398
abbrev GC_SDK_OFF_PAD_RESETTING_CHAN : Nat := 0x39C
abbrev GC_SDK_OFF_PAD_RECALIBRATE_BITS : Nat := 0x3A0
abbrev GC_SDK_OFF_PAD_RESET_CB_PTR : Nat := 0x3A4
abbrev GC_SDK_OFF_PAD_MOTOR_CMD_BASE : Nat := 0x3B0

def PAD_CHAN0_BIT : BitVec 32 := 0x80000000
def PAD_ERR_NONE : BitVec 8 := 0
def PAD_ERR_NO_CONTROLLER : BitVec 8 := -1
def PAD_PADSPEC_SHADOW_ADDR : Nat := 0x801D450C
def PAD_SPEC_ADDR : Nat := 0x801D3924
def PAD_MAKE_STATUS_ADDR : Nat := 0x801D3928

structure PADStatus where
  button : BitVec 16
  stickX : BitVec 8
  stickY : BitVec 8
  substickX : BitVec 8
  substickY : BitVec 8
  triggerL : BitVec 8
  triggerR : BitVec 8
  analogA : BitVec 8
  analogB : BitVec 8
  err : BitVec 8
  deriving DecidableEq

/-- The state page, whose globals are those of `PAD.c`, and the globals that are kept nowhere else. -/
structure Pad where
  sdk : SdkState
  /-- `gc_pad_si_refresh_calls`. -/
  siRefreshCalls : BitVec 32
  registerResetCalls : BitVec 32
  cmdProbeDevice : Nat → BitVec 32
  fixBits : BitVec 32
  /-- `gc_os_wireless_pad_fix_mode`. -/
  wirelessPadFixMode : BitVec 16

/-! ### Clamping -/

structure PADClampRegion where
  minTrigger : BitVec 8
  maxTrigger : BitVec 8
  minStick : BitVec 8
  maxStick : BitVec 8
  xyStick : BitVec 8
  minSubstick : BitVec 8
  maxSubstick : BitVec 8
  xySubstick : BitVec 8

def ClampRegion : PADClampRegion := ⟨30, 180, 15, 72, 40, 15, 59, 31⟩

/-- The conversion of an `int` to `s8`. -/
def s8 (v : Int) : BitVec 8 := BitVec.ofInt 8 v

def sign (v : Int) : Int := if 0 ≤ v then 1 else -1

/-- A coordinate without its sign and the dead zone. -/
def dead (min v : Int) : Int :=
  let v := if 0 ≤ v then v else -v
  if v ≤ min then 0 else v - min

def ClampStick (px py max xy min : BitVec 8) : BitVec 8 × BitVec 8 :=
  let max := max.toInt
  let xy := xy.toInt
  let x := dead min.toInt px.toInt
  let y := dead min.toInt py.toInt
  if x = 0 ∧ y = 0 then (0, 0)
  else
    let d := if xy * y ≤ xy * x then xy * x + (max - xy) * y else xy * y + (max - xy) * x
    let x' := if xy * max < d then (s8 ((xy * max * x).tdiv d)).toInt else x
    let y' := if xy * max < d then (s8 ((xy * max * y).tdiv d)).toInt else y
    (s8 (sign px.toInt * x'), s8 (sign py.toInt * y'))

def clampTrigger (r : PADClampRegion) (t : BitVec 8) : BitVec 8 :=
  if t ≤ r.minTrigger then 0 else (if r.maxTrigger < t then r.maxTrigger else t) - r.minTrigger

def clampStatus (r : PADClampRegion) (status : PADStatus) : PADStatus :=
  if status.err ≠ PAD_ERR_NONE then status
  else
    let stick := ClampStick status.stickX status.stickY r.maxStick r.xyStick r.minStick
    let substick := ClampStick status.substickX status.substickY r.maxSubstick r.xySubstick r.minSubstick
    { status with
      stickX := stick.1
      stickY := stick.2
      substickX := substick.1
      substickY := substick.2
      triggerL := clampTrigger r status.triggerL
      triggerR := clampTrigger r status.triggerR }

def PADClamp (p : Pad) (status : Fin 4 → PADStatus) : (Fin 4 → PADStatus) × Pad :=
  (fun i => clampStatus ClampRegion (status i), { p with sdk := p.sdk.countMapped GC_SDK_OFF_PAD_CLAMP_CALLS })

/-- The first channel has a controller at rest, the others have none. -/
def PADRead (p : Pad) : BitVec 32 × (Fin 4 → PADStatus) × Pad :=
  (PAD_CHAN0_BIT, fun i => ⟨0, 0, 0, 0, 0, 0, 0, 0, 0, if i.val = 0 then PAD_ERR_NONE else PAD_ERR_NO_CONTROLLER⟩,
    { p with sdk := p.sdk.countMapped GC_SDK_OFF_PAD_READ_CALLS })

/-! ### Settings -/

/-- The kind and the address of the function that makes a status. -/
def makeStatus (spec : BitVec 32) : Nat × Nat :=
  if spec = 0 then (0, 0x800C5038) else if spec = 1 then (1, 0x800C51AC) else (2, 0x800C5320)

def PADSetSpec (p : Pad) (spec : BitVec 32) : Pad :=
  let s := p.sdk.storeMirror GC_SDK_OFF_PAD_SPEC spec.toNat
  let s := s.storeMirror GC_SDK_OFF_PAD_MAKE_STATUS_KIND (makeStatus spec).1
  let m := ((s.mem.store PAD_PADSPEC_SHADOW_ADDR 0).store PAD_SPEC_ADDR spec.toNat).store PAD_MAKE_STATUS_ADDR
    (makeStatus spec).2
  { p with sdk := { s with mem := m } }

/-- The global, not the word of the page. -/
def PADGetSpec (p : Pad) : BitVec 32 := p.sdk.mirror GC_SDK_OFF_PAD_SPEC

def PADRecalibrate (p : Pad) (mask : BitVec 32) : Bool × Pad :=
  let s := p.sdk.storeMapped GC_SDK_OFF_PAD_RECALIBRATE_MASK mask.toNat
  let s := s.countMapped GC_SDK_OFF_PAD_RECALIBRATE_CALLS
  (true, { p with sdk := s.storeMirror GC_SDK_OFF_PAD_RECALIBRATE_BITS mask.toNat })

def PADControlMotor (p : Pad) (chan : Int) (command : BitVec 32) : Pad :=
  if chan < 0 ∨ 4 ≤ chan then p
  else { p with sdk := p.sdk.storeMirror (GC_SDK_OFF_PAD_MOTOR_CMD_BASE + chan.toNat * 4) command.toNat }

/-! ### Resets -/

/-- The channel of the highest bit, 32 if there is none. -/
def resettingChan (bits : BitVec 32) : Nat := if bits = 0 then 32 else bits.clz.toNat

/-- The bits without that of a channel. -/
def clearChan (bits : BitVec 32) (chan : Nat) : BitVec 32 :=
  if chan = 32 then bits else bits &&& ~~~(PAD_CHAN0_BIT >>> chan)

def PADReset (p : Pad) (mask : BitVec 32) : Bool × Pad :=
  let s := (p.sdk.refresh GC_SDK_OFF_PAD_RESETTING_BITS).2
  let s := (s.refresh GC_SDK_OFF_PAD_RESETTING_CHAN).2
  let s := (s.refresh GC_SDK_OFF_PAD_RECALIBRATE_BITS).2
  let s := (s.refresh GC_SDK_OFF_PAD_RESET_CB_PTR).2
  let s := s.storeMirror GC_SDK_OFF_PAD_RESET_MASK mask.toNat
  let s := s.countMapped GC_SDK_OFF_PAD_RESET_CALLS
  let bits := s.mirror GC_SDK_OFF_PAD_RESETTING_BITS ||| mask
  let chan := resettingChan bits
  let s := s.storeMirror GC_SDK_OFF_PAD_RESETTING_BITS (clearChan bits chan).toNat
  let s := s.storeMirror GC_SDK_OFF_PAD_RESETTING_CHAN chan
  let s := s.storeMirror GC_SDK_OFF_PAD_RECALIBRATE_BITS (s.mirror GC_SDK_OFF_PAD_RECALIBRATE_BITS).toNat
  (true, { p with sdk := s.storeMirror GC_SDK_OFF_PAD_RESET_CB_PTR (s.mirror GC_SDK_OFF_PAD_RESET_CB_PTR).toNat })

/-! ### Initialisation -/

/-- A global that is set without its word. -/
def setMirror (s : SdkState) (off : Nat) (v : BitVec 32) : SdkState :=
  { s with mirror := Function.update s.mirror off v }

/-- The command that probes a channel. -/
def probeDevice (fixMode : BitVec 16) (chan : Nat) : BitVec 32 :=
  0x4D <<< 24 ||| BitVec.ofNat 32 chan <<< 22 ||| (fixMode.setWidth 32 &&& 0x3FFF) <<< 8

/-- The time of `OSGetTime` is 0 here. -/
def PADInit (p : Pad) : Bool × Pad :=
  let p := { p with sdk := (p.sdk.refresh GC_SDK_OFF_PAD_INITIALIZED).2 }
  if p.sdk.mirror GC_SDK_OFF_PAD_INITIALIZED ≠ 0 then (true, p)
  else
    let p := if PADGetSpec p ≠ 0 then PADSetSpec p (PADGetSpec p) else p
    let p := { p with sdk := p.sdk.storeMirror GC_SDK_OFF_PAD_INITIALIZED 1 }
    let p := if p.fixBits ≠ 0 then
        { p with wirelessPadFixMode := 0, sdk := setMirror p.sdk GC_SDK_OFF_PAD_RECALIBRATE_BITS 0xF0000000 }
      else p
    let p := { p with cmdProbeDevice := fun chan => if chan < 4 then probeDevice p.wirelessPadFixMode chan else p.cmdProbeDevice chan }
    let p := { p with siRefreshCalls := p.siRefreshCalls + 1, sdk := SI.SIRefreshSamplingRate p.sdk }
    let p := { p with registerResetCalls := p.registerResetCalls + 1 }
    (true, { p with sdk := setMirror p.sdk GC_SDK_OFF_PAD_RESET_MASK 0xF0000000 })

end SdkPort.PAD
