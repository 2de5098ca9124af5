import SdkPort.AI.Ai

/-!
# Runs of the audio interface

The registers act like a device with one cell for each value, but starting the stream exchanges
the volumes. What the cells hold after any calls is read off the history.
-/
namespace SdkPort.AI

open BitFields (ones)
open Function (update)

inductive Side where
  | left | right
  deriving DecidableEq

def Side.other : Side → Side
  | .left => .right
  | .right => .left

inductive AiCall where
  | AIInitDMA (addr length : U32)
  | AIStartDMA
  | AISetStreamVolLeft (volume : U8)
  | AISetStreamVolRight (volume : U8)
  | AISetStreamPlayState (state : U32)
  deriving DecidableEq

namespace AiCall

/-- The arguments the functions are made for: an aligned address below 2^26, a length below
2^20, a state of one bit. -/
def Allowed : AiCall → Prop
  | AIInitDMA addr length => addr.toNat % 2 ^ 5 = 0 ∧ addr.toNat < 2 ^ 26 ∧ length.toNat < 2 ^ 20
  | AISetStreamPlayState state => state = 0 ∨ state = 1
  | _ => True

instance : (c : AiCall) → Decidable c.Allowed
  | AIInitDMA _ _ => inferInstanceAs (Decidable (_ ∧ _))
  | AIStartDMA => inferInstanceAs (Decidable True)
  | AISetStreamVolLeft _ => inferInstanceAs (Decidable True)
  | AISetStreamVolRight _ => inferInstanceAs (Decidable True)
  | AISetStreamPlayState _ => inferInstanceAs (Decidable (_ ∨ _))

def addr? : AiCall → Option U32
  | AIInitDMA addr _ => some addr
  | _ => none

def state? : AiCall → Option U32
  | AISetStreamPlayState state => some state
  | _ => none

/-- The volume a call sets on a side. -/
def volume? : Side → AiCall → Option U8
  | .left, AISetStreamVolLeft volume => some volume
  | .right, AISetStreamVolRight volume => some volume
  | _, _ => none

end AiCall

def exec (s : AiState) : AiCall → AiState
  | .AIInitDMA addr length => AIInitDMA s addr length
  | .AIStartDMA => AIStartDMA s
  | .AISetStreamVolLeft volume => AISetStreamVolLeft s volume
  | .AISetStreamVolRight volume => AISetStreamVolRight s volume
  | .AISetStreamPlayState state => AISetStreamPlayState s state

def execAll (s : AiState) (calls : List AiCall) : AiState := calls.foldl exec s

def AiState.volume (s : AiState) : Side → U8
  | .left => AIGetStreamVolLeft s
  | .right => AIGetStreamVolRight s

/-- What a history gives last, the latest call first, or else an initial value. -/
def latest {α : Type} (given : AiCall → Option α) (history : List AiCall) (initial : α) : α :=
  (history.findSome? given).getD initial

/-- A call that starts the stopped stream at the sample rate 0. -/
def Exchanges (s : AiState) (older : List AiCall) (c : AiCall) : Prop :=
  c = .AISetStreamPlayState 1 ∧ AIGetStreamSampleRate s = 0 ∧
    latest AiCall.state? older (AIGetStreamPlayState s) ≠ 1

instance (s : AiState) (older : List AiCall) (c : AiCall) : Decidable (Exchanges s older c) :=
  inferInstanceAs (Decidable (_ ∧ _))

/-- The volume of a side after a history, the latest call first: the one set last, on the side
that the exchanges since then lead back to. -/
def tracedVolume (s : AiState) : List AiCall → Side → U8
  | [], side => s.volume side
  | c :: older, side =>
    (c.volume? side).getD (tracedVolume s older (if Exchanges s older c then side.other else side))

/-- The values in the registers, each in a cell of its own. -/
@[ext] structure Device where
  volume : Side → U8
  playState : U32
  sampleRate : U32
  startAddr : U32
  started : Bool

def AiState.device (s : AiState) : Device where
  volume := s.volume
  playState := AIGetStreamPlayState s
  sampleRate := AIGetStreamSampleRate s
  startAddr := AIGetDMAStartAddr s
  started := dmaStarted s

def Device.step (d : Device) : AiCall → Device
  | .AIInitDMA addr _ => { d with startAddr := addr }
  | .AIStartDMA => { d with started := true }
  | .AISetStreamVolLeft volume => { d with volume := update d.volume .left volume }
  | .AISetStreamVolRight volume => { d with volume := update d.volume .right volume }
  | .AISetStreamPlayState state =>
    if d.sampleRate = 0 ∧ state = 1 ∧ d.playState ≠ 1 then
      { d with playState := state, volume := fun side => d.volume side.other }
    else { d with playState := state }

variable {s s' : AiState} {calls history older : List AiCall} {c : AiCall} {side : Side} {addr length state : U32}
  {volume : U8}

def Side.cell : Side → AiCell
  | .left => .volLeft
  | .right => .volRight

/-- An address from its two cells. -/
def joinAddr (high low : U16) : U32 := BitVec.ofNat 32 (high.toNat * 2 ^ 16 + low.toNat * 2 ^ 5)

theorem volume_eq (side : Side) : s.volume side = (s.cell side.cell).setWidth 8 := by
  cases side
  · exact AIGetStreamVolLeft_eq
  · exact AIGetStreamVolRight_eq

theorem startAddr_eq : AIGetDMAStartAddr s = joinAddr (s.dspCell .addrHigh) (s.dspCell .addrLow) := by
  rw [joinAddr, ← AIGetDMAStartAddr_toNat, BitVec.ofNat_toNat, BitVec.setWidth_eq]

/-- The device is a view of the cells. -/
theorem device_eq : s.device =
    ⟨fun side => (s.cell side.cell).setWidth 8, s.cell .play, s.cell .rate,
      joinAddr (s.dspCell .addrHigh) (s.dspCell .addrLow), (s.dspCell .start).getLsbD 0⟩ :=
  Device.ext (funext volume_eq) rfl rfl startAddr_eq dmaStarted_eq

theorem device_setVolume (side : Side) (volume : U8) : (s.writeCell side.cell (volume.setWidth 32)).device =
    { s.device with volume := update s.device.volume side volume } := by
  simp only [device_eq, cell_writeCell, dspCell_writeCell]
  cases side with
  | left =>
    refine Device.ext (funext fun side => ?_) rfl rfl rfl rfl
    cases side
    · exact mask_byte volume
    · rfl
  | right =>
    refine Device.ext (funext fun side => ?_) rfl rfl rfl rfl
    cases side
    · rfl
    · exact mask_byte volume

theorem device_setLeft : (AISetStreamVolLeft s volume).device =
    { s.device with volume := update s.device.volume .left volume } := by
  rw [AISetStreamVolLeft_eq]
  exact device_setVolume .left volume

theorem device_setRight : (AISetStreamVolRight s volume).device =
    { s.device with volume := update s.device.volume .right volume } := by
  rw [AISetStreamVolRight_eq]
  exact device_setVolume .right volume

theorem device_setPlay (state : U32) (hstate : state = 0 ∨ state = 1) :
    (s.writeCell .play state).device = { s.device with playState := state } := by
  have hmask : state &&& ones 32 1 = state := by obtain rfl | rfl := hstate <;> rfl
  simp only [device_eq, cell_writeCell, dspCell_writeCell]
  refine Device.ext (funext fun side => ?_) hmask rfl rfl rfl
  cases side <;> rfl

theorem device_setBit5 : (s.writeCell .bit5 1).device = s.device := by
  simp only [device_eq, cell_writeCell, dspCell_writeCell]
  refine Device.ext (funext fun side => ?_) rfl rfl rfl rfl
  cases side <;> rfl

theorem device_start : (AIStartDMA s).device = { s.device with started := true } := by
  rw [AIStartDMA_eq]
  simp only [device_eq, cell_writeDspCell, dspCell_writeDspCell, if_true]
  rfl

theorem joinAddr_split (halign : addr.toNat % 2 ^ 5 = 0) (haddr : addr.toNat < 2 ^ 26) :
    joinAddr ((addr >>> 16).setWidth 16 &&& ones 16 10) ((addr >>> 5).setWidth 16 &&& ones 16 11) = addr := by
  apply BitVec.eq_of_toNat_eq
  rw [joinAddr, BitFields.toNat_and_ones, BitFields.toNat_and_ones, BitVec.toNat_setWidth, BitVec.toNat_setWidth,
    BitVec.toNat_ushiftRight, BitVec.toNat_ushiftRight, Nat.shiftRight_eq_div_pow, Nat.shiftRight_eq_div_pow,
    BitVec.toNat_ofNat]
  omega

theorem device_initDMA (halign : addr.toNat % 2 ^ 5 = 0) (haddr : addr.toNat < 2 ^ 26)
    (hlength : length.toNat < 2 ^ 20) : (AIInitDMA s addr length).device = { s.device with startAddr := addr } := by
  rw [AIInitDMA_eq halign haddr hlength]
  simp only [device_eq, cell_writeDspCell, dspCell_writeDspCell]
  exact Device.ext rfl rfl rfl (joinAddr_split halign haddr) rfl

/-- Muting both sides first leaves no trace. -/
theorem device_exchange (hplay : AIGetStreamPlayState s ≠ 1) (hrate : AIGetStreamSampleRate s = 0) :
    (AISetStreamPlayState s 1).device =
      { s.device with playState := 1, volume := fun side => s.device.volume side.other } := by
  rw [AISetStreamPlayState, if_neg hplay.symm, if_pos ⟨hrate, rfl⟩]
  dsimp only
  rw [device_setRight, device_setLeft, setPlay_eq 1#32 (.inr rfl), device_setPlay 1#32 (.inr rfl), setBit5_eq, device_setBit5,
    device_setLeft, device_setRight]
  refine Device.ext (funext fun side => ?_) rfl rfl rfl rfl
  cases side <;> rfl

theorem device_play (hstate : state = 0 ∨ state = 1) :
    (AISetStreamPlayState s state).device = s.device.step (.AISetStreamPlayState state) := by
  rw [Device.step]
  split
  · rename_i h
    obtain ⟨hrate, rfl, hplay⟩ := h
    exact device_exchange hplay hrate
  · rename_i h
    rw [AISetStreamPlayState]
    by_cases hsame : state = AIGetStreamPlayState s
    · rw [if_pos hsame]
      exact Device.ext rfl hsame.symm rfl rfl rfl
    · have hnot : ¬ (AIGetStreamSampleRate s = 0 ∧ state = 1) := by
        rintro ⟨hrate, rfl⟩
        exact h ⟨hrate, rfl, Ne.symm hsame⟩
      rw [if_neg hsame, if_neg hnot, setPlay_eq state hstate]
      exact device_setPlay state hstate

/-- A call acts on the registers as it does on the device. -/
theorem device_exec (h : c.Allowed) : (exec s c).device = s.device.step c := by
  cases c with
  | AIInitDMA addr length => exact device_initDMA h.1 h.2.1 h.2.2
  | AIStartDMA => exact device_start
  | AISetStreamVolLeft volume => exact device_setLeft
  | AISetStreamVolRight volume => exact device_setRight
  | AISetStreamPlayState state => exact device_play h

/-- The same for all calls, on the history with the latest call first. -/
theorem device_execAll (h : ∀ c ∈ calls, c.Allowed) :
    (execAll s calls).device = calls.reverse.foldr (fun c d => d.step c) s.device := by
  rw [List.foldr_reverse]
  induction calls generalizing s with
  | nil => rfl
  | cons c calls ih =>
    obtain ⟨hc, hcalls⟩ := List.forall_mem_cons.mp h
    rw [List.foldl_cons, ← device_exec hc]
    exact ih hcalls

/-- A call that gives a value decides what is given last. -/
theorem latest_cons {α : Type} (given : AiCall → Option α) (initial : α) :
    latest given (c :: older) initial = (given c).getD (latest given older initial) := by
  rw [latest, List.findSome?_cons]
  cases given c <;> rfl

/-- What a device holds after a history. -/
structure Traced (s : AiState) (history : List AiCall) (d : Device) : Prop where
  volume : ∀ side, d.volume side = tracedVolume s history side
  playState : d.playState = latest AiCall.state? history (AIGetStreamPlayState s)
  sampleRate : d.sampleRate = AIGetStreamSampleRate s
  startAddr : d.startAddr = latest AiCall.addr? history (AIGetDMAStartAddr s)
  started : d.started = (dmaStarted s || decide (.AIStartDMA ∈ history))

theorem step_playState (d : Device) (c : AiCall) : (d.step c).playState = c.state?.getD d.playState := by
  cases c with
  | AISetStreamPlayState state =>
    rw [Device.step]
    split <;> rfl
  | _ => rfl

theorem step_startAddr (d : Device) (c : AiCall) : (d.step c).startAddr = c.addr?.getD d.startAddr := by
  cases c with
  | AISetStreamPlayState state =>
    rw [Device.step]
    split <;> rfl
  | _ => rfl

theorem step_sampleRate (d : Device) (c : AiCall) : (d.step c).sampleRate = d.sampleRate := by
  cases c with
  | AISetStreamPlayState state =>
    rw [Device.step]
    split <;> rfl
  | _ => rfl

theorem step_started (d : Device) (c : AiCall) : (d.step c).started = (d.started || decide (c = .AIStartDMA)) := by
  cases c with
  | AIStartDMA => exact (Bool.or_true _).symm
  | AISetStreamPlayState state =>
    rw [Device.step]
    split <;> exact (Bool.or_false _).symm
  | _ => exact (Bool.or_false _).symm

theorem step_volume (d : Device) (c : AiCall) (side : Side) : (d.step c).volume side =
    (c.volume? side).getD
      (d.volume (if c = .AISetStreamPlayState 1 ∧ d.sampleRate = 0 ∧ d.playState ≠ 1 then side.other else side)) := by
  cases c with
  | AISetStreamPlayState state =>
    have hnone : (AiCall.AISetStreamPlayState state).volume? side = none := by cases side <;> rfl
    have hcall : AiCall.AISetStreamPlayState state = .AISetStreamPlayState 1 ↔ state = 1 := by
      rw [AiCall.AISetStreamPlayState.injEq]
    rw [hnone, Option.getD_none, Device.step]
    split
    · rename_i h
      rw [if_pos ⟨hcall.mpr h.2.1, h.1, h.2.2⟩]
    · rename_i h
      rw [if_neg (fun h' => h ⟨h'.2.1, hcall.mp h'.1, h'.2.2⟩)]
  | _ => cases side <;> rfl

theorem traced_step {d : Device} (h : Traced s older d) (c : AiCall) : Traced s (c :: older) (d.step c) where
  volume side := by
    rw [step_volume, h.sampleRate, h.playState, h.volume]
    rfl
  playState := by rw [step_playState, latest_cons, h.playState]
  sampleRate := (step_sampleRate d c).trans h.sampleRate
  startAddr := by rw [step_startAddr, latest_cons, h.startAddr]
  started := by
    rw [step_started, h.started, Bool.or_assoc, ← Bool.decide_or]
    congr 2
    rw [List.mem_cons, or_comm, eq_comm (a := c)]

theorem traced_execAll (h : ∀ c ∈ calls, c.Allowed) : Traced s calls.reverse (execAll s calls).device := by
  rw [device_execAll h]
  induction calls.reverse with
  | nil => exact ⟨fun _ => rfl, rfl, rfl, rfl, (Bool.or_false _).symm⟩
  | cons c older ih => exact traced_step ih c

/-- With the other sample rate, a side keeps the volume set last. -/
theorem tracedVolume_of_rate (hrate : AIGetStreamSampleRate s ≠ 0) (history : List AiCall) (side : Side) :
    tracedVolume s history side = latest (AiCall.volume? side) history (s.volume side) := by
  induction history with
  | nil => rfl
  | cons c older ih =>
    have hnot : ¬ Exchanges s older c := fun h => hrate h.2.1
    rw [tracedVolume, if_neg hnot, latest_cons, ih]

/-- The registers after any calls. The start address and the play state are those given last,
the DMA stays started, and a volume is the one set last, traced through the exchanges. -/
theorem aiRegisters_latest (s : AiState) (calls : List AiCall) (h : ∀ c ∈ calls, c.Allowed) :
    AIGetStreamVolLeft (execAll s calls) = tracedVolume s calls.reverse .left ∧
    AIGetStreamVolRight (execAll s calls) = tracedVolume s calls.reverse .right ∧
    AIGetDMAStartAddr (execAll s calls) = latest AiCall.addr? calls.reverse (AIGetDMAStartAddr s) ∧
    AIGetStreamPlayState (execAll s calls) = latest AiCall.state? calls.reverse (AIGetStreamPlayState s) ∧
    (dmaStarted (execAll s calls) ↔ dmaStarted s ∨ .AIStartDMA ∈ calls) := by
  have htraced := traced_execAll (s := s) h
  refine ⟨htraced.volume .left, htraced.volume .right, htraced.startAddr, htraced.playState, ?_⟩
  have hstarted : dmaStarted (execAll s calls) = (dmaStarted s || decide (.AIStartDMA ∈ calls.reverse)) := htraced.started
  rw [hstarted, Bool.or_eq_true, decide_eq_true_iff, List.mem_reverse]

def blank : AiState := ⟨fun _ => 0, fun _ => 0⟩

/-- A run with unequal volumes that starts the stream. -/
def startedRun : List AiCall :=
  [.AISetStreamVolLeft 1, .AISetStreamVolRight 2, .AIInitDMA 0x1234560 0x400, .AIStartDMA, .AISetStreamPlayState 1,
    .AISetStreamVolLeft 3]

example : tracedVolume blank startedRun.reverse .right = 1 := by decide

theorem aiRegisters_latest_startedRun :
    AIGetStreamVolLeft (execAll blank startedRun) = tracedVolume blank startedRun.reverse .left ∧
    AIGetStreamVolRight (execAll blank startedRun) = tracedVolume blank startedRun.reverse .right ∧
    AIGetDMAStartAddr (execAll blank startedRun) =
      latest AiCall.addr? startedRun.reverse (AIGetDMAStartAddr blank) ∧
    AIGetStreamPlayState (execAll blank startedRun) =
      latest AiCall.state? startedRun.reverse (AIGetStreamPlayState blank) ∧
    (dmaStarted (execAll blank startedRun) ↔ dmaStarted blank ∨ .AIStartDMA ∈ startedRun) :=
  aiRegisters_latest blank startedRun (by decide)

/-- A side does not always keep the volume set last on it. -/
theorem not_volume_latest :
    ¬ ∀ (s : AiState) (calls : List AiCall), (∀ c ∈ calls, c.Allowed) →
      AIGetStreamVolLeft (execAll s calls) =
        latest (AiCall.volume? .left) calls.reverse (AIGetStreamVolLeft s) ∧
      AIGetStreamVolRight (execAll s calls) =
        latest (AiCall.volume? .right) calls.reverse (AIGetStreamVolRight s) ∧
      AIGetDMAStartAddr (execAll s calls) = latest AiCall.addr? calls.reverse (AIGetDMAStartAddr s) ∧
      AIGetStreamPlayState (execAll s calls) = latest AiCall.state? calls.reverse (AIGetStreamPlayState s) ∧
      (.AIStartDMA ∈ calls → dmaStarted (execAll s calls)) := by
  intro h
  have hright := (h blank startedRun (by decide)).2.1
  exact absurd hright (by decide)

end SdkPort.AI
