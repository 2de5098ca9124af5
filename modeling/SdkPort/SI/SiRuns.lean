import SdkPort.SI.Si
import SdkPort.Lib.Refine

/-!
# Runs of the serial interface

The packets, alarms and responses of the four channels lie one after another in emulated memory, and
callers have their buffers there too. Over any sequence of calls the channels behave like four
separate records.
-/
namespace SdkPort.SI

open Gc (u32 GcMem)
open State State.SdkState
open VI (GC_SDK_OFF_VI_TV_FORMAT)
open Refine (runAll specAll Legal Simulates)
open Function (update update_self update_of_ne)

inductive SiCall where
  | SITransfer (chan : Int) (x : Transfer)
  | SIGetResponse (chan : Int) (data : Nat)
  | SISetSamplingRate (msec : Nat)
  | SIRefreshSamplingRate
  | setSystemTimeSeed (t : BitVec 64)
  | setSetAlarmDelta (ticks : BitVec 32)
  | setHwXferOk (ok : Bool)
  | setStatusSeed (chan : Nat) (status : BitVec 32)
  | setRespWordsSeed (chan : Nat) (word0 word1 : BitVec 32)
  deriving DecidableEq

/-- What the caller finds: the result, the words in its buffer, or the registers that were set. -/
inductive Reply where
  | nothing
  | taken (ok : Bool)
  | answer (words : Option (Nat × Nat))
  | poll (line count : Nat)
  deriving DecidableEq

/-- The registers of `SISetXY`. -/
def pollOf (s : SdkState) : Reply := .poll (s.load GC_SDK_OFF_SI_SETXY_LINE) (s.load GC_SDK_OFF_SI_SETXY_COUNT)

def exec (s : Si) : SiCall → Option (Reply × Si)
  | .SITransfer chan x => some (.taken (SITransfer s chan x).1, (SITransfer s chan x).2)
  | .SIGetResponse chan data =>
    let r := SIGetResponse s chan data
    some (.answer (if r.1 then some (r.2.mem.load data, r.2.mem.load (u32 (data + 4))) else none), r.2)
  | .SISetSamplingRate msec =>
    let sdk := SISetSamplingRate s.sdk msec
    some (pollOf sdk, { s with sdk := sdk })
  | .SIRefreshSamplingRate =>
    let sdk := SIRefreshSamplingRate s.sdk
    some (pollOf sdk, { s with sdk := sdk })
  | .setSystemTimeSeed t => some (.nothing, { s with systemTime := t.toNat })
  | .setSetAlarmDelta ticks => some (.nothing, { s with setAlarmDelta := ticks.toNat })
  | .setHwXferOk ok => some (.nothing, { s with hwXferOk := ok })
  | .setStatusSeed chan status => some (.nothing, gcSiSetStatusSeed s chan status.toNat)
  | .setRespWordsSeed chan word0 word1 => some (.nothing, gcSiSetRespWordsSeed s chan word0.toNat word1.toNat)

/-! ### Four channels -/

/-- The channels as their callers see them. `held` is a response that was not taken. -/
structure Bus where
  packet : Nat → List Nat
  alarm : Nat → List Nat
  xferTime : Nat → Nat
  held : Nat → Option (Nat × Nat)
  status : Nat → Nat
  resp : Nat → Nat × Nat
  now : Nat
  delta : Nat
  hwOk : Bool
  rate : Nat
  format : Nat
  factor : Nat

/-- A channel of the bus. -/
def channel (chan : Int) : Option Nat := if chan < 0 ∨ 4 ≤ chan then none else some chan.toNat

/-- A transfer that is due goes out at once where the hardware takes it, and leaves no trace. Another
is queued, with an alarm if it is early. -/
def Bus.transfer (b : Bus) (c : Nat) (x : Transfer) : Bus :=
  let fire := fireTime b.now (b.xferTime c) x.delay
  if fire ≤ b.now ∧ b.hwOk then b
  else
    { b with
      packet := update b.packet c (packetWords c x fire)
      alarm := if b.now < fire then update b.alarm c (alarmWords fire b.delta) else b.alarm }

/-- A response that has come, else the one that is held. -/
def Bus.answer (b : Bus) (c : Nat) : Option (Nat × Nat) := if ready (b.status c) then some (b.resp c) else b.held c

def Bus.poll (b : Bus) (msec : Nat) : Reply :=
  let xy := samplingXY b.format (min msec 11)
  .poll (b.factor * xy.line) xy.count

def spec (b : Bus) : SiCall → Reply × Bus
  | .SITransfer chan x =>
    match channel chan with
    | none => (.taken false, b)
    | some c => (.taken true, b.transfer c x)
  | .SIGetResponse chan _ =>
    match channel chan with
    | none => (.answer none, b)
    | some c => (.answer (b.answer c), { b with held := update b.held c none })
  | .SISetSamplingRate msec => (b.poll msec, { b with rate := min msec 11 })
  | .SIRefreshSamplingRate => (b.poll b.rate, { b with rate := min b.rate 11 })
  | .setSystemTimeSeed t => (.nothing, { b with now := t.toNat })
  | .setSetAlarmDelta ticks => (.nothing, { b with delta := ticks.toNat })
  | .setHwXferOk ok => (.nothing, { b with hwOk := ok })
  | .setStatusSeed chan status =>
    (.nothing, if 4 ≤ chan then b else { b with status := update b.status chan status.toNat })
  | .setRespWordsSeed chan word0 word1 =>
    (.nothing, if 4 ≤ chan then b else { b with resp := update b.resp chan (word0.toNat, word1.toNat) })

/-- The records of the channels. -/
def inRecords (a : Nat) : Prop := SI_PACKET_BASE ≤ a ∧ a + 4 ≤ SI_INPUTBUF_END

/-- A buffer of the caller is mapped, and lies apart from the records and from the state page. -/
def bufferOk (lo n data : Nat) : Prop :=
  lo ≤ data ∧ data + 8 ≤ lo + n ∧ data + 8 ≤ 2 ^ 32 ∧
    (data + 8 ≤ SI_PACKET_BASE ∨ SI_INPUTBUF_END ≤ data) ∧
    (data + 8 ≤ GC_SDK_STATE_BASE ∨ GC_SDK_STATE_BASE + 0x2000 ≤ data)

instance (lo n data : Nat) : Decidable (bufferOk lo n data) := instDecidableAnd

def ok (lo n : Nat) (_ : Bus) : SiCall → Prop
  | .SIGetResponse _ data => bufferOk lo n data
  | _ => True

instance ok.decidable (lo n : Nat) (b : Bus) : (call : SiCall) → Decidable (ok lo n b call)
  | .SIGetResponse _ data => inferInstanceAs (Decidable (bufferOk lo n data))
  | .SITransfer _ _ | .SISetSamplingRate _ | .SIRefreshSamplingRate | .setSystemTimeSeed _ | .setSetAlarmDelta _
  | .setHwXferOk _ | .setStatusSeed _ _ | .setRespWordsSeed _ _ _ => inferInstanceAs (Decidable True)

def xferTimeAddr (c : Nat) : Nat := SI_XFER_TIME_BASE + c * 8

def heldOf (m : GcMem) (c : Nat) : Option (Nat × Nat) :=
  if m.load (validAddr c) = 0 then none else some (m.load (inputAddr c), m.load (inputAddr c + 4))

/-- The records in memory. -/
structure Records (m : GcMem) (b : Bus) : Prop where
  packet : ∀ c < 4, m.loadWords (packetAddr c) 8 = b.packet c
  alarm : ∀ c < 4, m.loadWords (alarmAddr c) 6 = b.alarm c
  xferTime : ∀ c < 4, loadU64be m (xferTimeAddr c) = b.xferTime c
  held : ∀ c < 4, heldOf m c = b.held c

/-- The words of the sampling rate, in the page. -/
structure Rates (s : SdkState) (b : Bus) : Prop where
  rate : s.value GC_SDK_OFF_SI_SAMPLING_RATE = b.rate
  format : s.value GC_SDK_OFF_VI_TV_FORMAT = b.format
  factor : lineFactor s = b.factor

/-- An interface whose memory is mapped from `lo`, for `n` bytes, shows the bus. -/
structure Shows (lo n : Nat) (s : Si) (b : Bus) : Prop where
  base : s.mem.base = lo
  size : s.mem.size = n
  low : lo ≤ SI_PACKET_BASE
  high : GC_SDK_STATE_BASE + 0x2000 ≤ lo + n
  records : Records s.mem b
  rates : Rates s.sdk b
  status : s.statusSeed = b.status
  resp : s.respSeed = b.resp
  resp_lt : ∀ c, (s.respSeed c).1 < 2 ^ 32 ∧ (s.respSeed c).2 < 2 ^ 32
  now : s.systemTime = b.now
  now_lt : s.systemTime < 2 ^ 64
  delta : s.setAlarmDelta = b.delta
  hwOk : s.hwXferOk = b.hwOk

variable {m m' : GcMem} {b : Bus} {s : Si} {c k : Nat} {ws : List Nat}

/-! ### The records -/

/-- One kind of record after another. -/
theorem layout (hc : c < 4) :
    SI_PACKET_BASE ≤ packetAddr c ∧ packetAddr c + 4 * 8 ≤ SI_ALARM_BASE ∧
      SI_ALARM_BASE ≤ alarmAddr c ∧ alarmAddr c + 4 * 6 ≤ SI_XFER_TIME_BASE ∧
      SI_XFER_TIME_BASE ≤ xferTimeAddr c ∧ xferTimeAddr c + 8 ≤ SI_INPUTBUF_VALID_BASE ∧
      SI_INPUTBUF_VALID_BASE ≤ validAddr c ∧ validAddr c + 4 ≤ SI_INPUTBUF_BASE ∧
      SI_INPUTBUF_BASE ≤ inputAddr c ∧ inputAddr c + 8 ≤ SI_INPUTBUF_END := by
  unfold packetAddr alarmAddr xferTimeAddr validAddr inputAddr SI_PACKET_BASE SI_PACKET_SIZE SI_ALARM_BASE SI_ALARM_SIZE
    SI_XFER_TIME_BASE SI_INPUTBUF_VALID_BASE SI_INPUTBUF_BASE SI_INPUTBUF_END
  omega

/-- Two channels do not meet. -/
theorem apart (h : k ≠ c) :
    (packetAddr k + 4 * 8 ≤ packetAddr c ∨ packetAddr c + 4 * 8 ≤ packetAddr k) ∧
      (alarmAddr k + 4 * 6 ≤ alarmAddr c ∨ alarmAddr c + 4 * 6 ≤ alarmAddr k) ∧
      (validAddr k + 4 ≤ validAddr c ∨ validAddr c + 4 ≤ validAddr k) ∧
      (inputAddr k + 8 ≤ inputAddr c ∨ inputAddr c + 8 ≤ inputAddr k) := by
  unfold packetAddr alarmAddr validAddr inputAddr SI_PACKET_SIZE SI_ALARM_SIZE
  omega

theorem end_below_page : SI_INPUTBUF_END ≤ GC_SDK_STATE_BASE := by decide

/-- A store outside the records leaves them. -/
theorem Records.congr (h : Records m b) (hl : ∀ a, inRecords a → m'.load a = m.load a) : Records m' b := by
  have hw : ∀ a n, SI_PACKET_BASE ≤ a → a + 4 * n ≤ SI_INPUTBUF_END → m'.loadWords a n = m.loadWords a n :=
    fun a n h₁ h₂ => GcMem.loadWords_congr fun i hi => hl _ ⟨by omega, by omega⟩
  constructor <;> intro c hc <;> have hy := layout hc
  · rw [hw _ _ (by omega) (by omega), h.packet c hc]
  · rw [hw _ _ (by omega) (by omega), h.alarm c hc]
  · rw [← h.xferTime c hc, loadU64be, loadU64be, hl _ ⟨by omega, by omega⟩, hl _ ⟨by omega, by omega⟩]
  · rw [← h.held c hc, heldOf, heldOf, hl _ ⟨by omega, by omega⟩, hl _ ⟨by omega, by omega⟩,
      hl _ ⟨by omega, by omega⟩]

theorem Records.store (h : Records m b) {a : Nat} (v : Nat) (ha : a + 4 ≤ SI_PACKET_BASE ∨ SI_INPUTBUF_END ≤ a) :
    Records (m.store a v) b := by
  refine h.congr fun x hx => ?_
  obtain ⟨h₁, h₂⟩ := hx
  exact GcMem.load_store_other (by omega)

theorem packetWords_length (c : Nat) (x : Transfer) (fire : Nat) : (packetWords c x fire).length = 8 := rfl

theorem alarmWords_length (fire delta : Nat) : (alarmWords fire delta).length = 6 := rfl

theorem packetWords_lt (x : Transfer) {fire : Nat} (hc : c < 4) (hf : fire < 2 ^ 64) :
    ∀ w ∈ packetWords c x fire, w < 2 ^ 32 := by
  have h₁ := x.output.isLt
  have h₂ := x.outputBytes.isLt
  have h₃ := x.input.isLt
  have h₄ := x.inputBytes.isLt
  have h₅ := x.callback.isLt
  intro w hw
  simp only [packetWords, words64, List.cons_append, List.nil_append, List.mem_cons, List.not_mem_nil, or_false] at hw
  omega

theorem alarmWords_lt (fire delta : Nat) : ∀ w ∈ alarmWords fire delta, w < 2 ^ 32 := by
  have h₁ : SI_ALARM_HANDLER_PC < 2 ^ 32 := by decide
  have h₂ : OS_ALARM_QUEUE_PTR < 2 ^ 32 := by decide
  have h₃ : u64 (fire + delta) < 2 ^ 64 := Nat.mod_lt _ (by decide)
  intro w hw
  simp only [alarmWords, words64, List.cons_append, List.nil_append, List.mem_cons, List.not_mem_nil, or_false] at hw
  omega

/-- A packet is stored into the record of its channel. -/
theorem Records.putPacket (h : Records m b) (hm : m.Maps SI_PACKET_BASE SI_INPUTBUF_END) (hc : c < 4)
    (hw : ∀ w ∈ ws, w < 2 ^ 32) (hn : ws.length = 8) :
    Records (m.storeWords (packetAddr c) ws) { b with packet := update b.packet c ws } := by
  obtain ⟨hm₁, hm₂⟩ := hm
  have hy := layout hc
  have hl : ∀ a, SI_ALARM_BASE ≤ a → (m.storeWords (packetAddr c) ws).load a = m.load a := fun a ha =>
    GcMem.load_storeWords_other (Or.inr (by omega))
  constructor <;> intro k hk <;> have hy' := layout hk
  · dsimp only
    by_cases he : k = c
    · subst he
      have hr : (m.storeWords (packetAddr k) ws).loadWords (packetAddr k) ws.length = ws :=
        GcMem.loadWords_storeWords ⟨by omega, by omega⟩ hw
      rw [← hn, hr, update_self]
    · have ha := apart he
      rw [update_of_ne he, GcMem.loadWords_storeWords_other (by omega), h.packet k hk]
  · rw [GcMem.loadWords_congr fun i _ => hl _ (by omega), h.alarm k hk]
  · rw [← h.xferTime k hk, loadU64be, loadU64be, hl _ (by omega), hl _ (by omega)]
  · rw [← h.held k hk, heldOf, heldOf, hl _ (by omega), hl _ (by omega), hl _ (by omega)]

/-- An alarm is stored into the record of its channel. -/
theorem Records.putAlarm (h : Records m b) (hm : m.Maps SI_PACKET_BASE SI_INPUTBUF_END) (hc : c < 4)
    (hw : ∀ w ∈ ws, w < 2 ^ 32) (hn : ws.length = 6) :
    Records (m.storeWords (alarmAddr c) ws) { b with alarm := update b.alarm c ws } := by
  obtain ⟨hm₁, hm₂⟩ := hm
  have hy := layout hc
  have hl : ∀ a, SI_XFER_TIME_BASE ≤ a → (m.storeWords (alarmAddr c) ws).load a = m.load a := fun a ha =>
    GcMem.load_storeWords_other (Or.inr (by omega))
  constructor <;> intro k hk <;> have hy' := layout hk
  · rw [GcMem.loadWords_storeWords_other (Or.inl (by omega)), h.packet k hk]
  · dsimp only
    by_cases he : k = c
    · subst he
      have hr : (m.storeWords (alarmAddr k) ws).loadWords (alarmAddr k) ws.length = ws :=
        GcMem.loadWords_storeWords ⟨by omega, by omega⟩ hw
      rw [← hn, hr, update_self]
    · have ha := apart he
      rw [update_of_ne he, GcMem.loadWords_storeWords_other (by omega), h.alarm k hk]
  · rw [← h.xferTime k hk, loadU64be, loadU64be, hl _ (by omega), hl _ (by omega)]
  · rw [← h.held k hk, heldOf, heldOf, hl _ (by omega), hl _ (by omega), hl _ (by omega)]

/-- A response is read into the buffer of its channel and marked valid. -/
theorem Records.putAnswer (h : Records m b) (hm : m.Maps SI_PACKET_BASE SI_INPUTBUF_END) (hc : c < 4) {w₀ w₁ : Nat}
    (h₀ : w₀ < 2 ^ 32) (h₁ : w₁ < 2 ^ 32) :
    Records (((m.store (inputAddr c) w₀).store (inputAddr c + 4) w₁).store (validAddr c) 1)
      { b with held := update b.held c (some (w₀, w₁)) } := by
  obtain ⟨hm₁, hm₂⟩ := hm
  have hy := layout hc
  have hl : ∀ a, a + 4 ≤ SI_INPUTBUF_VALID_BASE →
      (((m.store (inputAddr c) w₀).store (inputAddr c + 4) w₁).store (validAddr c) 1).load a = m.load a := fun a ha => by
    rw [GcMem.load_store_other (by omega), GcMem.load_store_other (by omega), GcMem.load_store_other (by omega)]
  constructor <;> intro k hk <;> have hy' := layout hk
  · rw [GcMem.loadWords_congr fun i _ => hl _ (by omega), h.packet k hk]
  · rw [GcMem.loadWords_congr fun i _ => hl _ (by omega), h.alarm k hk]
  · rw [← h.xferTime k hk, loadU64be, loadU64be, hl _ (by omega), hl _ (by omega)]
  · dsimp only [heldOf]
    by_cases he : k = c
    · subst he
      have hv : (((m.store (inputAddr k) w₀).store (inputAddr k + 4) w₁).store (validAddr k) 1).load (validAddr k) = 1 :=
        GcMem.load_store_self ⟨by simp; omega, by simp; omega⟩ (by decide)
      have hi : (((m.store (inputAddr k) w₀).store (inputAddr k + 4) w₁).store (validAddr k) 1).load (inputAddr k) = w₀ := by
        rw [GcMem.load_store_other (by omega), GcMem.load_store_other (by omega),
          GcMem.load_store_self ⟨by omega, by omega⟩ h₀]
      have hi' : (((m.store (inputAddr k) w₀).store (inputAddr k + 4) w₁).store (validAddr k) 1).load (inputAddr k + 4) =
          w₁ := by
        rw [GcMem.load_store_other (by omega), GcMem.load_store_self ⟨by simp; omega, by simp; omega⟩ h₁]
      rw [update_self, hv, hi, hi', if_neg (by decide)]
    · have ha := apart he
      have hx : ∀ a, (a + 4 ≤ inputAddr c ∨ inputAddr c + 8 ≤ a) → (a + 4 ≤ validAddr c ∨ validAddr c + 4 ≤ a) →
          (((m.store (inputAddr c) w₀).store (inputAddr c + 4) w₁).store (validAddr c) 1).load a = m.load a :=
        fun a ha₁ ha₂ => by
          rw [GcMem.load_store_other (by omega), GcMem.load_store_other (by omega), GcMem.load_store_other (by omega)]
      rw [update_of_ne he, ← h.held k hk, heldOf, hx _ (by omega) (by omega), hx _ (by omega) (by omega),
        hx _ (by omega) (by omega)]

/-- A response is taken. -/
theorem Records.take (h : Records m b) (hm : m.Maps SI_PACKET_BASE SI_INPUTBUF_END) (hc : c < 4) :
    Records (m.store (validAddr c) 0) { b with held := update b.held c none } := by
  obtain ⟨hm₁, hm₂⟩ := hm
  have hy := layout hc
  have hl : ∀ a, (a + 4 ≤ validAddr c ∨ validAddr c + 4 ≤ a) → (m.store (validAddr c) 0).load a = m.load a := fun a ha =>
    GcMem.load_store_other (by omega)
  constructor <;> intro k hk <;> have hy' := layout hk
  · rw [GcMem.loadWords_congr fun i _ => hl _ (by omega), h.packet k hk]
  · rw [GcMem.loadWords_congr fun i _ => hl _ (by omega), h.alarm k hk]
  · rw [← h.xferTime k hk, loadU64be, loadU64be, hl _ (by omega), hl _ (by omega)]
  · dsimp only [heldOf]
    by_cases he : k = c
    · subst he
      rw [update_self, GcMem.load_store_self ⟨by omega, by omega⟩ (by decide), if_pos rfl]
    · have ha := apart he
      rw [update_of_ne he, ← h.held k hk, heldOf, hl _ (by omega), hl _ (by omega), hl _ (by omega)]

/-! ### One call -/

theorem Shows.maps {lo n : Nat} (h : Shows lo n s b) : s.mem.Maps SI_PACKET_BASE SI_INPUTBUF_END := by
  have he := end_below_page
  have hh := h.high
  refine ⟨?_, ?_⟩
  · rw [h.base]
    exact h.low
  · rw [h.base, h.size]
    omega

/-- The page lies above the records. -/
theorem Rates.below (h : Rates s.sdk b) (hs : SamePage s.mem m) : Rates { s.sdk with mem := m } b := by
  constructor
  · rw [value_samePage hs (by decide), h.rate]
  · rw [value_samePage hs (by decide), h.format]
  · rw [lineFactor, loadU16Or_samePage hs (by decide), ← h.factor, lineFactor]

theorem samePage_storeWords {a : Nat} (h : SamePage m m') (ha : a + 4 * ws.length ≤ GC_SDK_STATE_BASE) :
    SamePage m (m'.storeWords a ws) :=
  GcMem.storeWords_induction (P := SamePage m) h fun _ _ v _ hx hp => samePage_store hp v (Or.inl (by omega))

/-- Records are stored. -/
theorem Shows.setMem {lo n : Nat} (h : Shows lo n s b) (hs : SamePage s.mem m) {packet alarm : Nat → List Nat}
    {held : Nat → Option (Nat × Nat)}
    (hr : Records m { b with packet := packet, alarm := alarm, held := held }) :
    Shows lo n (s.setMem m) { b with packet := packet, alarm := alarm, held := held } where
  base := hs.base.trans h.base
  size := hs.size.trans h.size
  low := h.low
  high := h.high
  records := hr
  rates := ⟨(h.rates.below hs).rate, (h.rates.below hs).format, (h.rates.below hs).factor⟩
  status := h.status
  resp := h.resp
  resp_lt := h.resp_lt
  now := h.now
  now_lt := h.now_lt
  delta := h.delta
  hwOk := h.hwOk

theorem SamePage.refl (m : GcMem) : SamePage m m := ⟨rfl, rfl, fun _ _ _ _ => rfl⟩

theorem fireTime_lt {now xferTime : Nat} (h : now < 2 ^ 64) (delay : BitVec 64) : fireTime now xferTime delay < 2 ^ 64 := by
  unfold fireTime u64
  split <;> omega

theorem shows_transfer {lo n : Nat} (h : Shows lo n s b) (hc : c < 4) (x : Transfer) :
    ∃ s', SITransfer s c x = (true, s') ∧ Shows lo n s' (b.transfer c x) := by
  have hm := h.maps
  have hy := layout hc
  have he := end_below_page
  have hf : fireTime b.now (b.xferTime c) x.delay < 2 ^ 64 := fireTime_lt (h.now ▸ h.now_lt) x.delay
  unfold SITransfer Bus.transfer
  rw [if_neg (by omega)]
  simp only [Int.toNat_natCast, show SI_XFER_TIME_BASE + c * 8 = xferTimeAddr c from rfl, h.records.xferTime c hc,
    h.now, h.hwOk, h.delta]
  generalize fireTime b.now (b.xferTime c) x.delay = fire at hf ⊢
  by_cases hi : fire ≤ b.now ∧ b.hwOk
  · rw [if_pos hi, if_pos hi]
    exact ⟨s, rfl, h⟩
  · rw [if_neg hi, if_neg hi]
    refine ⟨_, rfl, ?_⟩
    have hp := h.records.putPacket hm hc (packetWords_lt x hc hf) (packetWords_length c x fire)
    have hs : SamePage s.mem (s.mem.storeWords (packetAddr c) (packetWords c x fire)) :=
      samePage_storeWords (SamePage.refl s.mem) (by rw [packetWords_length]; omega)
    by_cases ha : b.now < fire
    · simp only [if_pos ha]
      have hq := hp.putAlarm (c := c) (by simpa [GcMem.Maps] using hm) hc (alarmWords_lt fire b.delta)
        (alarmWords_length fire b.delta)
      have hs' : SamePage s.mem ((s.mem.storeWords (packetAddr c) (packetWords c x fire)).storeWords (alarmAddr c)
          (alarmWords fire b.delta)) := samePage_storeWords hs (by rw [alarmWords_length]; omega)
      exact h.setMem hs' hq
    · simp only [if_neg ha]
      exact h.setMem hs hp

theorem channel_some {chan : Int} (h : channel chan = some c) : c < 4 ∧ (c : Int) = chan := by
  unfold channel at h
  split at h
  · cases h
  · cases h
    omega

theorem channel_none {chan : Int} (h : channel chan = none) : chan < 0 ∨ 4 ≤ chan := by
  unfold channel at h
  split at h
  · assumption
  · cases h

theorem Rates.congr {s₁ s₂ : SdkState} (h : Rates s₁ b)
    (hv : ∀ off, off = GC_SDK_OFF_SI_SAMPLING_RATE ∨ off = GC_SDK_OFF_VI_TV_FORMAT → s₂.value off = s₁.value off)
    (hl : lineFactor s₂ = lineFactor s₁) : Rates s₂ b :=
  ⟨by rw [hv _ (Or.inl rfl), h.rate], by rw [hv _ (Or.inr rfl), h.format], by rw [hl, h.factor]⟩

theorem offsets : GC_SDK_OFF_SI_SAMPLING_RATE = 0x360 ∧ GC_SDK_OFF_VI_TV_FORMAT = 0x1A8 ∧
    GC_SDK_OFF_VI_REGS_U16BE = 0x100 := ⟨rfl, rfl, rfl⟩

/-- Words apart from those that are shown: below the registers of the video interface, or past the sampling rate. -/
theorem Rates.storeMapped {s : SdkState} (h : Rates s b) {off : Nat} (v : Nat)
    (ho : off + 4 ≤ 0x100 ∨ 0x364 ≤ off) : Rates (s.storeMapped off v) b := by
  have hc := offsets
  refine h.congr ?_ ?_
  · rintro off' (rfl | rfl) <;> exact value_storeMapped_other (by omega)
  · rw [lineFactor, loadU16Or_storeMapped (by omega), lineFactor]

theorem Rates.storeMirror {s : SdkState} (h : Rates s b) {off : Nat} (v : Nat)
    (ho : off + 4 ≤ 0x100 ∨ 0x364 ≤ off) : Rates (s.storeMirror off v) b := by
  have hc := offsets
  refine h.congr ?_ ?_
  · rintro off' (rfl | rfl) <;> exact value_storeMirror_other (by omega)
  · rw [lineFactor, loadU16Or_storeMirror (by omega), lineFactor]

/-- The page and its globals change, and the sampling rate with them. -/
theorem Shows.setPage {lo n : Nat} (h : Shows lo n s b) {sdk : SdkState} (rate : Nat) (hp : PageOnly s.sdk sdk)
    (hr : Rates sdk { b with rate := rate }) : Shows lo n { s with sdk := sdk } { b with rate := rate } where
  base := hp.base.trans h.base
  size := hp.size.trans h.size
  low := h.low
  high := h.high
  records := by
    have he := end_below_page
    have hc : Records sdk.mem b := h.records.congr fun a ⟨_, ha⟩ => hp.outside a (Or.inl (by omega))
    exact ⟨hc.packet, hc.alarm, hc.xferTime, hc.held⟩
  rates := hr
  status := h.status
  resp := h.resp
  resp_lt := h.resp_lt
  now := h.now
  now_lt := h.now_lt
  delta := h.delta
  hwOk := h.hwOk

theorem Rates.disable {s : SdkState} (h : Rates s b) : Rates s.OSDisableInterrupts.2 b :=
  (h.storeMapped _ (Or.inl (by decide))).storeMirror _ (Or.inl (by decide))

theorem Rates.restore {s : SdkState} (h : Rates s b) (level : Bool) : Rates (s.OSRestoreInterrupts level).2 b :=
  (h.storeMapped _ (Or.inl (by decide))).storeMirror _ (Or.inl (by decide))

/-- The entries are 16 and 8 bits wide. -/
theorem samplingXY_lt (format msec : Nat) :
    (samplingXY format msec).line < 2 ^ 16 ∧ (samplingXY format msec).count < 2 ^ 8 := by
  have hn : ∀ xy ∈ XYNTSC, xy.line < 2 ^ 16 ∧ xy.count < 2 ^ 8 := by decide
  have hp : ∀ xy ∈ XYPAL, xy.line < 2 ^ 16 ∧ xy.count < 2 ^ 8 := by decide
  have hd : ∀ (l : List XY) i, (∀ xy ∈ l, xy.line < 2 ^ 16 ∧ xy.count < 2 ^ 8) →
      (l.getD i ⟨0, 0⟩).line < 2 ^ 16 ∧ (l.getD i ⟨0, 0⟩).count < 2 ^ 8 := by
    intro l i hl
    rw [List.getD_eq_getElem?_getD]
    cases hi : l[i]? with
    | none => decide
    | some xy => exact hl xy (List.mem_of_getElem? hi)
  unfold samplingXY
  split
  · exact hd _ _ hn
  split
  · exact hd _ _ hp
  · exact hd _ _ hn

theorem lineFactor_le (s : SdkState) : lineFactor s ≤ 2 := by
  unfold lineFactor
  split <;> omega

theorem Rates.refresh {s : SdkState} (h : Rates s b) (off : Nat) : Rates (s.refresh off).2 b :=
  h.congr (fun off' _ => value_refresh s off off') (by rw [lineFactor, loadU16Or_refresh, lineFactor])

theorem Rates.setRate {s : SdkState} (h : Rates s b) {rate : Nat} (hr : rate < 2 ^ 32) :
    Rates (s.storeMirror GC_SDK_OFF_SI_SAMPLING_RATE rate) { b with rate := rate } := by
  refine ⟨value_storeMirror_self hr, ?_, ?_⟩
  · rw [value_storeMirror_other (by decide), h.format]
  · rw [lineFactor, loadU16Or_storeMirror (by decide), ← h.factor, lineFactor]

theorem setXY_rates {s : SdkState} (h : Rates s b) (line count : Nat) : Rates (SISetXY s line count) b := by
  simp only [SISetXY, store_eq_storeMapped]
  exact ((h.storeMapped _ (Or.inr (by decide))).storeMapped _ (Or.inr (by decide))).storeMapped _ (Or.inr (by decide))

/-- The registers hold what was set, also after the interrupts are restored. -/
theorem setXY_poll {s : SdkState} (hl : s.mapped GC_SDK_OFF_SI_SETXY_LINE = true)
    (hc : s.mapped GC_SDK_OFF_SI_SETXY_COUNT = true) {line count : Nat} (h₁ : line < 2 ^ 32) (h₂ : count < 2 ^ 32)
    (level : Bool) : pollOf ((SISetXY s line count).OSRestoreInterrupts level).2 = .poll line count := by
  simp (disch := decide) only [pollOf, SdkState.OSRestoreInterrupts, countMapped, SISetXY, store_eq_storeMapped,
    load_storeMirror_other, load_storeMapped_other]
  rw [load_storeMapped_self hl h₁, load_storeMapped_self (by rw [storeMapped_mapped, hc]) h₂]

/-- The rate is set, and the registers with it. -/
theorem setSamplingRate_rates {s : SdkState} (h : Rates s b)
    (hm : s.mem.Maps GC_SDK_STATE_BASE (GC_SDK_STATE_BASE + 0x2000)) (msec : Nat) :
    pollOf (SISetSamplingRate s msec) = b.poll msec ∧
      Rates (SISetSamplingRate s msec) { b with rate := min msec 11 } := by
  have hr : min msec 11 < 2 ^ 32 := by omega
  have h₁ := (h.disable.setRate hr).refresh GC_SDK_OFF_VI_TV_FORMAT
  have hf := (h.disable.setRate hr).format
  have hxy := samplingXY_lt b.format (min msec 11)
  have hb := lineFactor_le s
  have hl : b.factor * (samplingXY b.format (min msec 11)).line < 2 ^ 32 :=
    calc b.factor * (samplingXY b.format (min msec 11)).line
      _ ≤ 2 * (samplingXY b.format (min msec 11)).line := Nat.mul_le_mul_right _ (h.factor ▸ hb)
      _ < 2 ^ 32 := by omega
  have hp : ∀ off, off + 4 ≤ 0x2000 → s.mapped off = true := fun off ho => mapped_of_maps hm ho
  have hset : SISetSamplingRate s msec =
      ((SISetXY ((s.OSDisableInterrupts.2.storeMirror GC_SDK_OFF_SI_SAMPLING_RATE (min msec 11)).refresh
          GC_SDK_OFF_VI_TV_FORMAT).2 (b.factor * (samplingXY b.format (min msec 11)).line)
        (samplingXY b.format (min msec 11)).count).OSRestoreInterrupts s.OSDisableInterrupts.1).2 := by
    unfold SISetSamplingRate
    rw [← h₁.factor]
    simp only [SdkState.refresh] at hf ⊢
    rw [hf]
  rw [hset]
  refine ⟨setXY_poll ?_ ?_ hl (by omega) _, (setXY_rates h₁ _ _).restore _⟩
  · rw [refresh_mapped, storeMirror_mapped, SdkState.OSDisableInterrupts, storeMirror_mapped, countMapped,
      storeMapped_mapped, hp _ (by decide)]
  · rw [refresh_mapped, storeMirror_mapped, SdkState.OSDisableInterrupts, storeMirror_mapped, countMapped,
      storeMapped_mapped, hp _ (by decide)]

theorem pageOnly_disable {s₁ s₂ : SdkState} (h : PageOnly s₁ s₂) : PageOnly s₁ s₂.OSDisableInterrupts.2 :=
  (h.storeMapped _ (by decide)).storeMirror _ (by decide)

theorem pageOnly_restore {s₁ s₂ : SdkState} (h : PageOnly s₁ s₂) (level : Bool) :
    PageOnly s₁ (s₂.OSRestoreInterrupts level).2 := (h.storeMapped _ (by decide)).storeMirror _ (by decide)

theorem pageOnly_setXY {s₁ s₂ : SdkState} (h : PageOnly s₁ s₂) (line count : Nat) :
    PageOnly s₁ (SISetXY s₂ line count) := by
  simp only [SISetXY, store_eq_storeMapped]
  exact ((h.storeMapped _ (by decide)).storeMapped _ (by decide)).storeMapped _ (by decide)

theorem pageOnly_setSamplingRate {s₁ s₂ : SdkState} (h : PageOnly s₁ s₂) (msec : Nat) :
    PageOnly s₁ (SISetSamplingRate s₂ msec) :=
  pageOnly_restore (pageOnly_setXY (((pageOnly_disable h).storeMirror _ (by decide)).refresh _) _ _) _

theorem Shows.page {lo n : Nat} (h : Shows lo n s b) :
    s.mem.Maps GC_SDK_STATE_BASE (GC_SDK_STATE_BASE + 0x2000) := by
  have hl := h.low
  have hh := h.high
  have he : SI_PACKET_BASE ≤ GC_SDK_STATE_BASE := by decide
  refine ⟨?_, ?_⟩
  · rw [h.base]
    omega
  · rw [h.base, h.size]
    omega

theorem shows_setSamplingRate {lo n : Nat} (h : Shows lo n s b) (msec : Nat) :
    Shows lo n { s with sdk := SISetSamplingRate s.sdk msec } { b with rate := min msec 11 } :=
  h.setPage (min msec 11) (pageOnly_setSamplingRate (PageOnly.refl s.sdk) msec) (setSamplingRate_rates h.rates h.page msec).2

theorem shows_refresh {lo n : Nat} (h : Shows lo n s b) :
    Shows lo n { s with sdk := SIRefreshSamplingRate s.sdk } { b with rate := min b.rate 11 } := by
  have hr := h.setPage b.rate ((PageOnly.refl s.sdk).refresh GC_SDK_OFF_SI_SAMPLING_RATE) (h.rates.refresh _)
  have hs := shows_setSamplingRate hr b.rate
  rw [SIRefreshSamplingRate, show (s.sdk.refresh GC_SDK_OFF_SI_SAMPLING_RATE).1 = b.rate from h.rates.rate]
  exact hs

/-- The words of a seed are shown by the page only. -/
theorem Shows.seedWord {lo n : Nat} (h : Shows lo n s b) (off v : Nat) (h₁ : 0x364 ≤ off) (h₂ : off + 4 ≤ 0x2000) :
    Shows lo n { s with sdk := s.sdk.store off v } b := by
  rw [store_eq_storeMapped]
  exact h.setPage b.rate ((PageOnly.refl s.sdk).storeMapped v h₂) (h.rates.storeMapped v (Or.inr h₁))

theorem shows_setStatus {lo n : Nat} (h : Shows lo n s b) {chan : Nat} (hc : chan < 4) (status : Nat) :
    Shows lo n (gcSiSetStatusSeed s chan status) { b with status := update b.status chan status } := by
  rw [gcSiSetStatusSeed, if_neg (by omega)]
  have ho : GC_SDK_OFF_SI_STATUS_BASE = 0x3C0 := rfl
  have hs := h.seedWord (GC_SDK_OFF_SI_STATUS_BASE + chan * 4) status (by omega) (by omega)
  exact { hs with
    status := by simp only [h.status]
    records := ⟨hs.records.packet, hs.records.alarm, hs.records.xferTime, hs.records.held⟩
    rates := ⟨hs.rates.rate, hs.rates.format, hs.rates.factor⟩ }

theorem shows_setRespWords {lo n : Nat} (h : Shows lo n s b) {chan : Nat} (hc : chan < 4) {w₀ w₁ : Nat}
    (h₀ : w₀ < 2 ^ 32) (h₁ : w₁ < 2 ^ 32) :
    Shows lo n (gcSiSetRespWordsSeed s chan w₀ w₁) { b with resp := update b.resp chan (w₀, w₁) } := by
  rw [gcSiSetRespWordsSeed, if_neg (by omega)]
  have ho : GC_SDK_OFF_SI_RESP_WORDS_BASE = 0x3D0 := rfl
  have hs := (h.seedWord (GC_SDK_OFF_SI_RESP_WORDS_BASE + chan * 8) w₀ (by omega) (by omega)).seedWord
    (GC_SDK_OFF_SI_RESP_WORDS_BASE + chan * 8 + 4) w₁ (by omega) (by omega)
  exact { hs with
    resp := by simp only [h.resp]
    resp_lt := fun c => by
      dsimp only
      by_cases he : c = chan
      · rw [he, update_self]
        exact ⟨h₀, h₁⟩
      · rw [update_of_ne he]
        exact h.resp_lt c
    records := ⟨hs.records.packet, hs.records.alarm, hs.records.xferTime, hs.records.held⟩
    rates := ⟨hs.rates.rate, hs.rates.format, hs.rates.factor⟩ }

/-- A response that has come is held. -/
theorem Records.raw (h : Records m b) (hm : m.Maps SI_PACKET_BASE SI_INPUTBUF_END) (hc : c < 4)
    (hst : s.statusSeed = b.status) (hre : s.respSeed = b.resp)
    (hlt : (s.respSeed c).1 < 2 ^ 32 ∧ (s.respSeed c).2 < 2 ^ 32) :
    Records (SIGetResponseRaw s c m) { b with held := update b.held c (b.answer c) } := by
  unfold SIGetResponseRaw Bus.answer
  rw [hst, hre] at *
  split
  · exact h.putAnswer hm hc hlt.1 hlt.2
  · rw [Function.update_eq_self]
    exact h

theorem samePage_raw (hc : c < 4) (hp : SamePage m m') : SamePage m (SIGetResponseRaw s c m') := by
  have hy := layout hc
  have he := end_below_page
  unfold SIGetResponseRaw
  split
  · exact samePage_store (samePage_store (samePage_store hp _ (by omega)) _ (by omega)) _ (by omega)
  · exact hp

theorem SIGetResponseRaw_maps {lo hi : Nat} (h : m.Maps lo hi) : (SIGetResponseRaw s c m).Maps lo hi := by
  unfold SIGetResponseRaw
  split
  · simpa only [GcMem.Maps, GcMem.store_base, GcMem.store_size] using h
  · exact h

/-- The words of a response go to the buffer of the caller, and the record is marked as taken. -/
theorem Records.takeResponse {data : Nat} (h : Records m b) (hm : m.Maps SI_PACKET_BASE SI_INPUTBUF_END) (hc : c < 4)
    (hst : s.statusSeed = b.status) (hre : s.respSeed = b.resp)
    (hlt : (s.respSeed c).1 < 2 ^ 32 ∧ (s.respSeed c).2 < 2 ^ 32) (hd : bufferOk m.base m.size data) :
    (takeResponse s c data m).1 = (b.answer c).isSome ∧
      (∀ w, b.answer c = some w →
        ((takeResponse s c data m).2.load data, (takeResponse s c data m).2.load (data + 4)) = w) ∧
      Records (takeResponse s c data m).2 { b with held := update b.held c none } ∧
      SamePage m (takeResponse s c data m).2 := by
  obtain ⟨hd₁, hd₂, hd₃, hd₄, hd₅⟩ := hd
  have hy := layout hc
  have he := end_below_page
  have hpage := samePage_raw (s := s) hc (SamePage.refl m)
  have hraw := h.raw hm hc hst hre hlt
  have hmaps := SIGetResponseRaw_maps (s := s) (c := c) hm
  have hheld := hraw.held c hc
  simp only [SI.takeResponse, show u32 (data + 4) = data + 4 from Nat.mod_eq_of_lt (by omega)]
  generalize SIGetResponseRaw s c m = m₁ at hraw hheld hpage hmaps ⊢
  have htake := hraw.take hmaps hc
  have hpage₂ := samePage_store hpage (a := validAddr c) 0 (by omega)
  simp only [update_self, heldOf] at hheld
  simp only [Function.update_idem] at htake
  by_cases hv : m₁.load (validAddr c) = 0
  · rw [if_pos hv] at hheld
    simp only [hv, ne_eq, not_true_eq_false, ↓reduceIte, decide_false, ← hheld]
    exact ⟨rfl, fun w hw => (by cases hw), htake, hpage₂⟩
  · rw [if_neg hv] at hheld
    have hi : (m₁.store (validAddr c) 0).load (inputAddr c) = m₁.load (inputAddr c) :=
      GcMem.load_store_other (by omega)
    have hi' : (m₁.store (validAddr c) 0).load (inputAddr c + 4) = m₁.load (inputAddr c + 4) :=
      GcMem.load_store_other (by omega)
    simp only [hv, ne_eq, not_false_eq_true, ↓reduceIte, decide_true, ← hheld, hi, hi']
    refine ⟨rfl, fun w hw => ?_, (htake.store _ (by omega)).store _ (by omega),
      samePage_store (samePage_store hpage₂ _ (by omega)) _ (by omega)⟩
    have hb : m₁.base = m.base := hpage.base
    have hn : m₁.size = m.size := hpage.size
    cases hw
    rw [GcMem.load_store_other (by omega),
      GcMem.load_store_self ⟨by rw [GcMem.store_base]; omega, by rw [GcMem.store_base, GcMem.store_size]; omega⟩
        (GcMem.load_lt _ _),
      GcMem.load_store_self ⟨by simp only [GcMem.store_base]; omega, by simp only [GcMem.store_base, GcMem.store_size]; omega⟩
        (GcMem.load_lt _ _)]

theorem shows_response {lo n data : Nat} (h : Shows lo n s b) (hc : c < 4) (hd : bufferOk lo n data) :
    ∃ s', SIGetResponse s c data = ((b.answer c).isSome, s') ∧
      (∀ w, b.answer c = some w → (s'.mem.load data, s'.mem.load (u32 (data + 4))) = w) ∧
      Shows lo n s' { b with held := update b.held c none } := by
  have hdis := h.setPage b.rate (pageOnly_disable (PageOnly.refl s.sdk)) h.rates.disable
  have hbuf : bufferOk s.sdk.OSDisableInterrupts.2.mem.base s.sdk.OSDisableInterrupts.2.mem.size data := by
    rw [show s.sdk.OSDisableInterrupts.2.mem.base = lo from hdis.base,
      show s.sdk.OSDisableInterrupts.2.mem.size = n from hdis.size]
    exact hd
  obtain ⟨hr, hw, hrec, hp⟩ := Records.takeResponse hdis.records hdis.maps hc h.status h.resp (h.resp_lt c) hbuf
  have hset := @Shows.setMem _ _ _ _ _ hdis hp b.packet b.alarm (update b.held c none) hrec
  have hend := hset.setPage b.rate (pageOnly_restore (PageOnly.refl _) s.sdk.OSDisableInterrupts.1)
    (hset.rates.restore _)
  unfold SIGetResponse
  rw [if_neg (by omega)]
  simp only [Int.toNat_natCast]
  refine ⟨_, by rw [← hr]; rfl, fun w hb => ?_, hend⟩
  obtain ⟨hd₁, hd₂, hd₃, hd₄, hd₅⟩ := hd
  rw [← hw w hb, show u32 (data + 4) = data + 4 from Nat.mod_eq_of_lt (by omega)]
  have hres := pageOnly_restore (PageOnly.refl { s.sdk.OSDisableInterrupts.2 with
    mem := (SI.takeResponse s c data s.sdk.OSDisableInterrupts.2.mem).2 }) s.sdk.OSDisableInterrupts.1
  exact Prod.ext (hres.outside data (by omega)) (hres.outside (data + 4) (by omega))

theorem Shows.clock {lo n now : Nat} (h : Shows lo n s b) (delta : Nat) (hwOk : Bool) (hn : now < 2 ^ 64) :
    Shows lo n { s with systemTime := now, setAlarmDelta := delta, hwXferOk := hwOk }
      { b with now := now, delta := delta, hwOk := hwOk } :=
  { h with
    records := ⟨h.records.packet, h.records.alarm, h.records.xferTime, h.records.held⟩
    rates := ⟨h.rates.rate, h.rates.format, h.rates.factor⟩
    now := rfl
    now_lt := hn
    delta := rfl
    hwOk := rfl }

/-! ### Runs -/

theorem simulates (lo n : Nat) : Simulates exec spec (ok lo n) (Shows lo n) := by
  intro s b call h hok
  cases call with
  | SITransfer chan x =>
    simp only [exec, spec]
    cases hc : channel chan with
    | none =>
      have hs : SITransfer s chan x = (false, s) := if_pos (channel_none hc)
      rw [hs]
      exact ⟨s, rfl, h⟩
    | some c =>
      obtain ⟨hlt, rfl⟩ := channel_some hc
      obtain ⟨s', hs, hs'⟩ := shows_transfer h hlt x
      rw [hs]
      exact ⟨s', rfl, hs'⟩
  | SIGetResponse chan data =>
    simp only [exec, spec]
    cases hc : channel chan with
    | none =>
      have hs : SIGetResponse s chan data = (false, s) := if_pos (channel_none hc)
      rw [hs]
      exact ⟨s, rfl, h⟩
    | some c =>
      obtain ⟨hlt, rfl⟩ := channel_some hc
      obtain ⟨s', hs, hw, hs'⟩ := shows_response h hlt hok
      rw [hs]
      refine ⟨s', ?_, hs'⟩
      cases ha : b.answer c with
      | none => simp only [Option.isSome_none, Bool.false_eq_true, ↓reduceIte, ha]
      | some w => simp only [Option.isSome_some, ↓reduceIte, ha, hw w ha]
  | SISetSamplingRate msec =>
    refine ⟨_, ?_, shows_setSamplingRate h msec⟩
    simp only [exec, spec, (setSamplingRate_rates h.rates h.page msec).1]
  | SIRefreshSamplingRate =>
    refine ⟨_, ?_, shows_refresh h⟩
    have hr : Rates (s.sdk.refresh GC_SDK_OFF_SI_SAMPLING_RATE).2 b := h.rates.refresh _
    have hp := (setSamplingRate_rates hr h.page b.rate).1
    simp only [exec, spec, SIRefreshSamplingRate]
    rw [show (s.sdk.refresh GC_SDK_OFF_SI_SAMPLING_RATE).1 = b.rate from h.rates.rate, hp]
  | setSystemTimeSeed t =>
    refine ⟨_, rfl, ?_⟩
    simpa only [spec, h.delta, h.hwOk] using h.clock b.delta b.hwOk t.isLt
  | setSetAlarmDelta ticks =>
    refine ⟨_, rfl, ?_⟩
    simpa only [spec, h.now, h.hwOk] using h.clock ticks.toNat b.hwOk (h.now ▸ h.now_lt)
  | setHwXferOk ok =>
    refine ⟨_, rfl, ?_⟩
    simpa only [spec, h.now, h.delta] using h.clock b.delta ok (h.now ▸ h.now_lt)
  | setStatusSeed chan status =>
    refine ⟨_, rfl, ?_⟩
    simp only [spec]
    by_cases hc : 4 ≤ chan
    · rw [gcSiSetStatusSeed, if_pos hc, if_pos hc]
      exact h
    · rw [if_neg hc]
      exact shows_setStatus h (by omega) _
  | setRespWordsSeed chan w₀ w₁ =>
    refine ⟨_, rfl, ?_⟩
    simp only [spec]
    by_cases hc : 4 ≤ chan
    · rw [gcSiSetRespWordsSeed, if_pos hc, if_pos hc]
      exact h
    · rw [if_neg hc]
      exact shows_setRespWords h (by omega) w₀.isLt w₁.isLt

/-- Over any sequence of calls, with any buffers of the callers, the replies are those of the four
channels, and the packets and alarms in memory are theirs. -/
theorem memory_shows_bus {lo n : Nat} (s : Si) (b : Bus) (calls : List SiCall) (h : Shows lo n s b)
    (hl : Legal spec (ok lo n) b calls) :
    ∃ s', runAll exec s calls = some ((specAll spec b calls).1, s') ∧ Shows lo n s' (specAll spec b calls).2 :=
  (simulates lo n).runAll h hl

/-- Memory of zeros. -/
def trialSi : Si := ⟨⟨⟨0x80000000, 0x1800000, fun _ => 0⟩, fun _ => 0⟩, 0, 0, false, fun _ => 0, fun _ => (0, 0)⟩

def trialBus : Bus :=
  ⟨fun _ => List.replicate 8 0, fun _ => List.replicate 6 0, fun _ => 0, fun _ => none, fun _ => 0,
    fun _ => (0, 0), 0, 0, false, 0, 0, 1⟩

theorem trial_shows : Shows 0x80000000 0x1800000 trialSi trialBus := by
  have hz : ∀ a, trialSi.mem.load a = 0 := GcMem.load_zeros _ _
  have hw : ∀ a n, trialSi.mem.loadWords a n = List.replicate n 0 := by
    intro a n
    simp only [GcMem.loadWords, hz, List.map_const', List.length_range]
  have hv : ∀ off, trialSi.sdk.value off = 0 := by
    intro off
    rw [value, loadOr]
    split
    · exact hz _
    · rfl
  have hf : lineFactor trialSi.sdk = 1 := by
    rw [lineFactor, loadU16Or]
    split
    · rfl
    · simp only [trialSi, UInt8.toNat_zero, Nat.zero_mul, Nat.add_zero, Nat.zero_mod, Nat.zero_ne_one, ↓reduceIte]
  exact {
    base := rfl, size := rfl, low := by decide, high := by decide
    records := ⟨fun _ _ => hw _ 8, fun _ _ => hw _ 6, fun _ _ => by rw [loadU64be, hz, hz]; rfl,
      fun _ _ => by rw [heldOf, hz]; rfl⟩
    rates := ⟨hv _, hv _, hf⟩
    status := rfl, resp := rfl, resp_lt := fun _ => ⟨Nat.two_pow_pos 32, Nat.two_pow_pos 32⟩
    now := rfl, now_lt := by decide, delta := rfl, hwOk := rfl }

/-- A transfer that must wait, and one of its responses. -/
def trialCalls : List SiCall :=
  [.setSystemTimeSeed 5, .SITransfer 2 ⟨0x80001000, 1, 0x80001008, 8, 0, 7⟩, .setStatusSeed 2 0x20,
    .setRespWordsSeed 2 0x11 0x22, .SIGetResponse 2 0x80001008, .SIGetResponse 1 0x80001008]

theorem memory_shows_bus_trial :
    ∃ s', runAll exec trialSi trialCalls = some ((specAll spec trialBus trialCalls).1, s') ∧
      Shows 0x80000000 0x1800000 s' (specAll spec trialBus trialCalls).2 :=
  memory_shows_bus trialSi trialBus trialCalls trial_shows (by decide)

end SdkPort.SI
