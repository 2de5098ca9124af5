import SdkPort.Card.CardSegment

/-!
# Reading a card

With a card image behind the channel, a read copies its segments one after the other, each
from the address the channel heard. That is the address of the segment unless the bytes
that fill the latency look like a command themselves.
-/
namespace SdkPort.Card

open ByteMem (load store)

/-- A card image, as `memcard_backend.c` keeps it. -/
structure GcMemcard where
  inserted : Bool
  size : Nat
  data : Nat → UInt8

def gcMemcardRead (c : GcMemcard) (off dst len : Nat) (mem : Nat → UInt8) : Bool × (Nat → UInt8) :=
  if ¬ c.inserted then (false, mem)
  else if c.size < off ∨ c.size - off < len then (false, mem)
  else (true, store mem dst (load c.data off len))

/-- A write changes the card and no memory; the reads of the interface never ask for one. -/
def gcMemcardExiDma (c : GcMemcard) : DmaHook := fun _ exi_addr buffer length type mem =>
  if buffer = 0 ∨ length = 0 then (false, mem)
  else if ¬ c.inserted then (false, mem)
  else if type = EXI_READ then gcMemcardRead c exi_addr buffer length mem
  else if type = EXI_WRITE then (¬ (c.size < exi_addr ∨ c.size - exi_addr < length), mem)
  else (false, mem)

def callbacks (log : List Event) : List (Callback × Int) := log.filterMap fun
  | .callback cb result => some (cb, result)
  | _ => none

/-- Segments copied one after the other, each from the address heard. -/
def readSegments (c : GcMemcard) (area latency : Nat) : Nat → Nat → Nat → (Nat → UInt8) → Bool × (Nat → UInt8)
  | 0, _, _, m => (true, m)
  | n + 1, addr, dst, m =>
    let a := heard addr (load m area latency)
    if a + 512 ≤ c.size then readSegments c area latency n (addr + 512) (dst + 512) (store m dst (load c.data a 512))
    else (false, m)

/-- Bytes that look like a command for an address do no harm if the card has the same data
there as in the segment. -/
def GcMemcard.Same (c : GcMemcard) (a addr : Nat) : Prop :=
  a + 512 ≤ c.size ∧ load c.data a 512 = load c.data addr 512

/-- The bytes that fill the latency of a segment, when the segments before it were read. -/
def latencyBytes (c : GcMemcard) (area latency addr dst : Nat) (m : Nat → UInt8) (k : Nat) : List UInt8 :=
  load (store m dst (load c.data addr (512 * k))) area latency

variable {c : GcMemcard} {area latency addr dst n k a : Nat} {m : Nat → UInt8} {s s' : Slot} {chan : Int}

@[simp] theorem callbacks_append (l r : List Event) : callbacks (l ++ r) = callbacks l ++ callbacks r :=
  List.filterMap_append

section Segments

/-- What lies in front of the destination stays. -/
theorem readSegments_frame {x : Nat} (hx : x < dst) :
    (readSegments c area latency n addr dst m).2 x = m x := by
  induction n generalizing addr dst m with
  | zero => rfl
  | succ n ih =>
    rw [readSegments]
    split
    · rw [ih (by omega)]
      exact ByteMem.store_of_lt hx
    · rfl

theorem latencyBytes_succ : latencyBytes c area latency addr dst m (k + 1) =
    latencyBytes c area latency (addr + 512) (dst + 512) (store m dst (load c.data addr 512)) k := by
  have hlen : dst + (load c.data addr 512).length = dst + 512 := by rw [ByteMem.length_load]
  rw [latencyBytes, show 512 * (k + 1) = 512 + 512 * k by omega, ByteMem.load_add, ByteMem.store_append, hlen]
  rfl

theorem latencyBytes_zero : latencyBytes c area latency addr dst m 0 = load m area latency := by
  rw [latencyBytes]
  exact congrArg (fun m => load m area latency) (ByteMem.store_nil m dst)

theorem same_heard (haddr : addr < 2 ^ 24) (hsize : addr + 512 ≤ c.size) (d : List UInt8) :
    (∀ a, captured d = some a → c.Same a addr) ↔ c.Same (heard addr d) addr := by
  rw [heard, Nat.mod_eq_of_lt haddr]
  cases captured d with
  | none => exact ⟨fun _ => ⟨hsize, rfl⟩, fun _ a ha => by cases ha⟩
  | some a => exact ⟨fun h => h a rfl, fun h a' ha => by cases ha; exact h⟩

/-- All the data arrives exactly if no bytes between command and data redirect a segment to
other data. -/
theorem readSegments_iff (hmax : addr + 512 * n ≤ 2 ^ 24) (hsize : addr + 512 * n ≤ c.size) :
    ((readSegments c area latency n addr dst m).1 = true ∧
      load (readSegments c area latency n addr dst m).2 dst (512 * n) = load c.data addr (512 * n)) ↔
    ∀ k, k < n → ∀ a, captured (latencyBytes c area latency addr dst m k) = some a → c.Same a (addr + 512 * k) := by
  induction n generalizing addr dst m with
  | zero => simp [readSegments, load]
  | succ n ih =>
    have hlt : addr < 2 ^ 24 := by omega
    have hin : addr + 512 ≤ c.size :=
      Nat.le_trans (Nat.add_le_add_left (Nat.le_mul_of_pos_right 512 (Nat.succ_pos n)) addr) hsize
    have hfirst := same_heard hlt hin (load m area latency)
    have hsplit : ∀ f : Nat → UInt8, ∀ b, load f b (512 * (n + 1)) = load f b 512 ++ load f (b + 512) (512 * n) := by
      intro f b
      rw [show 512 * (n + 1) = 512 + 512 * n by omega, ByteMem.load_add]
    have hfront : ∀ b, load (readSegments c area latency n (addr + 512) (dst + 512)
        (store m dst (load c.data b 512))).2 dst 512 = load c.data b 512 := by
      intro b
      have hstored := ByteMem.load_store_self m dst (load c.data b 512)
      rw [ByteMem.length_load] at hstored
      refine Eq.trans (ByteMem.load_eq_iff.mpr ?_) hstored
      intro i hi
      exact readSegments_frame (Nat.add_lt_add_left hi dst)
    have hnext := @ih (addr + 512) (dst + 512) (store m dst (load c.data addr 512)) (by omega) (by omega)
    rw [Nat.forall_lt_succ_left]
    simp only [Nat.mul_zero, Nat.add_zero, latencyBytes_zero]
    rw [hfirst, readSegments]
    by_cases hsame : c.Same (heard addr (load m area latency)) addr
    · rw [if_pos hsame.1, hsame.2, hsplit, hsplit, hfront, List.append_cancel_left_eq, hnext]
      simp only [latencyBytes_succ, hsame, true_and, Nat.mul_succ, Nat.add_assoc, Nat.add_comm 512]
    · refine ⟨?_, fun h => absurd h.1 hsame⟩
      rintro ⟨hok, hload⟩
      by_cases hin : heard addr (load m area latency) + 512 ≤ c.size
      · rw [if_pos hin, hsplit, hsplit, hfront] at hload
        exact absurd ⟨hin, (List.append_inj hload (by simp)).1⟩ hsame
      · rw [if_neg hin] at hok
        cases hok

end Segments

/-- A card can be read, and so many segments of a read are to come. -/
structure Reading (c : GcMemcard) (k : Nat) (s : Slot) (n : Nat) : Prop where
  attached : s.card.attached = true
  free : s.exi.Free
  hook : s.exi.dma_hook = some (gcMemcardExiDma c)
  inserted : c.inserted = true
  probe : ∀ i, 0 < s.exi.probeex_ret i
  xfer : s.card.xfer_callback = some (.user k)
  repeats : s.card.repeats = n
  buffer : s.card.buffer ≠ 0

/-- A card image answers with the data at the address heard, if it has them. -/
theorem answer_image (hook : s.exi.dma_hook = some (gcMemcardExiDma c)) (inserted : c.inserted = true)
    (buffer : s.card.buffer ≠ 0) : s.answer =
      if heard s.card.addr s.dummies + 512 ≤ c.size then
        (true, store s.mem s.card.buffer (load c.data (heard s.card.addr s.dummies) 512))
      else (false, s.mem) := by
  have hlen : ¬ (s.card.buffer = 0 ∨ 512 = 0) := by
    simp [buffer]
  rw [Slot.answer, if_neg buffer, hook]
  dsimp only
  rw [gcMemcardExiDma, if_neg hlen, if_neg (by simp [inserted]), if_pos rfl, gcMemcardRead,
    if_neg (by simp [inserted])]
  by_cases hin : heard s.card.addr s.dummies + 512 ≤ c.size
  · rw [if_pos hin, if_neg (by omega)]
  · rw [if_neg hin, if_pos (by omega)]

/-- The user hears of the end of the read. -/
theorem blockReadEnd_user {d : Nat} {result : Int} (h : s.card.xfer_callback = some (.user k)) :
    ∃ s', blockReadEnd (invoke (d + 1)) chan result s = some s' ∧ s'.exi = s.exi ∧ s'.mem = s.mem ∧
      s'.log = s.log ++ [.callback (.user k) result] := by
  have hput : ∀ t : Slot, (cardPutControlBlock t result).exi = t.exi ∧ (cardPutControlBlock t result).mem = t.mem ∧
      (cardPutControlBlock t result).log = t.log ∧
      (cardPutControlBlock t result).card.xfer_callback = t.card.xfer_callback := by
    intro t
    unfold cardPutControlBlock
    split
    · exact ⟨rfl, rfl, rfl, rfl⟩
    · split <;> exact ⟨rfl, rfl, rfl, rfl⟩
  obtain ⟨hexi, hmem, hlog, hxfer⟩ := hput s
  rw [blockReadEnd]
  by_cases hapi : s.card.api_callback = none
  · simp only [if_pos hapi, hxfer, h]
    exact ⟨_, rfl, hexi, hmem, congrArg (· ++ _) hlog⟩
  · simp only [if_neg hapi, h]
    exact ⟨_, rfl, rfl, rfl, rfl⟩

/-- The outcome of a read of segments. -/
def ReadEnds (c : GcMemcard) (k n : Nat) (s : Slot) (r : Int) (s' : Slot) : Prop :=
  let data := readSegments c (s.card.work_area + CARDID_SIZE) s.card.latency n s.card.addr s.card.buffer s.mem
  s'.exi.Free ∧ s'.mem = data.2 ∧
    (data.1 = true ∧ r = CARD_RESULT_READY ∧
        callbacks s'.log = callbacks s.log ++ [(.user k, CARD_RESULT_READY)] ∨
      data.1 = false ∧ (r = CARD_RESULT_NOCARD ∧ s'.card.xfer_callback = some (.user k) ∧
          callbacks s'.log = callbacks s.log ∨
        r = CARD_RESULT_READY ∧ callbacks s'.log = callbacks s.log ++ [(.user k, CARD_RESULT_NOCARD)]))

theorem Segment.callbacks {ok : Bool} (h : Segment s s' ok) : callbacks s'.log = callbacks s.log := by
  cases h.log with
  | inl h => simp [h, Slot.wire, Card.callbacks]
  | inr h => simp [h.2, Slot.wire, Card.callbacks]

theorem Segment.reading {ok : Bool} (hs : Segment s s' ok) (h : Reading c k s (n + 1)) :
    Reading c k s'.probed.advanced n := by
  refine ⟨(hs.field (·.attached) fun _ => rfl).trans h.attached, hs.free, ?_, h.inserted, ?_,
    (hs.field (·.xfer_callback) fun _ => rfl).trans h.xfer, ?_, Nat.succ_ne_zero _⟩
  · show s'.exi.dma_hook = _
    rw [hs.hook]
    exact h.hook
  · show ∀ i, 0 < s'.exi.probeex_ret i
    rw [hs.probe.1]
    exact h.probe
  · show s'.card.repeats - 1 = n
    have hrep : s'.card.repeats = (n + 1 : Nat) := (hs.field (·.repeats) fun _ => rfl).trans h.repeats
    omega

theorem Segment.next_addr {ok : Bool} (hs : Segment s s' ok) (haddr : s.card.addr + 512 ≤ 2 ^ 24) :
    s'.probed.advanced.card.addr = s.card.addr + 512 := by
  show (s'.card.addr + 512) % 2 ^ 32 = s.card.addr + 512
  rw [hs.field (·.addr) fun _ => rfl]
  exact Nat.mod_eq_of_lt (Nat.lt_of_le_of_lt haddr (by decide))

/-- A segment whose data came is followed by the others. -/
theorem Segment.readEnds {ok : Bool} (hs : Segment s s' ok) (h : Reading c k s (n + 1))
    (haddr : s.card.addr + 512 ≤ 2 ^ 24) (hin : heard s.card.addr s.dummies + 512 ≤ c.size) {t : Slot}
    (ht : ReadEnds c k n s'.probed.advanced CARD_RESULT_READY t) :
    ReadEnds c k (n + 1) s CARD_RESULT_READY t := by
  have hans := hs.answer
  rw [answer_image h.hook h.inserted h.buffer, if_pos hin] at hans
  have hmem : s'.probed.advanced.mem = store s.mem s.card.buffer (load c.data (heard s.card.addr s.dummies) 512) :=
    congrArg Prod.snd hans
  have harea : s'.probed.advanced.card.work_area = s.card.work_area := hs.field (·.work_area) fun _ => rfl
  have hlat : s'.probed.advanced.card.latency = s.card.latency := hs.field (·.latency) fun _ => rfl
  have hnext := hs.next_addr haddr
  have hbuf : s'.probed.advanced.card.buffer = s.card.buffer + 512 :=
    congrArg (· + 512) (hs.field (·.buffer) fun _ => rfl)
  have hcalls : Card.callbacks s'.probed.advanced.log = Card.callbacks s.log := hs.callbacks
  have hstep : readSegments c (s.card.work_area + CARDID_SIZE) s.card.latency (n + 1) s.card.addr s.card.buffer
      s.mem = readSegments c (s.card.work_area + CARDID_SIZE) s.card.latency n (s.card.addr + 512)
        (s.card.buffer + 512) (store s.mem s.card.buffer (load c.data (heard s.card.addr s.dummies) 512)) :=
    if_pos hin
  rw [ReadEnds, hstep, ← hmem, ← harea, ← hlat, ← hnext, ← hbuf, ← hcalls]
  exact ht

theorem Segment.refused (hs : Segment s s' false) (h : Reading c k s (n + 1)) :
    ReadEnds c k (n + 1) s CARD_RESULT_NOCARD s' := by
  have hans := hs.answer
  rw [answer_image h.hook h.inserted h.buffer] at hans
  by_cases hin : heard s.card.addr s.dummies + 512 ≤ c.size
  · rw [if_pos hin] at hans
    cases congrArg Prod.fst hans
  · rw [if_neg hin] at hans
    have hstep : readSegments c (s.card.work_area + CARDID_SIZE) s.card.latency (n + 1) s.card.addr s.card.buffer
        s.mem = (false, s.mem) := if_neg hin
    rw [ReadEnds, hstep]
    exact ⟨hs.free, congrArg Prod.snd hans, .inr ⟨rfl, .inl ⟨rfl,
      (hs.field (·.xfer_callback) fun _ => rfl).trans h.xfer, hs.callbacks⟩⟩⟩

theorem Segment.heard_in (hs : Segment s s' true) (h : Reading c k s (n + 1)) :
    heard s.card.addr s.dummies + 512 ≤ c.size := by
  by_contra hin
  have hans := hs.answer
  rw [answer_image h.hook h.inserted h.buffer, if_neg hin] at hans
  cases congrArg Prod.fst hans

theorem blockReadEnd_reading {e : Nat} (h : Reading c k s 0) :
    ∃ s', blockReadEnd (invoke (e + 1)) chan CARD_RESULT_READY s = some s' ∧
      ReadEnds c k 0 s CARD_RESULT_READY s' := by
  obtain ⟨s', hr, hexi, hmem, hlog⟩ := blockReadEnd_user (d := e) h.xfer
  refine ⟨s', hr, ?_, hmem, .inl ⟨rfl, rfl, ?_⟩⟩
  · rw [hexi]
    exact h.free
  · rw [hlog, callbacks_append]
    rfl

/-- A read that was stopped tells the user. -/
theorem ReadEnds.told {e : Nat} {r : Int} (h : ReadEnds c k n s r s') (hr : r < 0) :
    ∃ t, blockReadEnd (invoke (e + 1)) chan r s' = some t ∧ ReadEnds c k n s CARD_RESULT_READY t := by
  obtain ⟨hfree, hmem, hcase⟩ := h
  rcases hcase with ⟨_, rfl, _⟩ | ⟨hdata, ⟨rfl, hxfer, hcalls⟩ | ⟨rfl, _⟩⟩
  · cases hr
  · obtain ⟨t, ht, hexi, hmem', hlog⟩ := blockReadEnd_user (d := e) hxfer
    refine ⟨t, ht, hexi.symm ▸ hfree, hmem'.trans hmem, .inr ⟨hdata, .inr ⟨rfl, ?_⟩⟩⟩
    rw [hlog, callbacks_append, hcalls]
    rfl
  · cases hr

/-- Segment by segment, each started by the completion of the one before. -/
theorem cardReadSegment_run {d : Nat} (hchan : ¬ (chan < 0 ∨ 2 ≤ chan)) (h : Reading c k s (n + 1))
    (haddr : s.card.addr + 512 * (n + 1) ≤ 2 ^ 24) (hd : 2 * n + 3 ≤ d) :
    ∃ r s', cardReadSegment (invoke d) chan (some .blockRead) s = some (r, s') ∧ ReadEnds c k (n + 1) s r s' := by
  induction n generalizing s d with
  | zero =>
    obtain ⟨e, rfl⟩ : ∃ e, d = e + 3 := ⟨d - 3, by omega⟩
    obtain ⟨s₁, ok, hseg, heq⟩ := cardReadSegment_eq (e + 2) .blockRead hchan h.attached h.free
    cases ok with
    | false => exact ⟨_, s₁, heq, hseg.refused h⟩
    | true =>
      have hlast : s₁.probed.card.repeats = 1 := (hseg.field (·.repeats) fun _ => rfl).trans h.repeats
      have hprobe : s₁.probeResult = CARD_RESULT_READY := if_pos (hseg.probe.1 ▸ h.probe _)
      obtain ⟨t, ht, hends⟩ := @blockReadEnd_reading _ _ _ chan e (hseg.reading h)
      refine ⟨_, t, ?_, hseg.readEnds h haddr (hseg.heard_in h) hends⟩
      have hcall : invoke (e + 2) .blockRead chan s₁.probeResult s₁.probed = some t := by
        rw [hprobe]
        exact (BlockReadCallback_last hlast).trans ht
      rw [heq, if_pos rfl, hcall]
      rfl
  | succ n ih =>
    obtain ⟨e, rfl⟩ : ∃ e, d = e + 3 := ⟨d - 3, by omega⟩
    obtain ⟨s₁, ok, hseg, heq⟩ := cardReadSegment_eq (e + 2) .blockRead hchan h.attached h.free
    cases ok with
    | false => exact ⟨_, s₁, heq, hseg.refused h⟩
    | true =>
      have hfirst : s.card.addr + 512 ≤ 2 ^ 24 := Nat.le_trans
        (Nat.add_le_add_left (Nat.le_mul_of_pos_right 512 (Nat.succ_pos (n + 1))) s.card.addr) haddr
      have hmore : 1 < s₁.probed.card.repeats := by
        have hrep : s₁.card.repeats = (n + 2 : Nat) := (hseg.field (·.repeats) fun _ => rfl).trans h.repeats
        show 1 < s₁.card.repeats
        omega
      have hprobe : s₁.probeResult = CARD_RESULT_READY := if_pos (hseg.probe.1 ▸ h.probe _)
      have hbound : s₁.probed.advanced.card.addr + 512 * (n + 1) ≤ 2 ^ 24 := by
        rw [hseg.next_addr hfirst, Nat.add_assoc, Nat.add_comm 512]
        exact haddr
      obtain ⟨r, t, hr, hends⟩ := ih (d := e + 1) (hseg.reading h) hbound (by omega)
      have hblock : ∃ t, BlockReadCallback (invoke (e + 1)) chan CARD_RESULT_READY s₁.probed = some t ∧
          ReadEnds c k (n + 1) s₁.probed.advanced CARD_RESULT_READY t := by
        rw [BlockReadCallback_next hmore, hr]
        dsimp only
        by_cases hneg : r < 0
        · rw [if_pos hneg]
          exact hends.told hneg
        · rw [if_neg hneg]
          refine ⟨t, rfl, ?_⟩
          have hready : r = CARD_RESULT_READY := by
            rcases hends.2.2 with ⟨_, rfl, _⟩ | ⟨_, ⟨rfl, _⟩ | ⟨rfl, _⟩⟩
            · rfl
            · exact absurd (by decide) hneg
            · rfl
          exact hready ▸ hends
      obtain ⟨t, ht, hends⟩ := hblock
      refine ⟨_, t, ?_, hseg.readEnds h hfirst (hseg.heard_in h) hends⟩
      have hcall : invoke (e + 2) .blockRead chan s₁.probeResult s₁.probed = some t := by
        rw [hprobe]
        exact ht
      rw [heq, if_pos rfl, hcall]
      rfl

/-- A card answers, and nobody holds its channel. -/
structure CanRead (c : GcMemcard) (s : Slot) : Prop where
  attached : s.card.attached = true
  free : s.exi.Free
  hook : s.exi.dma_hook = some (gcMemcardExiDma c)
  inserted : c.inserted = true
  probe : ∀ i, 0 < s.exi.probeex_ret i

/-- A read brings the data of the card, tells its user once and gives the channel back. -/
def Delivers (c : GcMemcard) (chan : Int) (addr length dst k : Nat) (s : Slot) : Prop :=
  ∃ r s', cardRead (invoke stackDepth) chan addr length dst (some (.user k)) s = some (r, s') ∧
    load s'.mem dst length = load c.data addr length ∧
    callbacks s'.log = callbacks s.log ++ [(.user k, CARD_RESULT_READY)] ∧ s'.exi.Free

/-- A read delivers exactly if no bytes that fill a latency look like a command for other
data. -/
theorem cardRead_delivers {length : Nat} (hchan : 0 ≤ chan ∧ chan < 2) (hs : CanRead c s) (h0 : 0 < length)
    (h512 : 512 ∣ length) (hdst : dst ≠ 0) (hmax : addr + length ≤ 2 ^ 24) (hsize : addr + length ≤ c.size) :
    Delivers c chan addr length dst k s ↔ ∀ j, 512 * j < length → ∀ a,
      captured (latencyBytes c (s.card.work_area + CARDID_SIZE) s.card.latency addr dst s.mem j) = some a →
        c.Same a (addr + 512 * j) := by
  obtain ⟨n, rfl⟩ := h512
  obtain ⟨n, rfl⟩ : ∃ m, n = m + 1 := ⟨n - 1, by omega⟩
  have hrange : ¬ (chan < 0 ∨ 2 ≤ chan) := by omega
  let t : Slot := { s with
    card.xfer_callback := some (.user k), card.repeats := ((512 * (n + 1) : Nat) : Int).tdiv 512
    card.addr := addr, card.buffer := dst }
  have hrep : ((512 * (n + 1) : Nat) : Int).tdiv 512 = (n + 1 : Nat) := by
    rw [Int.natCast_mul]
    exact Int.mul_tdiv_cancel_left _ (by decide)
  have ht : Reading c k t (n + 1) := ⟨hs.attached, hs.free, hs.hook, hs.inserted, hs.probe, rfl, hrep, hdst⟩
  have hdepth : 2 * n + 3 ≤ stackDepth := by
    unfold stackDepth
    omega
  obtain ⟨r, s', hr, hfree, hmem, hcase⟩ := cardReadSegment_run hrange ht hmax hdepth
  have hrun : cardRead (invoke stackDepth) chan addr (512 * (n + 1) : Nat) dst (some (.user k)) s = some (r, s') := by
    rw [cardRead, if_neg hrange, if_neg (by simp [hs.attached])]
    exact hr
  have hiff := @readSegments_iff c (s.card.work_area + CARDID_SIZE) s.card.latency addr dst (n + 1) s.mem hmax hsize
  have hlt : ∀ j, 512 * j < 512 * (n + 1) ↔ j < n + 1 := by
    intro j
    exact Nat.mul_lt_mul_left (by decide)
  simp only [hlt]
  rw [← hiff, Delivers, hrun]
  constructor
  · rintro ⟨_, _, heq, hload, hcalls, _⟩
    cases heq
    rcases hcase with ⟨hdata, _, _⟩ | ⟨_, ⟨_, _, hno⟩ | ⟨_, hno⟩⟩
    · rw [hmem] at hload
      exact ⟨hdata, hload⟩
    · have hcalls' : callbacks s.log = callbacks s.log ++ [(.user k, CARD_RESULT_READY)] := hno.symm.trans hcalls
      exact absurd (congrArg List.length hcalls') (by simp)
    · have hlast := List.append_cancel_left (hno.symm.trans hcalls)
      cases hlast
  · rintro ⟨hdata, hload⟩
    rcases hcase with ⟨_, _, hcalls⟩ | ⟨hno, _⟩
    · exact ⟨r, s', rfl, hmem.symm ▸ hload, hcalls, hfree⟩
    · have hno' := hno.symm.trans hdata
      cases hno'

section Trial

/-- A card of two segments, the second one of ones. -/
def trialCardImage : GcMemcard := ⟨true, 1024, fun i => UInt8.ofNat (i / 512)⟩

def trialControl : GcCardControl where
  result := CARD_RESULT_READY
  disk_id := 1
  attached := true
  mount_step := 0
  size_mb := 4
  sector_size := 8192
  work_area := 0x10000
  ext_callback := none
  api_callback := none
  unlock_callback := none
  current_dir := 0
  current_fat := 0
  cid := 4
  cblock := 64
  latency := 8
  id := fun _ => 0
  cmd := []
  cmdlen := 0
  mode := 0
  repeats := 0
  addr := 0
  buffer := 0
  xferred := 0
  tx_callback := none
  xfer_callback := none
  size_u16 := 4
  current_dir_ptr := 0
  current_fat_ptr := 0

def trialExi (c : GcMemcard) : Exi where
  line := .deselected
  locked := false
  attached := true
  dev := 0
  imm := 0
  addr := 0
  has_addr := false
  pending_status_read := false
  card_status := 0x40
  probeex_ret := fun _ => 1
  probes := 0
  getid_ok := true
  id := 4
  attach_ok := true
  dma_hook := some (gcMemcardExiDma c)
  dmas := 0

/-- A slot whose work area holds one byte where the latency bytes begin. -/
def trialSlot (b : UInt8) : Slot where
  card := trialControl
  exi := trialExi trialCardImage
  mem := fun x => if x = 0x10200 then b else 0
  scb_locked := false
  flashID := fun _ => 0
  flashIDCheckSum := 0xFF
  gamechoice := none
  font_encode := 0
  unlock_ok := false
  unlock_flash_id := fun _ => 0
  log := []

theorem trialSlot_canRead (b : UInt8) : CanRead trialCardImage (trialSlot b) :=
  ⟨rfl, ⟨rfl, rfl⟩, rfl, rfl, fun _ => Int.one_pos⟩

/-- Latency bytes that look like a read at 0 bring the first segment for the second. -/
theorem trialSlot_redirected : ¬ Delivers trialCardImage 0 512 512 0x1000 7 (trialSlot 0x52) := by
  rintro ⟨r, s', hr, hload, -, -⟩
  have hrun : (cardRead (invoke stackDepth) 0 512 (512 : Nat) 0x1000 (some (.user 7)) (trialSlot 0x52)).map
      (fun p => p.2.mem 0x1000) = some 0 := by decide +kernel
  rw [hr] at hrun
  have hbyte : s'.mem 0x1000 = 1 := ByteMem.load_eq_iff.mp hload 0 (by decide)
  rw [Option.map_some, hbyte] at hrun
  cases hrun

/-- Zeros between command and data do no harm. -/
theorem trialSlot_delivers : Delivers trialCardImage 0 512 512 0x1000 7 (trialSlot 0) := by
  apply (cardRead_delivers (by decide) (trialSlot_canRead 0) (by decide) (by decide) (by decide) (by decide)
    (by decide)).mpr
  intro j hj a ha
  have hj0 : j = 0 := by omega
  subst hj0
  rw [latencyBytes_zero] at ha
  cases ha

end Trial

end SdkPort.Card
