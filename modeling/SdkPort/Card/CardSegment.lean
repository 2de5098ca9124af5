import SdkPort.Card.CardMount

/-!
# One segment of a read

What a segment does between its start and the call of its completion, whatever the device
answers: the channel is taken and given back, and memory is changed by the device alone.
-/
namespace SdkPort.Card

open ByteMem (load store)

/-- Nobody holds the channel. -/
def Exi.Free (e : Exi) : Prop := e.locked = false ∧ e.line = .deselected

/-- The channel given back. -/
def Exi.released (e : Exi) : Exi := { e with line := .deselected, locked := false }

/-- The bytes that fill the latency of a read. -/
def Slot.dummies (s : Slot) : List UInt8 := load s.mem (s.card.work_area + CARDID_SIZE) s.card.latency

/-- The address the channel passes on: that of the command, or one found in the bytes after it. -/
def heard (addr : Nat) (dummies : List UInt8) : Nat := (captured dummies).getD (addr % 2 ^ 24)

/-- The answer of the device to the request of a segment. -/
def Slot.answer (s : Slot) : Bool × (Nat → UInt8) :=
  if s.card.buffer = 0 then (false, s.mem)
  else
    match s.exi.dma_hook with
    | none => (false, s.mem)
    | some hook => hook s.exi.dmas (heard s.card.addr s.dummies) s.card.buffer 512 EXI_READ s.mem

/-- The next probe was asked for. -/
def Slot.probed (s : Slot) : Slot := { s with exi.probes := s.exi.probes + 1 }

/-- What a completion is told: the answer of the next probe. -/
def Slot.probeResult (s : Slot) : Int :=
  if 0 < s.exi.probeex_ret s.exi.probes then CARD_RESULT_READY else CARD_RESULT_NOCARD

/-- On to the next segment. -/
def Slot.advanced (s : Slot) : Slot :=
  { s with
    card.xferred := s.card.xferred + 512, card.addr := Gc.u32 (s.card.addr + 512)
    card.buffer := s.card.buffer + 512, card.repeats := s.card.repeats - 1 }

/-- What a segment shows on the bus. -/
def Slot.wire (s : Slot) : List Event := [.imm (readCommand s.card.addr), .imm s.dummies]

/-- A segment up to its completion, and whether the data came. -/
structure Segment (s s' : Slot) (ok : Bool) : Prop where
  free : s'.exi.Free
  attached : s'.exi.attached = s.exi.attached
  hook : s'.exi.dma_hook = s.exi.dma_hook
  probe : s'.exi.probeex_ret = s.exi.probeex_ret ∧ s'.exi.probes = s.exi.probes
  card : ∃ cmd, s'.card = { s.card with
    cmd := cmd, cmdlen := 5, mode := 0, tx_callback := none, unlock_callback := none }
  answer : (ok, s'.mem) = s.answer
  rest : s' = { s with card := s'.card, exi := s'.exi, mem := s'.mem, log := s'.log }
  log : s'.log = s.log ++ s.wire ++ [.dma s.card.buffer 512] ∨ ok = false ∧ s'.log = s.log ++ s.wire

variable {s s' : Slot} {e : Exi} {n addr : Nat} {chan : Int} {cb : Callback} {buffer : List UInt8}

/-- The command of an address gives it back. -/
theorem captured_readCommand (addr : Nat) : captured (readCommand addr) = some (addr % 2 ^ 24) := by
  simp only [captured, readCommand, true_or, if_true, commandAddr, UInt8.toNat_ofNat']
  congr 1
  omega

theorem sendImm_eq (hidle : s.exi.line = .idle) (buffer : List UInt8) :
    ∃ e', sendImm s buffer = ((true, buffer), { s with exi := e', log := s.log ++ [.imm buffer] }) ∧
      e'.line = .idle ∧ e'.addr = (captured buffer).getD s.exi.addr ∧
      e'.has_addr = ((captured buffer).isSome || s.exi.has_addr) ∧ s.exi.Kept e' := by
  obtain ⟨e', hr, h⟩ := EXIImmEx_write hidle buffer
  exact ⟨e', by rw [sendImm, hr], h⟩

/-- The start of a command on a free channel. -/
theorem cardStart_eq (hchan : ¬ (chan < 0 ∨ 2 ≤ chan)) (ha : s.card.attached = true) (hfree : s.exi.Free) :
    cardStart chan (some cb) s = (CARD_RESULT_READY, { s with
      card.tx_callback := some cb, card.unlock_callback := none
      exi.locked := true, exi.line := .idle, exi.dev := 0 }) := by
  rw [cardStart, if_neg hchan, if_neg (not_not.mpr ha)]
  simp [EXILock, EXISelect, hfree.1, hfree.2, Line.selected]

/-- Command and latency bytes go out, and the request is made for the address heard. -/
theorem segmentTransfers_eq {call : Call} {rest : List UInt8} (hidle : s.exi.line = .idle)
    (hlen : s.card.cmdlen = 5) (hcmd : s.card.cmd = readCommand s.card.addr ++ rest) :
    ∃ e', segmentTransfers call chan s = EXIDma call chan s.card.buffer 512 s.card.mode (some .txHandler)
        { s with exi := e', log := s.log ++ s.wire } ∧
      e'.line = .idle ∧ e'.addr = heard s.card.addr s.dummies ∧ e'.has_addr = true ∧ s.exi.Kept e' := by
  have htake : s.card.cmd.take s.card.cmdlen = readCommand s.card.addr := by
    rw [hlen, hcmd]
    rfl
  have hback : readCommand s.card.addr ++ s.card.cmd.drop s.card.cmdlen = s.card.cmd := by
    rw [hlen, hcmd]
    rfl
  obtain ⟨e₁, hr₁, hline₁, haddr₁, hhas₁, hk₁⟩ := sendImm_eq hidle (readCommand s.card.addr)
  rw [captured_readCommand] at haddr₁ hhas₁
  obtain ⟨e₂, hr₂, hline₂, haddr₂, hhas₂, hk₂⟩ :=
    @sendImm_eq { s with exi := e₁, log := s.log ++ [.imm (readCommand s.card.addr)] } hline₁ s.dummies
  refine ⟨e₂, ?_, hline₂, ?_, ?_, hk₁.trans hk₂⟩
  · rw [segmentTransfers, htake, hr₁]
    simp only [hback, not_true, if_false]
    have hr₂' : sendImm { s with exi := e₁, log := s.log ++ [.imm (readCommand s.card.addr)] }
        (load s.mem (s.card.work_area + CARDID_SIZE) s.card.latency) = _ := hr₂
    rw [hr₂']
    simp only [not_true, if_false, Slot.dummies, ByteMem.store_load_self, Slot.wire, List.append_assoc,
      List.cons_append, List.nil_append]
  · rw [haddr₂, heard]
    exact congrArg _ haddr₁
  · rw [hhas₂]
    simp [hhas₁]

theorem EXIDeselect_idle (h : e.line = .idle) : EXIDeselect e = (true, { e with line := .deselected }) := by
  rw [EXIDeselect, if_neg (by rw [h]; decide), if_neg (by rw [h]; decide)]

theorem EXIUnlock_deselected : EXIUnlock { e with line := .deselected } = (true, e.released) :=
  if_neg Bool.false_ne_true

/-- The completion of a transfer gives the channel back before it calls anybody. -/
theorem cardTxHandler_eq {call : Call} (hchan : ¬ (chan < 0 ∨ 2 ≤ chan)) (hidle : s.exi.line = .idle)
    (htx : s.card.tx_callback = some cb) :
    cardTxHandler call chan s = call cb chan s.probeResult
      { s with exi := s.exi.released, card.tx_callback := none }.probed := by
  rw [cardTxHandler, if_neg hchan, EXIDeselect_idle hidle]
  dsimp only
  rw [EXIUnlock_deselected, htx]
  dsimp only
  rw [if_pos rfl, EXIProbe]
  simp only [decide_eq_true_eq]
  rfl

/-- A request of an idle channel: refused, or answered and completed. -/
theorem EXIDma_eq (n : Nat) (hchan : ¬ (chan < 0 ∨ 2 ≤ chan)) (hidle : s.exi.line = .idle)
    (hhas : s.exi.has_addr = true) (haddr : s.exi.addr = heard s.card.addr s.dummies)
    (htx : s.card.tx_callback = some cb) :
    ∃ ok s₁, (ok, s₁.mem) = s.answer ∧
      s₁ = { s with exi := s₁.exi, mem := s₁.mem, log := s₁.log } ∧
      s₁.exi = { s.exi with dmas := s₁.exi.dmas } ∧
      (s₁.log = s.log ++ [.dma s.card.buffer 512] ∨ ok = false ∧ s₁.log = s.log) ∧
      EXIDma (invoke (n + 1)) chan s.card.buffer 512 EXI_READ (some .txHandler) s =
        if ok then (invoke n cb chan s₁.probeResult
          { s₁ with exi := s₁.exi.released, card.tx_callback := none }.probed).map (true, ·)
        else some (false, s₁) := by
  unfold EXIDma Slot.answer
  by_cases h0 : s.card.buffer = 0
  · have h0' : s.card.buffer = 0 ∨ 512 = 0 := .inl h0
    rw [if_pos h0, if_pos h0']
    exact ⟨false, s, rfl, rfl, rfl, .inr ⟨rfl, rfl⟩, rfl⟩
  · have h0' : ¬ (s.card.buffer = 0 ∨ 512 = 0) := by omega
    rw [if_neg h0, if_neg h0', if_neg (by rw [hidle]; decide), if_neg (by rw [hidle]; decide),
      if_neg (by rw [hhas]; decide), ← haddr]
    cases s.exi.dma_hook with
    | none => exact ⟨false, s, rfl, rfl, rfl, .inr ⟨rfl, rfl⟩, rfl⟩
    | some hook =>
      cases hans : hook s.exi.dmas s.exi.addr s.card.buffer 512 EXI_READ s.mem with
      | mk ok mem =>
        refine ⟨ok, { s with
          mem := mem, exi.dmas := s.exi.dmas + 1, log := s.log ++ [.dma s.card.buffer 512] },
          hans.symm, rfl, rfl, .inl rfl, ?_⟩
        dsimp only
        rw [hans]
        dsimp only
        cases ok with
        | false => rfl
        | true =>
          rw [if_neg (by decide), if_pos rfl]
          exact congrArg _ (cardTxHandler_eq hchan hidle htx)

/-- A segment ends with its completion called, or with the channel given back and no data. -/
theorem cardReadSegment_eq (n : Nat) (cb : Callback) (hchan : ¬ (chan < 0 ∨ 2 ≤ chan))
    (ha : s.card.attached = true) (hfree : s.exi.Free) :
    ∃ s₁ ok, Segment s s₁ ok ∧ cardReadSegment (invoke (n + 1)) chan (some cb) s =
      if ok then (invoke n cb chan s₁.probeResult s₁.probed).map (CARD_RESULT_READY, ·)
      else some (CARD_RESULT_NOCARD, s₁) := by
  let t : Slot := { s with
    card.cmd := readCommand s.card.addr ++ s.card.cmd.drop 5, card.cmdlen := 5, card.mode := 0
    card.tx_callback := some cb, card.unlock_callback := none
    exi.locked := true, exi.line := .idle, exi.dev := 0 }
  have hstart : cardStart chan (some cb) { s with
      card.cmd := readCommand s.card.addr ++ s.card.cmd.drop 5, card.cmdlen := 5, card.mode := 0 } =
      (CARD_RESULT_READY, t) := cardStart_eq hchan ha hfree
  have hwire : t.log ++ t.wire = s.log ++ s.wire := rfl
  have hsent : ∃ e', segmentTransfers (invoke (n + 1)) chan t = _ ∧ _ := segmentTransfers_eq rfl rfl rfl
  obtain ⟨e, hr, hline, haddr, hhas, hk⟩ := hsent
  obtain ⟨ok, u, hans, hrest, hexi, hlog, hdma⟩ :=
    @EXIDma_eq { t with exi := e, log := t.log ++ t.wire } chan cb n hchan hline hhas haddr rfl
  have hanswer : { t with exi := e, log := t.log ++ t.wire }.answer = s.answer := by
    have hhook : e.dma_hook = s.exi.dma_hook := hk.dma_hook
    have hdmas : e.dmas = s.exi.dmas := hk.dmas
    unfold Slot.answer
    dsimp only
    rw [hhook, hdmas]
    rfl
  have hu : u.exi.line = .idle := by
    rw [hexi]
    exact hline
  refine ⟨{ u with exi := u.exi.released, card.tx_callback := none }, ok, ?_, ?_⟩
  · refine ⟨⟨rfl, rfl⟩, ?_, ?_, ?_, ?_, ?_, ?_, ?_⟩
    · rw [hexi]
      exact hk.attached
    · rw [hexi]
      exact hk.dma_hook
    · rw [hexi]
      exact ⟨hk.probeex_ret, hk.probes⟩
    · rw [hrest]
      exact ⟨_, rfl⟩
    · exact hans.trans hanswer
    · rw [hrest]
    · rw [← hwire]
      exact hlog
  · rw [cardReadSegment, if_neg hchan]
    dsimp only
    rw [hstart]
    dsimp only
    rw [if_neg (by decide), if_pos (by decide), hr]
    have hdma' : EXIDma (invoke (n + 1)) chan t.card.buffer 512 t.card.mode (some .txHandler)
        { t with exi := e, log := t.log ++ t.wire } = _ := hdma
    rw [hdma']
    cases ok with
    | false =>
      rw [if_neg Bool.false_ne_true, if_neg Bool.false_ne_true]
      dsimp only
      rw [EXIDeselect_idle hu, EXIUnlock_deselected]
    | true =>
      rw [if_pos rfl, if_pos rfl]
      have hprobe : { u with exi := u.exi.released, card.tx_callback := none }.probeResult = u.probeResult := rfl
      rw [hprobe]
      cases invoke n cb chan u.probeResult { u with exi := u.exi.released, card.tx_callback := none }.probed <;> rfl

/-- What a segment does not touch in the control block. -/
theorem Segment.field {α : Type} {ok : Bool} (h : Segment s s' ok) (f : GcCardControl → α)
    (hf : ∀ cmd, f { s.card with cmd := cmd, cmdlen := 5, mode := 0, tx_callback := none
                                 unlock_callback := none } = f s.card) : f s'.card = f s.card := by
  obtain ⟨cmd, hcard⟩ := h.card
  rw [hcard]
  exact hf cmd

section BlockRead

variable {call : Call} {result : Int}

theorem BlockReadCallback_error (h : result < 0) :
    BlockReadCallback call chan result s = blockReadEnd call chan result s := if_pos h

theorem BlockReadCallback_last (h : s.card.repeats = 1) :
    BlockReadCallback call chan CARD_RESULT_READY s = blockReadEnd call chan CARD_RESULT_READY s.advanced := by
  have hlast : s.advanced.card.repeats ≤ 0 := by
    show s.card.repeats - 1 ≤ 0
    omega
  rw [BlockReadCallback, if_neg (by decide)]
  exact if_pos hlast

theorem BlockReadCallback_next (h : 1 < s.card.repeats) :
    BlockReadCallback call chan CARD_RESULT_READY s =
      match cardReadSegment call chan (some .blockRead) s.advanced with
      | none => none
      | some (result, s) => if result < 0 then blockReadEnd call chan result s else some s := by
  have hnext : ¬ s.advanced.card.repeats ≤ 0 := by
    show ¬ s.card.repeats - 1 ≤ 0
    omega
  rw [BlockReadCallback, if_neg (by decide)]
  exact if_neg hnext

end BlockRead

end SdkPort.Card
