import SdkPort.Card.MountRuns

/-!
# The start of a mount

The parts of a mount before its reads, on a channel it holds: what they can end with, and
that nothing is reported by them.
-/
namespace SdkPort.Card

variable {s t : Slot} {e : Exi} {chan : Int}

section Commands

theorem cardClearStatus_eq (hl : e.locked = true) (hd : e.line = .deselected) :
    cardClearStatus e = (CARD_RESULT_READY,
      { e with dev := 0, imm := packImm [0x89], pending_status_read := false
               card_status := e.card_status &&& ~~~0x18 }) := by
  obtain ⟨⟩ := e
  cases hl
  cases hd
  rfl

theorem cardReadStatus_eq (hl : e.locked = true) (hd : e.line = .deselected) (status : UInt8) :
    cardReadStatus e status = (CARD_RESULT_READY, e.card_status,
      { e with dev := 0, imm := e.card_status.toNat * 2 ^ 24, pending_status_read := false }) := by
  have hback : unpackImm (e.card_status.toNat * 2 ^ 24) 1 = [e.card_status] := by simp [unpackImm]
  obtain ⟨⟩ := e
  cases hl
  cases hd
  exact Prod.ext rfl (Prod.ext (congrArg (·.headD status) hback) rfl)

theorem cardEnableInterrupt_eq (hl : e.locked = true) (hd : e.line = .deselected) :
    cardEnableInterrupt e true = (CARD_RESULT_READY, { e with dev := 0, imm := packImm [0x81, 0x01] }) := by
  obtain ⟨⟩ := e
  cases hl
  cases hd
  rfl

/-- A selected device cannot be selected again. -/
theorem cardClearStatus_selected (h : e.line.selected = true) : cardClearStatus e = (CARD_RESULT_NOCARD, e) := by
  have hsel : EXISelect e 0 = (false, e) := by
    rw [EXISelect, if_pos h]
    split <;> rfl
  rw [cardClearStatus, hsel]

end Commands

section Identify

/-- A slot whose card told its identification and status and was probed. -/
def Slot.identified (s : Slot) (id : Nat) : Slot :=
  { s with
    card := Card.identified id s.card
    exi.dev := 0, exi.imm := (s.exi.card_status &&& ~~~0x18).toNat * 2 ^ 24, exi.pending_status_read := false
    exi.card_status := s.exi.card_status &&& ~~~0x18, exi.probes := s.exi.probes + 1 }

/-- Clearing the error bits keeps the bit of an unlocked card. -/
theorem unlocked_bit (status : UInt8) : (status &&& ~~~0x18) &&& 0x40 = status &&& 0x40 := by
  rw [UInt8.and_assoc]
  rfl

/-- The identification on a channel that is held, step by step. -/
theorem mountIdentify_eq {id : Nat} (hl : s.exi.locked = true) (hd : s.exi.line = .deselected)
    (hid : EXIGetID s.exi = some id) (hcard : IsCard id = true) : mountIdentify chan s =
      if ¬ 0 < s.exi.probeex_ret s.exi.probes then some (.error CARD_RESULT_NOCARD, s.identified id)
      else if s.exi.card_status &&& 0x40 = 0 then
        let (result, s) := CARDUnlock chan (s.identified id)
        if result < 0 then some (.error result, s) else storeSerial result s
      else
        match OSLockSramEx { s.identified id with card.mount_step := 1 } with
        | none => none
        | some s =>
          let s := OSUnlockSramEx s
          if s.flashIDCheckSum ≠ flashSum s.flashID then some (.error CARD_RESULT_IOERROR, s)
          else some (.next, s) := by
  have hclear := cardClearStatus_eq hl hd
  have hread := @cardReadStatus_eq { s.exi with
    dev := 0, imm := packImm [0x89], pending_status_read := false
    card_status := s.exi.card_status &&& ~~~0x18 } hl hd 0
  rw [mountIdentify, hid]
  dsimp only
  rw [if_neg (by simp [hcard]), hclear]
  dsimp only
  rw [if_neg (by decide), hread]
  dsimp only
  rw [if_neg (by decide), EXIProbe, unlocked_bit]
  simp only [decide_eq_true_eq]
  rfl

theorem idSectorSize_le (id : Nat) : idSectorSize id ≤ 2 ^ 18 := by
  have hall : ∀ x ∈ SectorSizeTable, x ≤ 2 ^ 18 := by decide
  rw [idSectorSize, List.getD_eq_getElem?_getD]
  cases hx : SectorSizeTable[(id &&& 0x3800) >>> 11]? with
  | none => exact Nat.zero_le _
  | some x => exact hall x (List.mem_of_getElem? hx)

theorem identified_latency (id : Nat) (card : GcCardControl) : (identified id card).latency ≠ 5 := by
  have hall : ∀ x ∈ LatencyTable, x ≠ 5 := by decide
  show LatencyTable.getD ((id &&& 0x700) >>> 8) 0 ≠ 5
  rw [List.getD_eq_getElem?_getD]
  cases hx : LatencyTable[(id &&& 0x700) >>> 8]? with
  | none => decide
  | some x => exact hall x (List.mem_of_getElem? hx)

/-- An identification that goes through. -/
theorem mountIdentify_next {id : Nat} (hl : s.exi.locked = true) (hd : s.exi.line = .deselected)
    (hid : EXIGetID s.exi = some id) (hcard : IsCard id = true)
    (hprobe : 0 < s.exi.probeex_ret s.exi.probes) (hst : s.exi.card_status &&& 0x40 ≠ 0)
    (hscb : s.scb_locked = false) (hsum : s.flashIDCheckSum = flashSum s.flashID) :
    mountIdentify chan s = some (.next, { s.identified id with card.mount_step := 1, scb_locked := false }) := by
  have hlock : OSLockSramEx { s.identified id with card.mount_step := 1 } =
      some { s.identified id with card.mount_step := 1, scb_locked := true } :=
    if_neg (by show ¬ s.scb_locked = true; rw [hscb]; decide)
  rw [mountIdentify_eq hl hd hid hcard, if_neg (not_not.mpr hprobe), if_neg hst, hlock]
  exact if_neg (not_not.mpr hsum)

theorem EXIGetID_eq {id : Nat} (h : EXIGetID e = some id) : id = e.id := by
  unfold EXIGetID at h
  split at h
  · exact (Option.some.inj h).symm
  · cases h

/-- What the identification comes to on a channel that is held, with the SRAM free and an
unlocked card. -/
theorem mountIdentify_run (hl : s.exi.locked = true) (hd : s.exi.line = .deselected)
    (hscb : s.scb_locked = false) (hst : s.exi.card_status &&& 0x40 ≠ 0) :
    ∃ x t, mountIdentify chan s = some (x, t) ∧ t.log = s.log ∧ t.exi.line = .deselected ∧
      t.card.attached = s.card.attached ∧ ((∃ r, x = .error r ∧ r < 0 ∧ r ≠ CARD_RESULT_BUSY) ∨
        x = .next ∧ t.exi.locked = true ∧ IsCard s.exi.id = true ∧
          t.card = { identified s.exi.id s.card with mount_step := 1 }) := by
  cases hget : EXIGetID s.exi with
  | none =>
    have hid : mountIdentify chan s = some (.error CARD_RESULT_NOCARD, s) := by rw [mountIdentify, hget]
    exact ⟨_, s, hid, rfl, hd, rfl, .inl ⟨_, rfl, by decide, by decide⟩⟩
  | some id =>
    have hsame := EXIGetID_eq hget
    by_cases hcard : IsCard id = true
    · by_cases hprobe : 0 < s.exi.probeex_ret s.exi.probes
      · by_cases hsum : s.flashIDCheckSum = flashSum s.flashID
        · exact ⟨_, _, mountIdentify_next hl hd hget hcard hprobe hst hscb hsum, rfl, hd, rfl,
            .inr ⟨rfl, hl, hsame ▸ hcard, by rw [← hsame]; rfl⟩⟩
        · have hlock : OSLockSramEx { s.identified id with card.mount_step := 1 } =
              some { s.identified id with card.mount_step := 1, scb_locked := true } :=
            if_neg (by show ¬ s.scb_locked = true; rw [hscb]; decide)
          rw [mountIdentify_eq hl hd hget hcard, if_neg (not_not.mpr hprobe), if_neg hst, hlock]
          exact ⟨_, _, if_pos hsum, rfl, hd, rfl, .inl ⟨_, rfl, by decide, by decide⟩⟩
      · rw [mountIdentify_eq hl hd hget hcard]
        exact ⟨_, _, if_pos hprobe, rfl, hd, rfl, .inl ⟨_, rfl, by decide, by decide⟩⟩
    · have hid : mountIdentify chan s = some (.error CARD_RESULT_WRONGDEVICE, s) := by
        rw [mountIdentify, hget]
        exact if_pos hcard
      exact ⟨_, s, hid, rfl, hd, rfl, .inl ⟨_, rfl, by decide, by decide⟩⟩

/-- The preparations of a mount behind its identification. -/
theorem mountPrepare_next (h0 : s.card.mount_step = 0) (hid : mountIdentify chan s = some (.next, t))
    (hlock : t.exi.locked = true) (hline : t.exi.line = .deselected) (hcard : IsCard t.card.cid = true)
    (hstep : t.card.mount_step = 1) : mountPrepare chan s = some (.next, { t with
      card.mount_step := 2, exi.dev := 0, exi.imm := packImm [0x81, 0x01], exi.locked := false }) := by
  have hcid : t.card.cid ≠ 0x80000004 := by
    intro h
    have hbad : IsCard 0x80000004 = true := h ▸ hcard
    exact absurd hbad (by decide)
  have hint : mountInterrupt t = (.next, { t with
      card.mount_step := 2, exi.dev := 0, exi.imm := packImm [0x81, 0x01], exi.locked := false }) := by
    rw [mountInterrupt, cardEnableInterrupt_eq hlock hline]
    dsimp only
    rw [if_neg (by decide), EXIUnlock]
    exact congrArg (Prod.mk Exit.next) (by simp [hline, Line.busy])
  rw [mountPrepare, if_pos h0, hid, Option.bind_some]
  dsimp only
  rw [if_pos hstep, mountVendor, if_neg hcid, Option.map_some]
  dsimp only
  rw [hint]

/-- What the preparations of a mount come to when they begin on a held channel with the
SRAM free and an unlocked card. -/
theorem mountPrepare_run (h0 : s.card.mount_step = 0) (hl : s.exi.locked = true) (hd : s.exi.line = .deselected)
    (hscb : s.scb_locked = false) (hst : s.exi.card_status &&& 0x40 ≠ 0) :
    ∃ x t, mountPrepare chan s = some (x, t) ∧ t.log = s.log ∧ t.exi.line = .deselected ∧
      t.card.attached = s.card.attached ∧ ((∃ r, x = .error r ∧ r < 0 ∧ r ≠ CARD_RESULT_BUSY) ∨
        x = .next ∧ t.exi.Free ∧ t.card = { identified s.exi.id s.card with mount_step := 2 }) := by
  obtain ⟨x, t, hid, hlog, hline, hatt, ⟨r, rfl, hneg, hbusy⟩ | ⟨rfl, hlock, hcard, hc⟩⟩ :=
    @mountIdentify_run s chan hl hd hscb hst
  · exact ⟨_, t, by rw [mountPrepare, if_pos h0, hid]; rfl, hlog, hline, hatt, .inl ⟨r, rfl, hneg, hbusy⟩⟩
  · have hprep := mountPrepare_next h0 hid hlock hline (by rw [hc]; exact hcard) (by rw [hc])
    refine ⟨.next, _, hprep, hlog, hline, hatt, .inr ⟨rfl, ⟨rfl, hline⟩, ?_⟩⟩
    show { t.card with mount_step := 2 } = _
    rw [hc]

end Identify

section Start

/-- A slot on which a mount can begin. -/
structure Mountable (s : Slot) : Prop where
  gamechoice : s.gamechoice.any (· &&& 0x80 ≠ 0) = false
  idle : s.card.result ≠ CARD_RESULT_BUSY
  free : s.exi.Free
  sram : s.scb_locked = false
  unlocked : s.exi.card_status &&& 0x40 ≠ 0

/-- The mount of what was called last, when it begins. -/
def Slot.begun (s : Slot) (attach : Option Nat) : Mount where
  attach := attachCallback attach
  workArea := s.card.work_area
  sector := idSectorSize s.exi.id
  dir := s.card.current_dir_ptr
  fat := s.card.current_fat_ptr
  log := s.log

theorem put_result (ha : s.card.attached = true) (r : Int) : (cardPutControlBlock s r).card.result = r := by
  rw [cardPutControlBlock, if_pos ha]

/-- The first read of a mount. -/
theorem Mounting.first {attach : Option Nat} (ha : s.card.attached = true)
    (hapi : s.card.api_callback = some (attachCallback attach)) (hlog : t.log = s.log) (hfree : t.exi.Free)
    (hc : t.card = { identified s.exi.id s.card with mount_step := 2 }) :
    Mounting (s.begun attach) t.blockStart 0 := by
  have hstep : t.card.mount_step = 2 := by rw [hc]
  refine ⟨⟨(congrArg (·.attached) hc).trans ha, hfree, (congrArg (·.api_callback) hc).trans hapi, rfl,
    congrArg (·.work_area) hc, congrArg (·.sector_size) hc, ?_, congrArg (·.current_dir_ptr) hc,
    congrArg (·.current_fat_ptr) hc, [], hlog.trans (List.append_nil _).symm, rfl, rfl⟩, hstep, rfl, ?_, ?_⟩
  · intro he
    exact identified_latency s.exi.id s.card ((congrArg (·.latency) hc).symm.trans he)
  · show t.card.sector_size * (t.card.mount_step - 2) = _
    rw [hstep]
    rfl
  · show t.card.work_area + CARD_SYSTEM_BLOCK_SIZE * (t.card.mount_step - 2) = _
    rw [hstep]
    exact congrArg (·.work_area) hc

/-- Behind its preparations a mount reads. -/
theorem DoMount_next {call : Call} (hchan : ¬ (chan < 0 ∨ 2 ≤ chan)) (ha : t.card.attached = true)
    (hprep : mountPrepare chan s = some (.next, t)) : DoMount call chan s =
      (cardReadSegment call chan (some .blockRead) t.blockStart).map fun (result, s) =>
        (result, if result < 0 then cardPutControlBlock s result else s) := by
  rw [DoMount, hprep]
  dsimp only
  rw [mountRead_eq hchan ha]

/-- A mount that holds its channel fails in its preparations, or it reads. -/
theorem DoMount_start {call : Call} {attach : Option Nat} (hchan : ¬ (chan < 0 ∨ 2 ≤ chan))
    (h0 : s.card.mount_step = 0) (hl : s.exi.locked = true) (hd : s.exi.line = .deselected)
    (hscb : s.scb_locked = false) (hst : s.exi.card_status &&& 0x40 ≠ 0) (ha : s.card.attached = true)
    (hapi : s.card.api_callback = some (attachCallback attach)) :
    (∃ r t, DoMount call chan s = some (r, t) ∧ r < 0 ∧ t.log = s.log ∧ t.exi.Free ∧
      t.card.result ≠ CARD_RESULT_BUSY) ∨
    ∃ t, Mounting (s.begun attach) t 0 ∧ DoMount call chan s =
      (cardReadSegment call chan (some .blockRead) t).map fun (result, s) =>
        (result, if result < 0 then cardPutControlBlock s result else s) := by
  obtain ⟨x, t, hprep, hlog, hline, hatt, ⟨r, rfl, hneg, hbusy⟩ | ⟨rfl, hfree, hc⟩⟩ :=
    @mountPrepare_run s chan h0 hl hd hscb hst
  · have hunlock : (EXIUnlock t.exi).2 = { t.exi with locked := false } := by
      rw [EXIUnlock, if_neg (by rw [hline]; decide)]
    have hunmount : DoUnmount r { t with exi := (EXIUnlock t.exi).2 } = { t with
        exi := EXIDetach { t.exi with locked := false }, card.attached := false, card.result := r
        card.mount_step := 0 } := by
      rw [DoUnmount, hunlock]
      exact if_pos (hatt.trans ha)
    refine .inl ⟨r, _, by rw [DoMount, hprep], hneg, ?_, ?_, ?_⟩
    · rw [hunmount]
      exact hlog
    · rw [hunmount]
      exact ⟨rfl, hline⟩
    · rw [hunmount]
      exact hbusy
  · exact .inr ⟨t.blockStart, .first ha hapi hlog hfree hc, DoMount_next hchan (hatt.trans ha) hprep⟩

theorem nocard_ne_busy : CARD_RESULT_NOCARD ≠ CARD_RESULT_BUSY := by decide

/-- The slot on which a mount that is let in begins. -/
def Slot.entered (s : Slot) (workArea : Nat) (detach attach : Option Callback) (attached : Bool) : Slot :=
  { s with
    card.result := CARD_RESULT_BUSY, card.work_area := workArea, card.ext_callback := detach
    card.api_callback := attach.or (some .default), card.mount_step := 0, card.attached := true
    card.current_dir := 0, card.current_fat := 0, card.unlock_callback := none
    exi.attached := attached, exi.dev := 0, exi.locked := true }

theorem EXILock_free (he : e.locked = false) : EXILock e 0 = (true, { e with dev := 0, locked := true }) :=
  if_neg (by rw [he]; decide)

/-- A mount of a card that is attached, or can be, is let in. -/
theorem cardMountAsync_enters (workArea : Nat) (detach attach : Option Callback)
    (hchan : ¬ (chan < 0 ∨ 2 ≤ chan)) (h : Mountable s)
    (hroom : s.card.attached = true ∨ s.exi.attached = false ∧ s.exi.attach_ok = true) :
    ∃ attached, CARDMountAsync chan workArea detach attach s =
      DoMount (invoke stackDepth) chan (s.entered workArea detach attach attached) := by
  have hgame : ¬ s.gamechoice.any (· &&& 0x80 ≠ 0) = true := by
    rw [h.gamechoice]
    decide
  rw [CARDMountAsync, if_neg hchan, if_neg hgame, if_neg h.idle]
  by_cases ha : s.card.attached = true
  · rw [if_neg (by simp [ha])]
    dsimp only
    rw [if_pos ha]
    dsimp only
    rw [EXILock_free (e := s.exi) h.free.1]
    exact ⟨s.exi.attached, rfl⟩
  · obtain ha' | ⟨hexi, hok⟩ := hroom
    · exact absurd ha' ha
    · rw [if_neg (by simp [hexi])]
      dsimp only
      rw [if_neg ha, EXIAttach, if_pos hok]
      dsimp only
      rw [EXILock_free (e := { s.exi with attached := true }) h.free.1]
      exact ⟨true, rfl⟩

/-- A mount is refused or let in. -/
theorem cardMountAsync_eq (workArea : Nat) (detach attach : Option Callback) (hchan : ¬ (chan < 0 ∨ 2 ≤ chan))
    (h : Mountable s) :
    (∃ r t, CARDMountAsync chan workArea detach attach s = some (r, t) ∧ r < 0 ∧ t.log = s.log ∧ t.exi.Free ∧
      t.card.result ≠ CARD_RESULT_BUSY) ∨
    ∃ attached, CARDMountAsync chan workArea detach attach s =
      DoMount (invoke stackDepth) chan (s.entered workArea detach attach attached) := by
  by_cases hroom : s.card.attached = true ∨ s.exi.attached = false ∧ s.exi.attach_ok = true
  · exact .inr (cardMountAsync_enters workArea detach attach hchan h hroom)
  · have hgame : ¬ s.gamechoice.any (· &&& 0x80 ≠ 0) = true := by
      rw [h.gamechoice]
      decide
    have ha : ¬ s.card.attached = true := fun ha => hroom (.inl ha)
    rw [CARDMountAsync, if_neg hchan, if_neg hgame, if_neg h.idle]
    by_cases hexi : s.exi.attached = true
    · exact .inl ⟨_, s, if_pos ⟨ha, hexi⟩, by decide, rfl, h.free, h.idle⟩
    · have hok : ¬ s.exi.attach_ok = true := fun hok => hroom (.inr ⟨by simpa using hexi, hok⟩)
      rw [if_neg (by simp [hexi])]
      dsimp only
      rw [if_neg ha, EXIAttach, if_neg hok]
      exact .inl ⟨_, _, rfl, by decide, rfl, h.free, nocard_ne_busy⟩

/-- A mount that reads is over when control returns: its user was told, or the negative
result was returned and nobody was. -/
theorem Mounting.finish {p : Mount} (h : Mounting p t 0) (hchan : ¬ (chan < 0 ∨ 2 ≤ chan))
    (hext : External p.attach) (hsec : p.sector ≤ 2 ^ 18) :
    ∃ r s', (cardReadSegment (invoke stackDepth) chan (some .blockRead) t).map
        (fun (result, s) => (result, if result < 0 then cardPutControlBlock s result else s)) = some (r, s') ∧
      ((r < 0 ∧ s'.card.result ≠ CARD_RESULT_BUSY ∧ Held p s') ∨ (0 ≤ r ∧ Ended p s')) := by
  obtain ⟨r, s', hrun, ⟨rfl, hheld, _⟩ | ⟨rfl, hends⟩⟩ :=
    h.run (d := stackDepth) hchan hext hsec (by decide) (by decide)
  · refine ⟨CARD_RESULT_NOCARD, cardPutControlBlock s' CARD_RESULT_NOCARD, by rw [hrun]; rfl,
      .inl ⟨by decide, ?_, hheld.put⟩⟩
    by_cases ha : s'.card.attached = true
    · rw [put_result ha]
      decide
    · rw [cardPutControlBlock, if_neg ha]
      by_cases hb : s'.card.result = CARD_RESULT_BUSY
      · rw [if_pos hb]
        exact nocard_ne_busy
      · rwa [if_neg hb]
  · exact ⟨CARD_RESULT_READY, s', by rw [hrun]; rfl, .inr ⟨by decide, hends⟩⟩

theorem attachCallback_external (attach : Option Nat) : External (attachCallback attach) := by
  cases attach with
  | none => exact .inl rfl
  | some k => exact .inr ⟨k, rfl⟩

/-- Whatever a mount meets, when control returns the channel is free and the card not busy;
the user was told once, or got a negative result and was not told. -/
theorem mount_ends (workArea : Nat) (detach : Option Callback) (attach : Option Nat)
    (hchan : ¬ (chan < 0 ∨ 2 ≤ chan)) (h : Mountable s) :
    ∃ r s', CARDMountAsync chan workArea detach (attach.map .user) s = some (r, s') ∧ s'.exi.Free ∧
      s'.card.result ≠ CARD_RESULT_BUSY ∧
      ((r < 0 ∧ ∃ ev, s'.log = s.log ++ ev ∧ callbacks ev = []) ∨
        0 ≤ r ∧ Ended ((s.entered workArea detach (attach.map .user) true).begun attach) s') := by
  obtain ⟨r, t, hr, hneg, hlog, hfree, hbusy⟩ | ⟨attached, heq⟩ :=
    cardMountAsync_eq workArea detach (attach.map .user) hchan h
  · exact ⟨r, t, hr, hfree, hbusy, .inl ⟨hneg, [], by rw [hlog, List.append_nil], rfl⟩⟩
  · have hapi : (s.entered workArea detach (attach.map .user) attached).card.api_callback =
        some (attachCallback attach) := by cases attach <;> rfl
    rw [heq]
    obtain ⟨r, t, hr, hneg, hlog, hfree, hbusy⟩ | ⟨t, hmount, heq⟩ :=
      @DoMount_start (s.entered workArea detach (attach.map .user) attached) chan (invoke stackDepth) attach
        hchan rfl rfl h.free.2 h.sram h.unlocked rfl hapi
    · exact ⟨r, t, hr, hfree, hbusy, .inl ⟨hneg, [], by rw [hlog, List.append_nil]; rfl, rfl⟩⟩
    · rw [heq]
      obtain ⟨r, s', hr, ⟨hneg, hbusy, hheld⟩ | ⟨hpos, hends⟩⟩ :=
        hmount.finish hchan (attachCallback_external attach) (idSectorSize_le s.exi.id)
      · exact ⟨r, s', hr, hheld.free, hbusy, .inl ⟨hneg, hheld.log⟩⟩
      · exact ⟨r, s', hr, hends.free, hends.result, .inr ⟨hpos, hends⟩⟩

end Start

/-- A mount ends cleanly: its user is told exactly once, or gets a negative result and is
never told; the card is not left busy nor the channel held; and a success is told after the
reads of five blocks and nothing else, followed by their verification. -/
def EndsCleanly (chan : Int) (workArea : Nat) (detach : Option Callback) (attach : Option Nat) (s : Slot) : Prop :=
  ∃ r s' ev, CARDMountAsync chan workArea detach (attach.map .user) s = some (r, s') ∧ s'.log = s.log ++ ev ∧
    (r < 0 → callbacks ev = []) ∧ (0 ≤ r → ∃ res, callbacks ev = [(attachCallback attach, res)]) ∧
    s'.card.result ≠ CARD_RESULT_BUSY ∧ s'.exi.locked = false ∧ s'.exi.line = .deselected ∧
    ((attachCallback attach, CARD_RESULT_READY) ∈ callbacks ev → ∃ pre m,
      ev = pre ++ [.verify m, .callback (attachCallback attach) CARD_RESULT_READY] ∧
      accesses pre = mountAccesses (idSectorSize s.exi.id) workArea)

/-- Every mount ends cleanly, whatever the card is, contains and answers. -/
theorem mount_endsCleanly (workArea : Nat) (detach : Option Callback) (attach : Option Nat)
    (hchan : ¬ (chan < 0 ∨ 2 ≤ chan)) (h : Mountable s) : EndsCleanly chan workArea detach attach s := by
  obtain ⟨r, s', hr, hfree, hbusy, ⟨hneg, ev, hlog, hcalls⟩ | ⟨hpos, hends⟩⟩ :=
    mount_ends workArea detach attach hchan h
  · refine ⟨r, s', ev, hr, hlog, fun _ => hcalls, fun hpos => absurd hneg (by omega), hbusy, hfree.1, hfree.2, ?_⟩
    rw [hcalls]
    nofun
  · obtain ⟨ev, res, hlog, hcalls, hready⟩ := hends.log
    refine ⟨r, s', ev, hr, hlog, fun hneg => absurd hneg (by omega), fun _ => ⟨res, hcalls⟩, hbusy, hfree.1,
      hfree.2, ?_⟩
    intro hmem
    rw [hcalls, List.mem_singleton] at hmem
    obtain ⟨pre, m, hev, hacc, _⟩ := hready (congrArg Prod.snd hmem).symm
    exact ⟨pre, m, hev, hacc⟩

theorem trialSlot_endsCleanly : EndsCleanly 0 0x10000 none (some 7) (trialSlot 0) :=
  mount_endsCleanly 0x10000 none (some 7) (by decide) ⟨rfl, by decide, ⟨rfl, rfl⟩, rfl, by decide⟩

end SdkPort.Card
