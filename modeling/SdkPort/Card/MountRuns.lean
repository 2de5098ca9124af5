import SdkPort.Card.CardRead

/-!
# Runs of a mount

From the first segment of the first block on, a mount goes through the states described
here, one for each segment, until its user is called or the first read is refused.
-/
namespace SdkPort.Card

open ByteMem (load store)

/-- What a read does on the bus: a command for an address, a transfer into a buffer. -/
inductive Access where
  | command (addr : Nat)
  | transfer (buffer length : Nat)
  deriving DecidableEq, Repr

/-- A command packet has five bytes. -/
def accessOf : Event → Option Access
  | .imm [b₀, b₁, b₂, b₃, b₄] => if b₀ = 0x52 then some (.command (commandAddr b₁ b₂ b₃ b₄)) else none
  | .dma buffer length => some (.transfer buffer length)
  | _ => none

def accesses (log : List Event) : List Access := log.filterMap accessOf

/-- A segment of a mount: command and transfer. -/
def segmentAccesses (sector workArea block seg : Nat) : List Access :=
  [.command (sector * block + 512 * seg), .transfer (workArea + CARD_SYSTEM_BLOCK_SIZE * block + 512 * seg) 512]

/-- The five blocks of a mount, sixteen segments each. -/
def mountAccesses (sector workArea : Nat) : List Access :=
  (List.range 5).flatMap fun block => (List.range 16).flatMap fun seg => segmentAccesses sector workArea block seg

/-- What is fixed when a mount begins to read. -/
structure Mount where
  attach : Callback
  workArea : Nat
  sector : Nat
  dir : Nat
  fat : Nat
  log : List Event

/-- The function a mount reports to, outside of the card interface. -/
def attachCallback (attach : Option Nat) : Callback := attach.elim .default .user

def External (cb : Callback) : Prop := cb = .default ∨ ∃ k, cb = .user k

/-- The current copy after a verification of two good ones. -/
def keepCopy (ptr : Nat) (m : Nat → UInt8) (block₀ block₁ counter : Nat) : Nat × (Nat → UInt8) :=
  if ptr = 0 then chooseCopy m block₀ block₁ counter else (ptr, m)

/-- What a verification without errors leaves of the memory `m`. -/
def Verified (p : Mount) (m : Nat → UInt8) (s : Slot) : Prop :=
  ∃ m₁, (s.card.current_dir_ptr, m₁) =
      keepCopy p.dir m (dirBlock p.workArea 0) (dirBlock p.workArea 1) dirCounter ∧
    (s.card.current_fat_ptr, s.mem) =
      keepCopy p.fat m₁ (fatBlock p.workArea 0) (fatBlock p.workArea 1) fatCounter

/-- A mount with nothing reported yet. -/
structure Held (p : Mount) (s : Slot) : Prop where
  free : s.exi.Free
  api : s.card.api_callback = some p.attach
  log : ∃ ev, s.log = p.log ++ ev ∧ callbacks ev = []

/-- A mount that has read so many segments, counted over all blocks. -/
structure Underway (p : Mount) (s : Slot) (i : Nat) : Prop where
  attached : s.card.attached = true
  free : s.exi.Free
  api : s.card.api_callback = some p.attach
  xfer : s.card.xfer_callback = some .mount
  area : s.card.work_area = p.workArea
  sector : s.card.sector_size = p.sector
  latency : s.card.latency ≠ 5
  dir : s.card.current_dir_ptr = p.dir
  fat : s.card.current_fat_ptr = p.fat
  log : ∃ ev, s.log = p.log ++ ev ∧ callbacks ev = [] ∧
    accesses ev = (List.range i).flatMap fun j => segmentAccesses p.sector p.workArea (j / 16) (j % 16)

/-- A mount about to read the next segment. -/
structure Mounting (p : Mount) (s : Slot) (i : Nat) : Prop extends Underway p s i where
  step : s.card.mount_step = 2 + i / 16
  repeats : s.card.repeats = (16 - i % 16 : Nat)
  addr : s.card.addr = p.sector * (i / 16) + 512 * (i % 16)
  buffer : s.card.buffer = p.workArea + CARD_SYSTEM_BLOCK_SIZE * (i / 16) + 512 * (i % 16)

/-- A mount that reported once. -/
structure Ended (p : Mount) (s : Slot) : Prop where
  free : s.exi.Free
  result : s.card.result ≠ CARD_RESULT_BUSY
  log : ∃ ev res, s.log = p.log ++ ev ∧ callbacks ev = [(p.attach, res)] ∧
    (res = CARD_RESULT_READY → ∃ pre m, ev = pre ++ [.verify m, .callback p.attach CARD_RESULT_READY] ∧
      accesses pre = mountAccesses p.sector p.workArea ∧ Verified p m s)

variable {p : Mount} {s s' : Slot} {i n e d : Nat} {r chan : Int}

@[simp] theorem accesses_append (l l' : List Event) : accesses (l ++ l') = accesses l ++ accesses l' :=
  List.filterMap_append

/-- Blocks of sixteen, counted through. -/
theorem flatMap_blocks {α : Type} (f : Nat → Nat → List α) (n : Nat) :
    (List.range n).flatMap (fun block => (List.range 16).flatMap (f block)) =
      (List.range (16 * n)).flatMap fun j => f (j / 16) (j % 16) := by
  induction n with
  | zero => rfl
  | succ n ih =>
    have hlast : (List.range 16).flatMap (f n) =
        ((List.range 16).map (16 * n + ·)).flatMap fun j => f (j / 16) (j % 16) := by
      rw [List.flatMap_map]
      apply congrArg List.flatten
      apply List.map_congr_left
      intro j hj
      have hlt : j < 16 := List.mem_range.mp hj
      rw [Nat.mul_add_div (by decide), Nat.mul_add_mod, Nat.div_eq_of_lt hlt, Nat.mod_eq_of_lt hlt, Nat.add_zero]
    have hsplit : List.range (16 * (n + 1)) = List.range (16 * n) ++ (List.range 16).map (16 * n + ·) :=
      List.range_add
    have hsucc : List.range (n + 1) = List.range n ++ [n] := List.range_succ
    rw [hsplit, List.flatMap_append, ← hlast, ← ih, hsucc, List.flatMap_append, List.flatMap_singleton]

/-- All segments, counted over the blocks. -/
theorem mountAccesses_eq (sector workArea : Nat) : mountAccesses sector workArea =
    (List.range 80).flatMap fun j => segmentAccesses sector workArea (j / 16) (j % 16) :=
  flatMap_blocks (segmentAccesses sector workArea) 5

section Ends

theorem invoke_external (h : External p.attach) :
    invoke (e + 1) p.attach chan r s = some { s with log := s.log ++ [.callback p.attach r] } := by
  obtain h | ⟨k, h⟩ := h
  · rw [h]
    rfl
  · rw [h]
    rfl

/-- The end of a mount calls its user and changes only the result. -/
theorem mountEnd_eq (hext : External p.attach) (hapi : s.card.api_callback = some p.attach) :
    ∃ s', mountEnd (invoke (e + 1)) chan r s = some s' ∧ s'.exi = s.exi ∧ s'.mem = s.mem ∧
      s'.log = s.log ++ [.callback p.attach r] ∧
      s'.card.current_dir_ptr = s.card.current_dir_ptr ∧ s'.card.current_fat_ptr = s.card.current_fat_ptr ∧
      (s'.card.result = r ∨ s.card.attached = false ∧ s.card.result ≠ CARD_RESULT_BUSY ∧
        s'.card.result = s.card.result) := by
  rw [mountEnd, hapi]
  dsimp only
  rw [invoke_external hext, cardPutControlBlock]
  by_cases ha : s.card.attached = true
  · rw [if_pos ha]
    exact ⟨_, rfl, rfl, rfl, rfl, rfl, rfl, .inl rfl⟩
  · rw [if_neg ha]
    by_cases hb : s.card.result = CARD_RESULT_BUSY
    · rw [if_pos hb]
      exact ⟨_, rfl, rfl, rfl, rfl, rfl, rfl, .inl rfl⟩
    · rw [if_neg hb]
      exact ⟨_, rfl, rfl, rfl, rfl, rfl, rfl, .inr ⟨by simpa using ha, hb, rfl⟩⟩

/-- A failure is reported as it is. -/
theorem Held.mountEnd (h : Held p s) (hext : External p.attach) (hbusy : r ≠ CARD_RESULT_BUSY)
    (hready : r ≠ CARD_RESULT_READY) : ∃ s', mountEnd (invoke (e + 1)) chan r s = some s' ∧ Ended p s' := by
  obtain ⟨s', hr, hexi, _, hlog, _, _, hres⟩ := @mountEnd_eq p s e r chan hext h.api
  obtain ⟨ev, hev, hcalls⟩ := h.log
  refine ⟨s', hr, hexi.symm ▸ h.free, ?_, ev ++ [.callback p.attach r], r, ?_, ?_, fun hr => absurd hr hready⟩
  · obtain hres | ⟨_, hb, hres⟩ := hres
    · rwa [hres]
    · rwa [hres]
  · rw [hlog, hev, List.append_assoc]
  · rw [callbacks_append, hcalls]
    rfl

theorem Held.unmount (h : Held p s) : Held p (DoUnmount r s) := by
  unfold DoUnmount
  split
  · exact ⟨h.free, h.api, h.log⟩
  · exact h

theorem blockReadEnd_mount (hapi : s.card.api_callback = some p.attach)
    (hxfer : s.card.xfer_callback = some .mount) : blockReadEnd (invoke (e + 1)) chan r s =
      cardMountCallback (invoke e) chan r { s with card.xfer_callback := none } := by
  have hapi' : s.card.api_callback ≠ none := by
    rw [hapi]
    nofun
  rw [blockReadEnd, if_neg hapi']
  dsimp only
  rw [hxfer]
  rfl

/-- An error in the middle of a block takes the card off and is reported. -/
theorem Held.told (h : Held p s) (hext : External p.attach) (hxfer : s.card.xfer_callback = some .mount) :
    ∃ s', blockReadEnd (invoke (e + 2)) chan CARD_RESULT_NOCARD s = some s' ∧ Ended p s' := by
  have ht : Held p { s with card.xfer_callback := none } := ⟨h.free, h.api, h.log⟩
  obtain ⟨s', hr, hends⟩ := @Held.mountEnd p _ e CARD_RESULT_NOCARD chan ht.unmount hext
    (by decide) (by decide)
  exact ⟨s', (blockReadEnd_mount h.api hxfer).trans hr, hends⟩

theorem Held.put (h : Held p s) : Held p (cardPutControlBlock s r) := by
  unfold cardPutControlBlock
  split
  · exact ⟨h.free, h.api, h.log⟩
  · split
    · exact ⟨h.free, h.api, h.log⟩
    · exact h

end Ends

section Verify

theorem VerifyID_snd (s : Slot) : (VerifyID s).2 = s := by
  unfold VerifyID OSLockSramEx
  dsimp only
  split
  · rfl
  · split
    · rfl
    · split
      · rfl
      · split
        · rfl
        · by_cases hlock : s.scb_locked = true
          · rw [if_pos hlock]
          · rw [if_neg hlock]
            have hfree : s.scb_locked = false := by simpa using hlock
            show OSUnlockSramEx { s with scb_locked := true } = s
            rw [OSUnlockSramEx, ← hfree]

/-- Two good copies of the directory. -/
theorem VerifyDir_good (h : (VerifyDir s).1 = 0) : ∃ ptr m,
    (ptr, m) = keepCopy s.card.current_dir_ptr s.mem (dirBlock s.card.work_area 0) (dirBlock s.card.work_area 1)
      dirCounter ∧ (VerifyDir s).2 = { s with card.current_dir_ptr := ptr, mem := m } := by
  unfold VerifyDir at h ⊢
  dsimp only at h ⊢
  generalize (if dirSumsMatch s.mem (dirBlock s.card.work_area 0) then 0 else 1) +
    (if dirSumsMatch s.mem (dirBlock s.card.work_area 1) then 0 else 1) = errors at h ⊢
  by_cases h0 : errors = 0
  · rw [if_pos h0, keepCopy]
    by_cases hp : s.card.current_dir_ptr = 0
    · rw [if_pos hp, if_pos hp]
      exact ⟨_, _, rfl, rfl⟩
    · rw [if_neg hp, if_neg hp]
      exact ⟨_, _, rfl, rfl⟩
  · rw [if_neg h0] at h
    exact absurd h h0

/-- Two good copies of the file allocation table. -/
theorem VerifyFAT_good (h : (VerifyFAT s).1 = 0) : ∃ ptr m,
    (ptr, m) = keepCopy s.card.current_fat_ptr s.mem (fatBlock s.card.work_area 0) (fatBlock s.card.work_area 1)
      fatCounter ∧ (VerifyFAT s).2 = { s with card.current_fat_ptr := ptr, mem := m } := by
  unfold VerifyFAT at h ⊢
  dsimp only at h ⊢
  generalize (if fatOk s.mem (fatBlock s.card.work_area 0) s.card.cblock then 0 else 1) +
    (if fatOk s.mem (fatBlock s.card.work_area 1) s.card.cblock then 0 else 1) = errors at h ⊢
  by_cases h0 : errors = 0
  · rw [if_pos h0, keepCopy]
    by_cases hp : s.card.current_fat_ptr = 0
    · rw [if_pos hp, if_pos hp]
      exact ⟨_, _, rfl, rfl⟩
    · rw [if_neg hp, if_neg hp]
      exact ⟨_, _, rfl, rfl⟩
  · rw [if_neg h0] at h
    exact absurd h h0

/-- What any verification leaves alone. -/
theorem VerifyDir_frame (s : Slot) : (VerifyDir s).2.exi = s.exi ∧ (VerifyDir s).2.log = s.log ∧
    (VerifyDir s).2.card.api_callback = s.card.api_callback := by
  unfold VerifyDir
  dsimp only
  generalize (if dirSumsMatch s.mem (dirBlock s.card.work_area 0) then 0 else 1) +
    (if dirSumsMatch s.mem (dirBlock s.card.work_area 1) then 0 else 1) = errors
  split
  · split <;> exact ⟨rfl, rfl, rfl⟩
  · exact ⟨rfl, rfl, rfl⟩

theorem VerifyFAT_frame (s : Slot) : (VerifyFAT s).2.exi = s.exi ∧ (VerifyFAT s).2.log = s.log ∧
    (VerifyFAT s).2.card.api_callback = s.card.api_callback := by
  unfold VerifyFAT
  dsimp only
  generalize (if fatOk s.mem (fatBlock s.card.work_area 0) s.card.cblock then 0 else 1) +
    (if fatOk s.mem (fatBlock s.card.work_area 1) s.card.cblock then 0 else 1) = errors
  split
  · split <;> exact ⟨rfl, rfl, rfl⟩
  · exact ⟨rfl, rfl, rfl⟩

theorem VerifyID_result (s : Slot) : (VerifyID s).1 = CARD_RESULT_READY ∨ (VerifyID s).1 = CARD_RESULT_BROKEN ∨
    (VerifyID s).1 = CARD_RESULT_ENCODING := by
  unfold VerifyID
  dsimp only
  split
  · exact .inr (.inl rfl)
  · split
    · exact .inr (.inl rfl)
    · split
      · exact .inr (.inl rfl)
      · split
        · exact .inr (.inr rfl)
        · split
          · exact .inr (.inl rfl)
          · dsimp only
            split
            · exact .inl rfl
            · exact .inr (.inl rfl)

/-- A verification reports that it began, and either finds an error or keeps one copy of
each pair. -/
theorem cardVerify_spec (s : Slot) : (cardVerify s).2.exi = s.exi ∧
    (cardVerify s).2.log = s.log ++ [.verify s.mem] ∧
    (cardVerify s).2.card.api_callback = s.card.api_callback ∧
    ((cardVerify s).1 = CARD_RESULT_BROKEN ∨ (cardVerify s).1 = CARD_RESULT_ENCODING ∨
      (cardVerify s).1 = CARD_RESULT_READY ∧ ∃ m₁,
        ((cardVerify s).2.card.current_dir_ptr, m₁) = keepCopy s.card.current_dir_ptr s.mem
          (dirBlock s.card.work_area 0) (dirBlock s.card.work_area 1) dirCounter ∧
        ((cardVerify s).2.card.current_fat_ptr, (cardVerify s).2.mem) = keepCopy s.card.current_fat_ptr m₁
          (fatBlock s.card.work_area 0) (fatBlock s.card.work_area 1) fatCounter) := by
  let t : Slot := { s with log := s.log ++ [.verify s.mem] }
  have hid : VerifyID { s with log := s.log ++ [.verify s.mem] } = ((VerifyID t).1, t) :=
    Prod.ext rfl (VerifyID_snd t)
  rw [cardVerify]
  dsimp only
  rw [hid]
  dsimp only
  obtain hres | hres | hres := VerifyID_result t
  · rw [hres, if_neg (by decide)]
    dsimp only
    obtain ⟨hexi, hlog, hapi⟩ := VerifyDir_frame t
    obtain ⟨hexi', hlog', hapi'⟩ := VerifyFAT_frame (VerifyDir t).2
    refine ⟨hexi'.trans hexi, hlog'.trans hlog, hapi'.trans hapi, ?_⟩
    by_cases herr : (VerifyDir t).1 + (VerifyFAT (VerifyDir t).2).1 = 0
    · rw [if_pos herr]
      obtain ⟨ptr, m, hkeep, hdir⟩ := VerifyDir_good (Nat.eq_zero_of_add_eq_zero_right herr)
      obtain ⟨ptr', m', hkeep', hfat⟩ := VerifyFAT_good (Nat.eq_zero_of_add_eq_zero_left herr)
      rw [hfat]
      rw [hdir] at hkeep' ⊢
      exact .inr (.inr ⟨rfl, m, hkeep, hkeep'⟩)
    · rw [if_neg herr]
      exact .inl rfl
  · rw [hres, if_pos (by decide)]
    exact ⟨rfl, rfl, rfl, .inl rfl⟩
  · rw [hres, if_pos (by decide)]
    exact ⟨rfl, rfl, rfl, .inr (.inl rfl)⟩

end Verify

section Segments

variable {ok : Bool}

theorem accesses_dummies (h : s.card.latency ≠ 5) : accesses [.imm s.dummies] = [] := by
  have hlen : s.dummies.length ≠ 5 := by
    rw [Slot.dummies, ByteMem.length_load]
    exact h
  have hnone : accessOf (.imm s.dummies) = none := by
    unfold accessOf
    split
    · rename_i heq
      injection heq with heq
      rw [heq] at hlen
      exact absurd rfl hlen
    · rename_i heq
      cases heq
    · rfl
  simp [accesses, hnone]

/-- The addresses of a mount fit into a command. -/
theorem Mounting.addr_lt (h : Mounting p s i) (hsec : p.sector ≤ 2 ^ 18) (hi : i < 80) :
    s.card.addr + 512 ≤ 2 ^ 24 := by
  have hblock : i / 16 ≤ 4 := by omega
  have hmul : p.sector * (i / 16) ≤ 2 ^ 18 * 4 := Nat.mul_le_mul hsec hblock
  rw [h.addr]
  omega

theorem accesses_command (h : s.card.addr < 2 ^ 24) :
    accesses [.imm (readCommand s.card.addr)] = [.command s.card.addr] := by
  have hcap := captured_readCommand s.card.addr
  rw [Nat.mod_eq_of_lt h] at hcap
  simp only [captured, readCommand, true_or, if_true, Option.some.injEq] at hcap
  have hone : accessOf (.imm (readCommand s.card.addr)) = some (.command s.card.addr) := by
    rw [readCommand, accessOf, if_pos rfl, hcap]
  rw [accesses, List.filterMap_cons_some hone]
  rfl

/-- A segment shows its command and its transfer. -/
theorem Segment.shown (hs : Segment s s' true) (h : Mounting p s i) (hsec : p.sector ≤ 2 ^ 18) (hi : i < 80) :
    ∃ ev, s'.log = s.log ++ ev ∧ Card.callbacks ev = [] ∧
      accesses ev = segmentAccesses p.sector p.workArea (i / 16) (i % 16) := by
  have hlt := h.addr_lt hsec hi
  obtain hlog | ⟨hno, _⟩ := hs.log
  · refine ⟨s.wire ++ [.dma s.card.buffer 512], by rw [hlog, List.append_assoc], rfl, ?_⟩
    have hwire : s.wire = [.imm (readCommand s.card.addr)] ++ [.imm s.dummies] := rfl
    rw [hwire, accesses_append, accesses_append, accesses_command (by omega), accesses_dummies h.latency,
      segmentAccesses, ← h.addr, ← h.buffer]
    rfl
  · cases hno

/-- A segment of a mount. -/
theorem Segment.underway (hs : Segment s s' true) (h : Mounting p s i) (hsec : p.sector ≤ 2 ^ 18) (hi : i < 80) :
    Underway p s'.probed.advanced (i + 1) := by
  obtain ⟨ev, hlog, hcalls, hacc⟩ := h.log
  obtain ⟨ev', hlog', hcalls', hacc'⟩ := hs.shown h hsec hi
  refine ⟨(hs.field (·.attached) fun _ => rfl).trans h.attached, hs.free,
    (hs.field (·.api_callback) fun _ => rfl).trans h.api, (hs.field (·.xfer_callback) fun _ => rfl).trans h.xfer,
    (hs.field (·.work_area) fun _ => rfl).trans h.area, (hs.field (·.sector_size) fun _ => rfl).trans h.sector,
    fun he => h.latency ((hs.field (·.latency) fun _ => rfl).symm.trans he),
    (hs.field (·.current_dir_ptr) fun _ => rfl).trans h.dir,
    (hs.field (·.current_fat_ptr) fun _ => rfl).trans h.fat, ev ++ ev', ?_, ?_, ?_⟩
  · exact hlog'.trans (by rw [hlog, List.append_assoc])
  · rw [callbacks_append, hcalls, hcalls', List.append_nil]
  · have hsucc : List.range (i + 1) = List.range i ++ [i] := List.range_succ
    rw [accesses_append, hacc, hacc', hsucc, List.flatMap_append, List.flatMap_singleton]

/-- The next segment of the same block. -/
theorem Segment.mounting (hs : Segment s s' true) (h : Mounting p s i) (hsec : p.sector ≤ 2 ^ 18) (hi : i < 80)
    (hsame : (i + 1) % 16 ≠ 0) : Mounting p s'.probed.advanced (i + 1) := by
  have hdiv : (i + 1) / 16 = i / 16 := by omega
  have hmod : (i + 1) % 16 = i % 16 + 1 := by omega
  refine ⟨hs.underway h hsec hi, ?_, ?_, ?_, ?_⟩
  · rw [hdiv]
    exact (hs.field (·.mount_step) fun _ => rfl).trans h.step
  · show s'.card.repeats - 1 = _
    rw [hs.field (·.repeats) fun _ => rfl, hmod]
    have hrep := h.repeats
    show s.card.repeats - 1 = _
    omega
  · rw [hs.next_addr (h.addr_lt hsec hi), h.addr, hdiv, hmod]
    omega
  · show s'.card.buffer + 512 = _
    rw [hs.field (·.buffer) fun _ => rfl, hdiv, hmod]
    have hbuf := h.buffer
    show s.card.buffer + 512 = _
    omega

/-- A segment without data. -/
theorem Segment.held (hs : Segment s s' ok) (h : Mounting p s i) :
    Held p s' ∧ s'.card.xfer_callback = some .mount := by
  obtain ⟨ev, hlog, hcalls, _⟩ := h.log
  refine ⟨⟨hs.free, (hs.field (·.api_callback) fun _ => rfl).trans h.api, ?_⟩,
    (hs.field (·.xfer_callback) fun _ => rfl).trans h.xfer⟩
  obtain hl | ⟨_, hl⟩ := hs.log
  · refine ⟨ev ++ (s.wire ++ [.dma s.card.buffer 512]), by rw [hl, hlog]; simp, ?_⟩
    rw [callbacks_append, hcalls]
    rfl
  · refine ⟨ev ++ s.wire, by rw [hl, hlog]; simp, ?_⟩
    rw [callbacks_append, hcalls]
    rfl

end Segments

section Run

/-- The first segment of a block. -/
def Slot.blockStart (s : Slot) : Slot :=
  { s with
    card.xfer_callback := some .mount, card.repeats := 16
    card.addr := s.card.sector_size * (s.card.mount_step - 2)
    card.buffer := s.card.work_area + CARD_SYSTEM_BLOCK_SIZE * (s.card.mount_step - 2) }

/-- Behind its preparations a mount reads a block. -/
theorem mountRead_eq {call : Call} (hchan : ¬ (chan < 0 ∨ 2 ≤ chan)) (ha : s.card.attached = true) :
    cardRead call chan (s.card.sector_size * (s.card.mount_step - 2)) CARD_SYSTEM_BLOCK_SIZE
      (s.card.work_area + CARD_SYSTEM_BLOCK_SIZE * (s.card.mount_step - 2)) (some .mount) s =
      cardReadSegment call chan (some .blockRead) s.blockStart := by
  rw [cardRead, if_neg hchan, if_neg (by simp [ha])]
  rfl

theorem DoMount_reads {call : Call} (hchan : ¬ (chan < 0 ∨ 2 ≤ chan)) (ha : s.card.attached = true)
    (hstep : 2 ≤ s.card.mount_step) : DoMount call chan s =
      (cardReadSegment call chan (some .blockRead) s.blockStart).map fun (result, s) =>
        (result, if result < 0 then cardPutControlBlock s result else s) := by
  have hprep : mountPrepare chan s = some (.next, s) := by
    rw [mountPrepare, if_neg (by omega), Option.bind_some]
    exact if_neg (by omega)
  rw [DoMount, hprep]
  dsimp only
  rw [mountRead_eq hchan ha]

/-- The last block is followed by the verification. -/
theorem Underway.verified (h : Underway p s 80) (hext : External p.attach) (hstep : s.card.mount_step = 6) :
    ∃ s', cardMountCallback (invoke (e + 1)) chan CARD_RESULT_READY { s with card.xfer_callback := none } =
      some s' ∧ Ended p s' := by
  let v : Slot := { s with card.xfer_callback := none, card.mount_step := s.card.mount_step + 1 }
  obtain ⟨hexi, hlog, hapi, hres⟩ := cardVerify_spec v
  obtain ⟨ev, hev, hcalls, hacc⟩ := h.log
  obtain ⟨s', hr, hexi', hmem', hlog', hdir', hfat', hres'⟩ :=
    @mountEnd_eq p (cardVerify v).2 e (cardVerify v).1 chan hext (hapi.trans h.api)
  have hbusy : (cardVerify v).1 ≠ CARD_RESULT_BUSY := by
    obtain hres | hres | ⟨hres, _⟩ := hres <;> rw [hres] <;> decide
  refine ⟨s', ?_, ?_, ?_, ev ++ [.verify v.mem, .callback p.attach (cardVerify v).1], (cardVerify v).1, ?_, ?_, ?_⟩
  · have hlast : ¬ s.card.mount_step + 1 < CARD_MAX_MOUNT_STEP := by
      rw [hstep]
      decide
    rw [cardMountCallback, if_pos rfl]
    dsimp only
    rw [if_neg hlast]
    exact hr
  · rw [hexi', hexi]
    exact h.free
  · obtain hres' | ⟨_, hb, hres'⟩ := hres'
    · rwa [hres']
    · rwa [hres']
  · have hv : v.log = p.log ++ ev := hev
    rw [hlog', hlog, hv]
    simp
  · rw [callbacks_append, hcalls]
    rfl
  · intro hready
    obtain hres | hres | ⟨_, m₁, hdir, hfat⟩ := hres
    · rw [hres] at hready
      cases hready
    · rw [hres] at hready
      cases hready
    · refine ⟨ev, v.mem, by rw [hready], ?_, m₁, ?_, ?_⟩
      · rw [hacc, mountAccesses_eq]
      · rw [hdir', hdir, ← h.dir, ← h.area]
      · rw [hfat', hmem', hfat, ← h.fat, ← h.area]

/-- From the end of a block on to the next one. -/
theorem Underway.block (h : Underway p s (i + 1)) (hmod : (i + 1) % 16 = 0) (hi : i + 1 < 80)
    (hstep : s.card.mount_step = 2 + i / 16) :
    Mounting p { s with card.xfer_callback := none, card.mount_step := s.card.mount_step + 1 }.blockStart
      (i + 1) := by
  have hdiv : (i + 1) / 16 = i / 16 + 1 := by omega
  have hblock : s.card.mount_step + 1 - 2 = i / 16 + 1 := by omega
  refine ⟨⟨h.attached, h.free, h.api, rfl, h.area, h.sector, h.latency, h.dir, h.fat, h.log⟩, ?_, ?_, ?_, ?_⟩
  · show s.card.mount_step + 1 = _
    omega
  · rw [hmod]
    rfl
  · show s.card.sector_size * (s.card.mount_step + 1 - 2) = _
    rw [hmod, hblock, hdiv, h.sector]
    rfl
  · show s.card.work_area + CARD_SYSTEM_BLOCK_SIZE * (s.card.mount_step + 1 - 2) = _
    rw [hmod, hblock, hdiv, h.area]
    rfl

/-- What a segment of a mount and all that follows it come to: the data was refused and
nobody knows, or the mount ended. -/
def Outcome (p : Mount) (r : Int) (s : Slot) : Prop :=
  r = CARD_RESULT_NOCARD ∧ Held p s ∧ s.card.xfer_callback = some .mount ∨ r = CARD_RESULT_READY ∧ Ended p s

/-- A completion in the middle of a block. -/
theorem Outcome.segment (ho : Outcome p r s') (hext : External p.attach) (hmore : 1 < s.card.repeats)
    (hrun : cardReadSegment (invoke (e + 2)) chan (some .blockRead) s.advanced = some (r, s')) :
    ∃ t, BlockReadCallback (invoke (e + 2)) chan CARD_RESULT_READY s = some t ∧ Ended p t := by
  rw [BlockReadCallback_next hmore, hrun]
  obtain ⟨rfl, hheld, hxfer⟩ | ⟨rfl, hends⟩ := ho
  · obtain ⟨t, ht, hends⟩ := @Held.told p s' e chan hheld hext hxfer
    exact ⟨t, (if_pos (by decide)).trans ht, hends⟩
  · exact ⟨s', if_neg (by decide), hends⟩

/-- The end of a block that is not the last one starts the next one. -/
theorem cardMountCallback_reads {call : Call} (hchan : ¬ (chan < 0 ∨ 2 ≤ chan)) (ha : s.card.attached = true)
    (hlo : 2 ≤ s.card.mount_step + 1) (hhi : s.card.mount_step + 1 < 7)
    (hrun : cardReadSegment call chan (some .blockRead)
      { s with card.xfer_callback := none, card.mount_step := s.card.mount_step + 1 }.blockStart = some (r, s')) :
    cardMountCallback call chan CARD_RESULT_READY { s with card.xfer_callback := none } =
      if r < 0 then mountEnd call chan r (cardPutControlBlock s' r) else some s' := by
  let u : Slot := { s with card.xfer_callback := none, card.mount_step := s.card.mount_step + 1 }
  have hdo : DoMount call chan u = some (r, if r < 0 then cardPutControlBlock s' r else s') := by
    rw [@DoMount_reads u chan call hchan ha hlo]
    exact congrArg _ hrun
  have hnext : cardMountCallback call chan CARD_RESULT_READY { s with card.xfer_callback := none } =
      mountNext call chan u := by
    rw [cardMountCallback, if_pos rfl]
    exact if_pos hhi
  rw [hnext, mountNext, hdo]
  dsimp only
  by_cases hr : r < 0
  · rw [if_neg (by omega), if_pos hr, if_pos hr]
  · rw [if_pos (by omega), if_neg hr, if_neg hr]

/-- A completion at the end of a block. -/
theorem Outcome.block (ho : Outcome p r s') (hext : External p.attach) (hchan : ¬ (chan < 0 ∨ 2 ≤ chan))
    (ha : s.card.attached = true) (hlo : 2 ≤ s.card.mount_step + 1) (hhi : s.card.mount_step + 1 < 7)
    (hrun : cardReadSegment (invoke (e + 1)) chan (some .blockRead)
      { s with card.xfer_callback := none, card.mount_step := s.card.mount_step + 1 }.blockStart = some (r, s')) :
    ∃ t, cardMountCallback (invoke (e + 1)) chan CARD_RESULT_READY { s with card.xfer_callback := none } = some t ∧
      Ended p t := by
  rw [cardMountCallback_reads hchan ha hlo hhi hrun]
  obtain ⟨rfl, hheld, _⟩ | ⟨rfl, hends⟩ := ho
  · obtain ⟨t, ht, hends⟩ := @Held.mountEnd p _ e CARD_RESULT_NOCARD chan hheld.put hext (by decide) (by decide)
    exact ⟨t, (if_pos (by decide)).trans ht, hends⟩
  · exact ⟨s', if_neg (by decide), hends⟩

/-- Every segment is read or refused, every probe answered one way or the other. -/
theorem Mounting.run (hchan : ¬ (chan < 0 ∨ 2 ≤ chan)) (hext : External p.attach) (hsec : p.sector ≤ 2 ^ 18)
    (h : Mounting p s i) (hi : i < 80) (hd : 3 * (80 - i) + 1 ≤ d) :
    ∃ r s', cardReadSegment (invoke d) chan (some .blockRead) s = some (r, s') ∧ Outcome p r s' := by
  induction hk : 80 - i generalizing s i d with
  | zero => omega
  | succ k ih =>
    obtain ⟨e, rfl⟩ : ∃ e, d = e + 4 := ⟨d - 4, by omega⟩
    obtain ⟨s₁, ok, hseg, heq⟩ := cardReadSegment_eq (e + 3) .blockRead hchan h.attached h.free
    cases ok with
    | false => exact ⟨_, s₁, heq, .inl ⟨rfl, hseg.held h⟩⟩
    | true =>
      have hheld : Held p s₁.probed ∧ s₁.probed.card.xfer_callback = some .mount :=
        ⟨⟨hseg.free, (hseg.held h).1.api, (hseg.held h).1.log⟩, (hseg.held h).2⟩
      have hunder := hseg.underway h hsec hi
      have hrep : s₁.probed.card.repeats = (16 - i % 16 : Nat) :=
        (hseg.field (·.repeats) fun _ => rfl).trans h.repeats
      have hstep : s₁.probed.advanced.card.mount_step = 2 + i / 16 :=
        (hseg.field (·.mount_step) fun _ => rfl).trans h.step
      have hcall : ∃ t, BlockReadCallback (invoke (e + 2)) chan s₁.probeResult s₁.probed = some t ∧ Ended p t := by
        by_cases hprobe : s₁.probeResult = CARD_RESULT_READY
        · rw [hprobe]
          by_cases hmod : (i + 1) % 16 = 0
          · rw [BlockReadCallback_last (by omega), blockReadEnd_mount hunder.api hunder.xfer]
            by_cases hlast : i + 1 < 80
            · obtain ⟨r, s', hrun, ho⟩ :=
                ih (d := e + 1) (hunder.block hmod hlast hstep) hlast (by omega) (by omega)
              exact ho.block hext hchan hunder.attached (by omega) (by omega) hrun
            · have h80 : i + 1 = 80 := by omega
              rw [h80] at hunder
              exact hunder.verified hext (by omega)
          · obtain ⟨r, s', hrun, ho⟩ :=
              ih (d := e + 2) (hseg.mounting h hsec hi hmod) (by omega) (by omega) (by omega)
            exact ho.segment hext (by omega) hrun
        · have hgone : s₁.probeResult = CARD_RESULT_NOCARD := by
            unfold Slot.probeResult at hprobe ⊢
            split
            · rename_i hpos
              exact absurd (if_pos hpos) hprobe
            · rfl
          rw [hgone]
          obtain ⟨t, ht, hends⟩ := @Held.told p _ e chan hheld.1 hext hheld.2
          exact ⟨t, (BlockReadCallback_error (by decide)).trans ht, hends⟩
      obtain ⟨t, ht, hends⟩ := hcall
      have hcall : invoke (e + 3) .blockRead chan s₁.probeResult s₁.probed = some t := ht
      refine ⟨_, t, ?_, .inr ⟨rfl, hends⟩⟩
      rw [heq, if_pos rfl, hcall]
      rfl

end Run

end SdkPort.Card
