import SdkPort.Card.MountImage

/-!
# The copies a mount keeps

After a mount its user was told the success of, the current directory and the current file
allocation table should be the newer copies on the card. A mount clears two fields that
nothing reads, and not the pointers the verification goes by: a pointer that an earlier
mount left is kept, and nothing is copied.
-/
namespace SdkPort.Card

open ByteMem (load store)

variable {m m' m₁ m₁' : Nat → UInt8} {block : Nat → Nat} {counter ptr ptr' : Nat} {s s' t : Slot} {r chan : Int}

section Choice

/-- The pointer is at one of two blocks, and both hold what was read of the one whose counter
is not the smaller one. -/
def NewestAt (m m' : Nat → UInt8) (block : Nat → Nat) (counter ptr : Nat) : Prop :=
  (∃ i, i < 2 ∧ ptr = block i) ∧
    ∃ j, j < 2 ∧ s16 (rd16be m (block (1 - j) + counter)) ≤ s16 (rd16be m (block j + counter)) ∧
      ∀ i, i < 2 → load m' (block i) CARD_SYSTEM_BLOCK_SIZE = load m (block j) CARD_SYSTEM_BLOCK_SIZE

/-- No copy is current, or one of two equal ones is. -/
def HarmlessAt (m : Nat → UInt8) (block : Nat → Nat) (ptr : Nat) : Prop :=
  ptr = 0 ∨ (∃ i, i < 2 ∧ ptr = block i) ∧
    load m (block 0) CARD_SYSTEM_BLOCK_SIZE = load m (block 1) CARD_SYSTEM_BLOCK_SIZE

/-- A choice between two copies is right. -/
theorem chooseCopy_newest (hblock : block 0 + CARD_SYSTEM_BLOCK_SIZE ≤ block 1) :
    NewestAt m (chooseCopy m (block 0) (block 1) counter).2 block counter
      (chooseCopy m (block 0) (block 1) counter).1 := by
  obtain ⟨src, hsrc, h0, h1⟩ := @chooseCopy_loads m (block 0) (block 1) counter hblock
  have hboth : ∀ i, i < 2 → load (chooseCopy m (block 0) (block 1) counter).2 (block i) CARD_SYSTEM_BLOCK_SIZE =
      load m src CARD_SYSTEM_BLOCK_SIZE := by
    intro i hi
    obtain rfl | rfl : i = 0 ∨ i = 1 := by omega
    · exact h0
    · exact h1
  obtain ⟨hlt, rfl⟩ | ⟨hle, rfl⟩ := hsrc
  · have hle : s16 (rd16be m (block 0 + counter)) ≤ s16 (rd16be m (block 1 + counter)) := by omega
    exact ⟨⟨0, by decide, by rw [chooseCopy, if_pos hlt]⟩, 1, by decide, hle, hboth⟩
  · have hle' : s16 (rd16be m (block 1 + counter)) ≤ s16 (rd16be m (block 0 + counter)) := by omega
    exact ⟨⟨1, by decide, by rw [chooseCopy, if_neg hle]⟩, 0, by decide, hle', hboth⟩

/-- What a verification keeps is right exactly if no copy was current, or one of two equal
ones. -/
theorem keepCopy_newest (h : (ptr', m') = keepCopy ptr m (block 0) (block 1) counter)
    (hblock : block 0 + CARD_SYSTEM_BLOCK_SIZE ≤ block 1) (hk : counter + 1 < CARD_SYSTEM_BLOCK_SIZE) :
    NewestAt m m' block counter ptr' ↔ HarmlessAt m block ptr := by
  unfold keepCopy at h
  by_cases hp : ptr = 0
  · rw [if_pos hp] at h
    have hnew := @chooseCopy_newest m block counter hblock
    rw [← h] at hnew
    exact ⟨fun _ => .inl hp, fun _ => hnew⟩
  · rw [if_neg hp] at h
    obtain ⟨rfl, rfl⟩ := Prod.mk.inj h
    constructor
    · rintro ⟨hat, j, _, _, hloads⟩
      exact .inr ⟨hat, (hloads 0 (by decide)).trans (hloads 1 (by decide)).symm⟩
    · rintro (h0 | ⟨hat, heq⟩)
      · exact absurd h0 hp
      · refine ⟨hat, 0, by decide, ?_, ?_⟩
        · exact le_of_eq (congrArg s16 (rd16be_congr heq.symm hk))
        · intro i hi
          obtain rfl | rfl : i = 0 ∨ i = 1 := by omega
          · rfl
          · exact heq.symm

/-- Both are about the two blocks alone. -/
theorem NewestAt.congr (h : NewestAt m m' block counter ptr) (hk : counter + 1 < CARD_SYSTEM_BLOCK_SIZE)
    (hm : ∀ i, i < 2 → load m₁ (block i) CARD_SYSTEM_BLOCK_SIZE = load m (block i) CARD_SYSTEM_BLOCK_SIZE)
    (hm' : ∀ i, i < 2 → load m₁' (block i) CARD_SYSTEM_BLOCK_SIZE = load m' (block i) CARD_SYSTEM_BLOCK_SIZE) :
    NewestAt m₁ m₁' block counter ptr := by
  obtain ⟨hat, j, hj, hle, hloads⟩ := h
  refine ⟨hat, j, hj, ?_, ?_⟩
  · rwa [rd16be_congr (hm (1 - j) (by omega)) hk, rd16be_congr (hm j hj) hk]
  · intro i hi
    rw [hm' i hi, hm j hj]
    exact hloads i hi

theorem HarmlessAt.congr (h : HarmlessAt m block ptr)
    (hm : ∀ i, i < 2 → load m₁ (block i) CARD_SYSTEM_BLOCK_SIZE = load m (block i) CARD_SYSTEM_BLOCK_SIZE) :
    HarmlessAt m₁ block ptr := by
  obtain h0 | ⟨hat, heq⟩ := h
  · exact .inl h0
  · exact .inr ⟨hat, by rw [hm 0 (by decide), hm 1 (by decide), heq]⟩

/-- A verification without errors keeps the right copies exactly if no wrong ones were
current. -/
theorem Verified.newest_iff {p : Mount} (h : Verified p m s) :
    (NewestAt m s.mem (dirBlock p.workArea) dirCounter s.card.current_dir_ptr ∧
      NewestAt m s.mem (fatBlock p.workArea) fatCounter s.card.current_fat_ptr) ↔
    HarmlessAt m (dirBlock p.workArea) p.dir ∧ HarmlessAt m (fatBlock p.workArea) p.fat := by
  obtain ⟨m₁, hdir, hfat⟩ := h
  have hdirs : ∀ i, i < 2 → load s.mem (dirBlock p.workArea i) CARD_SYSTEM_BLOCK_SIZE =
      load m₁ (dirBlock p.workArea i) CARD_SYSTEM_BLOCK_SIZE := by
    intro i hi
    rw [show s.mem = _ from congrArg Prod.snd hfat]
    exact keepCopy_load (.inl (dirBlock_le_fatBlock hi _)) (.inl (dirBlock_le_fatBlock hi _))
  have hfats : ∀ i, i < 2 → load m₁ (fatBlock p.workArea i) CARD_SYSTEM_BLOCK_SIZE =
      load m (fatBlock p.workArea i) CARD_SYSTEM_BLOCK_SIZE := by
    intro i _
    rw [show m₁ = _ from congrArg Prod.snd hdir]
    exact keepCopy_load (.inr (dirBlock_le_fatBlock (by decide) _)) (.inr (dirBlock_le_fatBlock (by decide) _))
  have hd := @keepCopy_newest m m₁ (dirBlock p.workArea) dirCounter p.dir _ hdir
    (by simp only [dirBlock]; omega) (by decide)
  have hf := @keepCopy_newest m₁ s.mem (fatBlock p.workArea) fatCounter p.fat _ hfat
    (by simp only [fatBlock]; omega) (by decide)
  constructor
  · rintro ⟨hdir, hfat⟩
    have hdir' := hd.mp (hdir.congr (by decide) (fun _ _ => rfl) fun i hi => (hdirs i hi).symm)
    have hfat' := hf.mp (hfat.congr (by decide) hfats fun _ _ => rfl)
    exact ⟨hdir', hfat'.congr fun i hi => (hfats i hi).symm⟩
  · rintro ⟨hdir, hfat⟩
    have hdir' := hd.mpr hdir
    have hfat' := hf.mpr (hfat.congr hfats)
    exact ⟨hdir'.congr (by decide) (fun _ _ => rfl) hdirs,
      hfat'.congr (by decide) (fun i hi => (hfats i hi).symm) fun _ _ => rfl⟩

end Choice

section Silence

theorem CARDUnlock_log (chan : Int) (s : Slot) : (CARDUnlock chan s).2.log = s.log := by
  unfold CARDUnlock
  split
  · rfl
  · split <;> rfl

/-- The unlocking of a card tells nobody and goes no further. -/
theorem unlocking_silent {x : Exit} (h : (let (result, s) := CARDUnlock chan s
    if result < 0 then some (.error result, s) else storeSerial result s) = some (x, t)) :
    t.log = s.log ∧ x ≠ .next := by
  have hlog := CARDUnlock_log chan s
  cases hun : CARDUnlock chan s with
  | mk result u =>
    rw [hun] at h hlog
    dsimp only at h
    by_cases hneg : result < 0
    · rw [if_pos hneg] at h
      cases h
      exact ⟨hlog, by simp⟩
    · rw [if_neg hneg, storeSerial, OSLockSramEx] at h
      by_cases hscb : u.scb_locked = true
      · rw [if_pos hscb] at h
        cases h
      · rw [if_neg hscb] at h
        cases h
        exact ⟨hlog, by simp⟩

/-- An identification with the channel in use, the SRAM locked or a locked card goes no
further, and tells nobody. -/
theorem mountIdentify_silent {x : Exit} (hl : s.exi.locked = true)
    (hno : ¬ (s.exi.line = .deselected ∧ s.scb_locked = false ∧ s.exi.card_status &&& 0x40 ≠ 0))
    (h : mountIdentify chan s = some (x, t)) : t.log = s.log ∧ x ≠ .next := by
  cases hget : EXIGetID s.exi with
  | none =>
    rw [mountIdentify, hget] at h
    cases h
    exact ⟨rfl, by simp⟩
  | some id =>
    by_cases hcard : IsCard id = true
    · by_cases hd : s.exi.line = .deselected
      · rw [mountIdentify_eq hl hd hget hcard] at h
        by_cases hprobe : 0 < s.exi.probeex_ret s.exi.probes
        · rw [if_neg (not_not.mpr hprobe)] at h
          by_cases hst : s.exi.card_status &&& 0x40 = 0
          · rw [if_pos hst] at h
            have hun := unlocking_silent h
            exact hun
          · have hscb : (s.identified id).scb_locked = true := by
              by_contra hscb
              exact hno ⟨hd, eq_false_of_ne_true hscb, hst⟩
            rw [if_neg hst, OSLockSramEx, if_pos hscb] at h
            cases h
        · rw [if_pos hprobe] at h
          cases h
          exact ⟨rfl, by simp⟩
      · have hsel : s.exi.line.selected = true := by
          cases hline : s.exi.line with
          | deselected => exact absurd hline hd
          | idle => rfl
          | imm length => rfl
          | dma => rfl
        rw [mountIdentify, hget] at h
        dsimp only at h
        rw [if_neg (not_not.mpr hcard), cardClearStatus_selected hsel] at h
        cases h
        exact ⟨rfl, by simp⟩
    · rw [mountIdentify, hget] at h
      dsimp only at h
      rw [if_pos hcard] at h
      cases h
      exact ⟨rfl, by simp⟩

theorem DoUnmount_log (s : Slot) : (DoUnmount r s).log = s.log := by
  unfold DoUnmount
  split <;> rfl

theorem DoMount_silent {call : Call} (h0 : s.card.mount_step = 0) (hl : s.exi.locked = true)
    (hno : ¬ (s.exi.line = .deselected ∧ s.scb_locked = false ∧ s.exi.card_status &&& 0x40 ≠ 0))
    (h : DoMount call chan s = some (r, s')) : s'.log = s.log := by
  rw [DoMount, mountPrepare, if_pos h0] at h
  cases hid : mountIdentify chan s with
  | none =>
    rw [hid] at h
    cases h
  | some p =>
    obtain ⟨x, t⟩ := p
    obtain ⟨hlog, hx⟩ := mountIdentify_silent hl hno hid
    rw [hid, Option.bind_some] at h
    cases x with
    | next => exact absurd rfl hx
    | done result =>
      cases h
      exact hlog
    | error result =>
      cases h
      exact (DoUnmount_log _).trans hlog

/-- A mount that does not find its slot mountable tells nobody. -/
theorem cardMountAsync_silent {workArea : Nat} {detach attach : Option Callback}
    (hno : ¬ (¬ (chan < 0 ∨ 2 ≤ chan) ∧ Mountable s))
    (h : CARDMountAsync chan workArea detach attach s = some (r, s')) : s'.log = s.log := by
  by_cases hchan : chan < 0 ∨ 2 ≤ chan
  · rw [CARDMountAsync, if_pos hchan] at h
    cases h
    rfl
  by_cases hgame : s.gamechoice.any (· &&& 0x80 ≠ 0) = true
  · rw [CARDMountAsync, if_neg hchan, if_pos hgame] at h
    cases h
    rfl
  by_cases hbusy : s.card.result = CARD_RESULT_BUSY
  · rw [CARDMountAsync, if_neg hchan, if_neg hgame, if_pos hbusy] at h
    cases h
    rfl
  rw [CARDMountAsync, if_neg hchan, if_neg hgame, if_neg hbusy] at h
  by_cases hroom : ¬ s.card.attached = true ∧ s.exi.attached = true
  · rw [if_pos hroom] at h
    cases h
    rfl
  rw [if_neg hroom] at h
  have hattach : ∃ ok attached, (if s.card.attached then (true, s.exi) else EXIAttach s.exi) =
      (ok, { s.exi with attached := attached }) := by
    unfold EXIAttach
    split
    · exact ⟨true, s.exi.attached, rfl⟩
    · split
      · exact ⟨true, true, rfl⟩
      · exact ⟨false, s.exi.attached, rfl⟩
  obtain ⟨ok, attached, hattach⟩ := hattach
  dsimp only at h
  rw [hattach] at h
  cases ok with
  | false =>
    cases h
    rfl
  | true =>
    dsimp only at h
    by_cases hlock : s.exi.locked = true
    · rw [EXILock, if_pos hlock] at h
      cases h
      rfl
    · rw [EXILock, if_neg hlock] at h
      apply @DoMount_silent (s.entered workArea detach attach attached) s' r chan _ rfl rfl _ h
      rintro ⟨hline, hscb, hst⟩
      exact hno ⟨hchan, eq_false_of_ne_true hgame, hbusy, ⟨eq_false_of_ne_true hlock, hline⟩, hscb, hst⟩

end Silence

section Runs

/-- A mount that returned: whom it was to tell, its work area, and the slot around it. -/
structure Attempt where
  attach : Option Nat
  workArea : Nat
  before : Slot
  after : Slot

namespace Attempt

/-- The user was told of a success. -/
def Succeeds (a : Attempt) : Prop :=
  ∃ ev, a.after.log = a.before.log ++ ev ∧ (attachCallback a.attach, CARD_RESULT_READY) ∈ callbacks ev

/-- The five blocks were read, the verification found them in memory, and the user was told
of a success. -/
def Read (a : Attempt) (m : Nat → UInt8) : Prop :=
  ∃ pre, a.after.log =
      a.before.log ++ (pre ++ [.verify m, .callback (attachCallback a.attach) CARD_RESULT_READY]) ∧
    accesses pre = mountAccesses (idSectorSize a.before.exi.id) a.workArea

/-- Directory and file allocation table are the newer ones of the copies read. -/
def KeepsNewest (a : Attempt) (m : Nat → UInt8) : Prop :=
  NewestAt m a.after.mem (dirBlock a.workArea) dirCounter a.after.card.current_dir_ptr ∧
    NewestAt m a.after.mem (fatBlock a.workArea) fatCounter a.after.card.current_fat_ptr

/-- Before the mount no copy was current, or one of two equal ones among those then read. -/
def Harmless (a : Attempt) (m : Nat → UInt8) : Prop :=
  HarmlessAt m (dirBlock a.workArea) a.before.card.current_dir_ptr ∧
    HarmlessAt m (fatBlock a.workArea) a.before.card.current_fat_ptr

/-- A single mount, on whatever slot. -/
theorem keepsNewest_iff {a : Attempt} {detach : Option Callback}
    (h : CARDMountAsync chan a.workArea detach (a.attach.map .user) a.before = some (r, a.after))
    (hs : a.Succeeds) : ∃ m, a.Read m ∧ (a.KeepsNewest m ↔ a.Harmless m) := by
  obtain ⟨ev, hlog, hmem⟩ := hs
  have hcan : ¬ (chan < 0 ∨ 2 ≤ chan) ∧ Mountable a.before := by
    by_contra hno
    have hnil : ev = [] := List.self_eq_append_right.mp ((cardMountAsync_silent hno h).symm.trans hlog)
    rw [hnil] at hmem
    cases hmem
  obtain ⟨r', s', hr, _, _, hends⟩ := mount_ends a.workArea detach a.attach hcan.1 hcan.2
  obtain ⟨rfl, rfl⟩ := Prod.mk.inj (Option.some.inj (h.symm.trans hr))
  obtain ⟨_, ev', hlog', hnone⟩ | ⟨_, hends⟩ := hends
  · rw [List.append_cancel_left (hlog.symm.trans hlog'), hnone] at hmem
    cases hmem
  · obtain ⟨ev', res, hlog', hcalls, hready⟩ := hends.log
    have hsame : ev = ev' := List.append_cancel_left (hlog.symm.trans hlog')
    rw [hsame, hcalls, List.mem_singleton] at hmem
    obtain ⟨pre, m, hev, hacc, hver⟩ := hready (congrArg Prod.snd hmem).symm
    rw [hev] at hlog'
    exact ⟨m, ⟨pre, hlog', hacc⟩, hver.newest_iff⟩

end Attempt

/-- What mounts and unmounts of a channel lead to, from a state in which no copy is current;
in between, everything but the control block may change. -/
inductive MountRun (chan : Int) : List Attempt → Slot → Prop where
  | start {s : Slot} : s.card.current_dir_ptr = 0 → s.card.current_fat_ptr = 0 → MountRun chan [] s
  | mount {l : List Attempt} {a : Attempt} {detach : Option Callback} {r : Int} : MountRun chan l a.before →
      CARDMountAsync chan a.workArea detach (a.attach.map .user) a.before = some (r, a.after) →
      MountRun chan (l ++ [a]) a.after
  | unmount {l : List Attempt} {s : Slot} : MountRun chan l s → MountRun chan l (CARDUnmount chan s).2
  | outside {l : List Attempt} {s s' : Slot} : MountRun chan l s → s'.card = s.card → MountRun chan l s'

/-- Every mount of a run that succeeds keeps the newest copies exactly if it began with no
copy current, or with one of two equal ones. -/
theorem mountRun_keepsNewest {l : List Attempt} (h : MountRun chan l s) : ∀ a ∈ l, a.Succeeds →
    ∃ m, a.Read m ∧ (a.KeepsNewest m ↔ a.Harmless m) := by
  induction h with
  | start _ _ =>
    intro a ha
    exact absurd ha List.not_mem_nil
  | mount _ hr ih =>
    intro a ha
    obtain ha | ha := List.mem_append.mp ha
    · exact ih a ha
    · obtain rfl := List.mem_singleton.mp ha
      exact Attempt.keepsNewest_iff hr
  | unmount _ ih => exact ih
  | outside _ _ ih => exact ih

end Runs

section Trial

/-- The mount of a sound card succeeds. -/
theorem Loadable.succeeds {c : GcMemcard} {workArea : Nat} (h : Loadable c workArea s)
    (detach : Option Callback) (attach : Option Nat) (hchan : ¬ (chan < 0 ∨ 2 ≤ chan)) :
    ∃ s', CARDMountAsync chan workArea detach (attach.map .user) s = some (CARD_RESULT_READY, s') ∧
      s'.card.result ≠ CARD_RESULT_BUSY ∧ Attempt.Succeeds ⟨attach, workArea, s, s'⟩ := by
  obtain ⟨s', ev, m, hr, hlog, _⟩ := h.mount detach attach hchan
  obtain ⟨_, _, hr', _, hbusy, _⟩ := mount_ends workArea detach attach hchan h.toMountable
  obtain ⟨rfl, rfl⟩ := Prod.mk.inj (Option.some.inj (hr.symm.trans hr'))
  refine ⟨s', hr, hbusy, _, hlog.trans (List.append_assoc _ _ _), ?_⟩
  rw [callbacks_append]
  exact List.mem_append_right _ (List.mem_singleton.mpr rfl)

/-- An unmount keeps the pointers and leaves no card busy. -/
theorem CARDUnmount_kept (chan : Int) (s : Slot) :
    (CARDUnmount chan s).2.card.current_dir_ptr = s.card.current_dir_ptr ∧
      (s.card.result ≠ CARD_RESULT_BUSY → (CARDUnmount chan s).2.card.result ≠ CARD_RESULT_BUSY) := by
  unfold CARDUnmount cardGetControlBlock
  by_cases hchan : chan < 0 ∨ 2 ≤ chan
  · rw [if_pos hchan]
    exact ⟨rfl, fun h => h⟩
  · by_cases hdisk : s.card.disk_id = 0
    · rw [if_neg hchan, if_pos hdisk]
      exact ⟨rfl, fun h => h⟩
    · by_cases ha : s.card.attached = true
      · by_cases hb : s.card.result = CARD_RESULT_BUSY
        · rw [if_neg hchan, if_neg hdisk, if_neg (not_not.mpr ha), if_pos hb]
          exact ⟨rfl, fun h => h⟩
        · rw [if_neg hchan, if_neg hdisk, if_neg (not_not.mpr ha), if_neg hb]
          dsimp only
          rw [if_neg (by decide), DoUnmount, if_pos ha]
          exact ⟨rfl, fun _ => nocard_ne_busy⟩
      · rw [if_neg hchan, if_neg hdisk, if_pos ha]
        exact ⟨rfl, fun h => h⟩

/-- A card with an identification block of a card of 4 megabits, and the copies of the fifth
and of the sixth update. -/
def trialImage : GcMemcard where
  inserted := true
  size := 5 * 8192
  data := fun x =>
    if x < 8192 then if x = 35 ∨ x = 509 then 4 else if x = 510 ∨ x = 511 then 0xFE else 0
    else trialCopies 5 6 (x + 0x10000)

/-- The slot when the card was put in. -/
def trialInsert (card : GcCardControl) (log : List Event) : Slot :=
  { trialSlot 0 with card := card, exi := { trialExi trialImage with attached := false }, log := log }

theorem trialImage_block {k : Nat} (hk : 0 < k) :
    load trialImage.data (0 + k * CARD_SYSTEM_BLOCK_SIZE) CARD_SYSTEM_BLOCK_SIZE =
      load (trialCopies 5 6) (0x10000 + k * CARD_SYSTEM_BLOCK_SIZE) CARD_SYSTEM_BLOCK_SIZE := by
  apply ByteMem.load_eq_iff.mpr
  intro i _
  have hle : CARD_SYSTEM_BLOCK_SIZE ≤ k * CARD_SYSTEM_BLOCK_SIZE := Nat.le_mul_of_pos_left _ hk
  have hid : ¬ 0 + k * CARD_SYSTEM_BLOCK_SIZE + i < 8192 := by
    unfold CARD_SYSTEM_BLOCK_SIZE at hle ⊢
    omega
  have haddr : 0 + k * CARD_SYSTEM_BLOCK_SIZE + i + 0x10000 = 0x10000 + k * CARD_SYSTEM_BLOCK_SIZE + i := by
    omega
  rw [← haddr]
  exact if_neg hid

theorem trialImage_sound : Card.Sound (systemBlocks trialImage 8192) 0 4 64 0 fun _ => 0 := by
  have hdata : systemBlocks trialImage 8192 = trialImage.data := by
    funext x
    exact congrArg trialImage.data (Nat.div_add_mod x 8192)
  rw [hdata]
  refine ⟨by decide +kernel, by decide +kernel, by decide +kernel, by decide +kernel, ?_, ?_⟩
  · intro i hi
    rw [dirBlock, dirSumsMatch_congr (trialImage_block (by omega))]
    obtain rfl | rfl : i = 0 ∨ i = 1 := by omega
    · exact trialVerify_dir.old_ok
    · exact trialVerify_dir.new_ok
  · intro i hi
    rw [fatBlock, fatOk_congr (trialImage_block (by omega)) (by decide)]
    obtain rfl | rfl : i = 0 ∨ i = 1 := by omega
    · exact trialVerify_fat.old_ok
    · exact trialVerify_fat.new_ok

theorem trialImage_identified (card : GcCardControl) : idSectorSize 4 = 8192 ∧ (identified 4 card).latency = 4 ∧
    (identified 4 card).size_u16 = 4 ∧ (identified 4 card).cblock = 64 := ⟨rfl, rfl, rfl, rfl⟩

theorem trialInsert_loadable {card : GcCardControl} {log : List Event} {workArea : Nat}
    (hbusy : card.result ≠ CARD_RESULT_BUSY) (harea : workArea ≠ 0) :
    Loadable trialImage workArea (trialInsert card log) where
  gamechoice := rfl
  idle := hbusy
  free := ⟨rfl, rfl⟩
  sram := rfl
  unlocked := show (0x40 : UInt8) &&& 0x40 ≠ 0 by decide
  area := harea
  room := .inr ⟨rfl, rfl⟩
  told := rfl
  id := show IsCard 4 = true by decide
  checksum := show (0xFF : UInt8) = flashSum fun _ => 0 by decide
  hook := rfl
  probe := fun _ => Int.one_pos
  inserted := rfl
  size := by
    show idSectorSize 4 * 4 + CARD_SYSTEM_BLOCK_SIZE ≤ 5 * 8192
    decide
  short := by
    show (identified 4 card).latency < 5
    rw [(trialImage_identified card).2.1]
    decide
  blocks := by
    show 2 * u16 (identified 4 card).cblock ≤ CARD_SYSTEM_BLOCK_SIZE
    rw [(trialImage_identified card).2.2.2]
    decide
  sound := by
    obtain ⟨hsector, _, hsize, hcblock⟩ := trialImage_identified card
    show Card.Sound (systemBlocks trialImage (idSectorSize 4)) 0 (identified 4 card).size_u16
      (identified 4 card).cblock 0 fun _ => 0
    rw [hsector, hsize, hcblock]
    exact trialImage_sound

/-- The first mount keeps the newest copies. -/
theorem trialRun_first : ∃ a : Attempt, a.before = trialInsert trialControl [] ∧ a.workArea = 0x10000 ∧
    MountRun 0 [a] a.after ∧ a.Succeeds ∧ ∃ m, a.Read m ∧ a.KeepsNewest m := by
  have hload := @trialInsert_loadable trialControl [] 0x10000 (by decide) (by decide)
  obtain ⟨s, hr, _, hs⟩ := @Loadable.succeeds _ 0 _ _ hload none (some 7) (by decide)
  let a : Attempt := ⟨some 7, 0x10000, trialInsert trialControl [], s⟩
  have hrun : MountRun 0 [a] s := @MountRun.mount 0 [] a none _ (.start rfl rfl) hr
  obtain ⟨m, hread, hiff⟩ := mountRun_keepsNewest hrun a (List.mem_singleton.mpr rfl) hs
  exact ⟨a, rfl, rfl, hrun, hs, m, hread, hiff.mpr ⟨.inl rfl, .inl rfl⟩⟩

/-- The card is mounted, unmounted, and mounted into another work area: the pointers stay in
the first one. -/
theorem trialRun_stale : ∃ a b : Attempt, a.before = trialInsert trialControl [] ∧ a.workArea = 0x10000 ∧
    b.before = trialInsert (CARDUnmount 0 a.after).2.card a.after.log ∧ b.workArea = 0x20000 ∧
    MountRun 0 [a, b] b.after ∧ b.Succeeds ∧ ∃ m, b.Read m ∧ ¬ b.KeepsNewest m := by
  have hload := @trialInsert_loadable trialControl [] 0x10000 (by decide) (by decide)
  obtain ⟨s, hr, hbusy, hs⟩ := @Loadable.succeeds _ 0 _ _ hload none (some 7) (by decide)
  let a : Attempt := ⟨some 7, 0x10000, trialInsert trialControl [], s⟩
  obtain ⟨_, _, hiff⟩ := @Attempt.keepsNewest_iff _ 0 a none hr hs
  obtain ⟨⟨⟨i, hi, hptr⟩, _⟩, _⟩ := hiff.mpr ⟨.inl rfl, .inl rfl⟩
  obtain ⟨hkept, hidle⟩ := CARDUnmount_kept 0 s
  have hload' := @trialInsert_loadable (CARDUnmount 0 s).2.card s.log 0x20000 (hidle hbusy) (by decide)
  obtain ⟨s', hr', _, hs'⟩ := @Loadable.succeeds _ 0 _ _ hload' none (some 8) (by decide)
  let b : Attempt := ⟨some 8, 0x20000, trialInsert (CARDUnmount 0 s).2.card s.log, s'⟩
  have hfirst : MountRun 0 [a] s := @MountRun.mount 0 [] a none _ (.start rfl rfl) hr
  have hrun : MountRun 0 [a, b] s' := @MountRun.mount 0 [a] b none _ (.outside (.unmount hfirst) rfl) hr'
  obtain ⟨m, hread, hiff'⟩ := @Attempt.keepsNewest_iff _ 0 b none hr' hs'
  refine ⟨a, b, rfl, rfl, rfl, rfl, hrun, hs', m, hread, ?_⟩
  intro hnew
  obtain ⟨h0 | ⟨⟨j, hj, hat⟩, _⟩, _⟩ := hiff'.mp hnew
  · have hzero : dirBlock 0x10000 i = 0 := hptr.symm.trans (hkept.symm.trans h0)
    unfold dirBlock at hzero
    omega
  · have hblocks : dirBlock 0x10000 i = dirBlock 0x20000 j := hptr.symm.trans (hkept.symm.trans hat)
    unfold dirBlock CARD_SYSTEM_BLOCK_SIZE at hblocks
    omega

end Trial

end SdkPort.Card
