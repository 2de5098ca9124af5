import SdkPort.Card.MountStart
import SdkPort.Card.NewerCopy

/-!
# Mounting a card image

A mount copies the system blocks of a card into the work area and verifies them there. If
the blocks of the card pass, in whatever work area they are read, the mount succeeds.
-/
namespace SdkPort.Card

open ByteMem (load store)

variable {m m' : Nat → UInt8} {a b i k n : Nat} {s : Slot}

/-- The bytes of the five system blocks. -/
def SYSTEM_BYTES : Nat := CARD_NUM_SYSTEM_BLOCK * CARD_SYSTEM_BLOCK_SIZE

section Sound

/-- What a verification without errors finds in a work area. -/
structure Sound (m : Nat → UInt8) (workArea size cblock font : Nat) (flashID : Nat → UInt8) : Prop where
  size : rd16be m (workArea + 32) = 0 ∧ rd16be m (workArea + 34) = size
  sums : (rd16be m (workArea + 508), rd16be m (workArea + 510)) = cardChecksumU16be m workArea (512 - 4)
  font : rd16be m (workArea + 36) = font
  serial : serialMatches flashID (fun i => m (workArea + i)) 12 0 (rd64be m (workArea + 12)) = true
  dir : ∀ i, i < 2 → dirSumsMatch m (dirBlock workArea i) = true
  fat : ∀ i, i < 2 → fatOk m (fatBlock workArea i) cblock = true

/-- Sums depend on the bytes summed. -/
theorem cardSumUpTo_congr (h : load m' b n = load m a n) (hk : 2 * k ≤ n) :
    cardSumUpTo m' b k = cardSumUpTo m a k := by
  induction k with
  | zero => rfl
  | succ k ih => rw [cardSumUpTo, cardSumUpTo, ih (by omega), rd16be_congr h (by omega)]

theorem cardChecksumU16be_congr (h : load m' b n = load m a n) (hk : k ≤ n) :
    cardChecksumU16be m' b k = cardChecksumU16be m a k := by
  rw [cardChecksumU16be, cardChecksumU16be, cardSumUpTo_congr h (by omega)]

theorem countFree_congr (h : load m' b n = load m a n) (hk : 2 * k ≤ n) :
    countFree m' b k = countFree m a k := by
  induction k with
  | zero => rfl
  | succ k ih => rw [countFree, countFree, ih (by omega), rd16be_congr h (by omega)]

theorem dirSumsMatch_congr (h : load m' b CARD_SYSTEM_BLOCK_SIZE = load m a CARD_SYSTEM_BLOCK_SIZE) :
    dirSumsMatch m' b = dirSumsMatch m a := by
  unfold dirSumsMatch
  rw [cardChecksumU16be_congr h (by decide), Nat.add_assoc, Nat.add_assoc, Nat.add_assoc, Nat.add_assoc,
    rd16be_congr h (by decide), rd16be_congr h (by decide)]

theorem fatSumsMatch_congr (h : load m' b CARD_SYSTEM_BLOCK_SIZE = load m a CARD_SYSTEM_BLOCK_SIZE) :
    fatSumsMatch m' b = fatSumsMatch m a := by
  have hrest : load m' (b + CARD_FAT_CHECKCODE * 2) (CARD_SYSTEM_BLOCK_SIZE - 4) =
      load m (a + CARD_FAT_CHECKCODE * 2) (CARD_SYSTEM_BLOCK_SIZE - 4) := ByteMem.load_part h (by decide)
  unfold fatSumsMatch
  rw [cardChecksumU16be_congr hrest (Nat.le_refl _), rd16be_congr h (by decide), rd16be_congr h (by decide)]

theorem fatOk_congr {cblock : Nat} (h : load m' b CARD_SYSTEM_BLOCK_SIZE = load m a CARD_SYSTEM_BLOCK_SIZE)
    (hc : 2 * u16 cblock ≤ CARD_SYSTEM_BLOCK_SIZE) : fatOk m' b cblock = fatOk m a cblock := by
  rw [fatOk, fatOk, fatSumsMatch_congr h, fatFreeMatches, fatFreeMatches, countFree_congr h hc,
    rd16be_congr h (by decide)]

theorem rd64be_congr (h : load m' b n = load m a n) (hk : k + 8 ≤ n) :
    rd64be m' (b + k) = rd64be m (a + k) := by
  have hbyte : ∀ i, i < 8 → m' (b + k + i) = m (a + k + i) :=
    ByteMem.load_eq_iff.mp (ByteMem.load_part h hk)
  unfold rd64be
  apply List.foldl_ext
  intro v i hi
  rw [hbyte i (List.mem_range.mp hi)]

theorem serialMatches_congr {flashID id id' : Nat → UInt8} {rand : Nat}
    (h : ∀ j, j < i + n → id' j = id j) :
    serialMatches flashID id' n i rand = serialMatches flashID id n i rand := by
  induction n generalizing i rand with
  | zero => rfl
  | succ n ih =>
    have hnext : ∀ j, j < i + 1 + n → id' j = id j := fun j hj => h j (by omega)
    rw [serialMatches, serialMatches, h i (by omega), ih hnext]

/-- A block of the five. -/
theorem load_block (h : load m' b SYSTEM_BYTES = load m a SYSTEM_BYTES) (hk : k < CARD_NUM_SYSTEM_BLOCK) :
    load m' (b + k * CARD_SYSTEM_BLOCK_SIZE) CARD_SYSTEM_BLOCK_SIZE =
      load m (a + k * CARD_SYSTEM_BLOCK_SIZE) CARD_SYSTEM_BLOCK_SIZE := by
  apply ByteMem.load_part h
  have hmul : (k + 1) * CARD_SYSTEM_BLOCK_SIZE ≤ SYSTEM_BYTES := Nat.mul_le_mul_right _ hk
  rwa [Nat.succ_mul] at hmul

variable {size cblock font : Nat} {flashID : Nat → UInt8}

/-- A verification finds the same in any work area with the same bytes. -/
theorem Sound.congr (hs : Sound m a size cblock font flashID)
    (h : load m' b SYSTEM_BYTES = load m a SYSTEM_BYTES) (hc : 2 * u16 cblock ≤ CARD_SYSTEM_BLOCK_SIZE) :
    Sound m' b size cblock font flashID := by
  constructor
  · rw [rd16be_congr h (by decide), rd16be_congr h (by decide)]
    exact hs.size
  · rw [rd16be_congr h (by decide), rd16be_congr h (by decide), cardChecksumU16be_congr h (by decide)]
    exact hs.sums
  · rw [rd16be_congr h (by decide)]
    exact hs.font
  · have hbyte : ∀ j, j < 0 + 12 → m' (b + j) = m (a + j) := by
      intro j hj
      exact ByteMem.load_eq_iff.mp h j (Nat.lt_of_lt_of_le hj (by decide))
    rw [rd64be_congr h (by decide), serialMatches_congr hbyte]
    exact hs.serial
  · intro i hi
    rw [dirBlock, dirSumsMatch_congr (load_block h (by unfold CARD_NUM_SYSTEM_BLOCK; omega))]
    exact hs.dir i hi
  · intro i hi
    rw [fatBlock, fatOk_congr (load_block h (by unfold CARD_NUM_SYSTEM_BLOCK; omega)) hc]
    exact hs.fat i hi

end Sound

section Verify

/-- The choice of a copy changes nothing beside the two blocks. -/
theorem keepCopy_load {block₀ block₁ counter ptr x : Nat}
    (h₀ : x + CARD_SYSTEM_BLOCK_SIZE ≤ block₀ ∨ block₀ + CARD_SYSTEM_BLOCK_SIZE ≤ x)
    (h₁ : x + CARD_SYSTEM_BLOCK_SIZE ≤ block₁ ∨ block₁ + CARD_SYSTEM_BLOCK_SIZE ≤ x) :
    load (keepCopy ptr m block₀ block₁ counter).2 x CARD_SYSTEM_BLOCK_SIZE =
      load m x CARD_SYSTEM_BLOCK_SIZE := by
  unfold keepCopy chooseCopy
  by_cases hp : ptr = 0
  · rw [if_pos hp]
    by_cases hlt : s16 (rd16be m (block₀ + counter)) - s16 (rd16be m (block₁ + counter)) < 0
    · rw [if_pos hlt]
      exact ByteMem.load_store_of_disjoint (by rwa [ByteMem.length_load])
    · rw [if_neg hlt]
      exact ByteMem.load_store_of_disjoint (by rwa [ByteMem.length_load])
  · rw [if_neg hp]

theorem VerifyDir_errors (s : Slot) : (VerifyDir s).1 =
    (if dirSumsMatch s.mem (dirBlock s.card.work_area 0) then 0 else 1) +
      (if dirSumsMatch s.mem (dirBlock s.card.work_area 1) then 0 else 1) := by
  unfold VerifyDir
  dsimp only
  generalize (if dirSumsMatch s.mem (dirBlock s.card.work_area 0) then 0 else 1) +
    (if dirSumsMatch s.mem (dirBlock s.card.work_area 1) then 0 else 1) = errors
  split
  · split <;> rfl
  · rfl

theorem VerifyFAT_errors (s : Slot) : (VerifyFAT s).1 =
    (if fatOk s.mem (fatBlock s.card.work_area 0) s.card.cblock then 0 else 1) +
      (if fatOk s.mem (fatBlock s.card.work_area 1) s.card.cblock then 0 else 1) := by
  unfold VerifyFAT
  dsimp only
  generalize (if fatOk s.mem (fatBlock s.card.work_area 0) s.card.cblock then 0 else 1) +
    (if fatOk s.mem (fatBlock s.card.work_area 1) s.card.cblock then 0 else 1) = errors
  split
  · split <;> rfl
  · rfl

/-- The tables lie behind the directories. -/
theorem dirBlock_le_fatBlock {i j : Nat} (hi : i < 2) (workArea : Nat) :
    dirBlock workArea i + CARD_SYSTEM_BLOCK_SIZE ≤ fatBlock workArea j := by
  unfold dirBlock fatBlock CARD_SYSTEM_BLOCK_SIZE
  omega

/-- The slot finds in its memory what a verification asks for. -/
structure Slot.Sound (s : Slot) : Prop where
  area : s.card.work_area ≠ 0
  sram : s.scb_locked = false
  blocks : 2 * u16 s.card.cblock ≤ CARD_SYSTEM_BLOCK_SIZE
  mem : Card.Sound s.mem s.card.work_area s.card.size_u16 s.card.cblock s.font_encode s.flashID

theorem Slot.Sound.id (h : s.Sound) : (VerifyID s).1 = CARD_RESULT_READY := by
  unfold VerifyID OSLockSramEx
  dsimp only
  rw [if_neg h.area, if_neg (by rw [h.mem.size.1, h.mem.size.2]; simp),
    if_neg (by rw [← h.mem.sums]; simp), if_neg (by rw [h.mem.font]; simp), if_neg (by rw [h.sram]; decide)]
  dsimp only
  rw [if_pos h.mem.serial]

/-- A verification that finds all it asks for finds no error. -/
theorem Slot.Sound.ready (h : s.Sound) : (cardVerify s).1 = CARD_RESULT_READY := by
  let t : Slot := { s with log := s.log ++ [.verify s.mem] }
  have ht : t.Sound := ⟨h.area, h.sram, h.blocks, h.mem⟩
  have hid : VerifyID { s with log := s.log ++ [.verify s.mem] } = (CARD_RESULT_READY, t) :=
    Prod.ext ht.id (VerifyID_snd t)
  have hdirs : (VerifyDir t).1 = 0 := by
    rw [VerifyDir_errors, ht.mem.dir 0 (by decide), ht.mem.dir 1 (by decide)]
    rfl
  obtain ⟨ptr, m, hkeep, hdir⟩ := VerifyDir_good hdirs
  have hblock : ∀ i, i < 2 → fatOk m (fatBlock t.card.work_area i) t.card.cblock = true := by
    intro i hi
    have hsame : load m (fatBlock t.card.work_area i) CARD_SYSTEM_BLOCK_SIZE =
        load t.mem (fatBlock t.card.work_area i) CARD_SYSTEM_BLOCK_SIZE := by
      rw [show m = _ from congrArg Prod.snd hkeep]
      exact keepCopy_load (.inr (dirBlock_le_fatBlock (by decide) _)) (.inr (dirBlock_le_fatBlock (by decide) _))
    rw [fatOk_congr hsame ht.blocks]
    exact ht.mem.fat i hi
  have hfats : (VerifyFAT (VerifyDir t).2).1 = 0 := by
    rw [VerifyFAT_errors, hdir]
    dsimp only
    rw [hblock 0 (by decide), hblock 1 (by decide)]
    rfl
  rw [cardVerify]
  dsimp only
  rw [hid]
  dsimp only
  rw [if_neg (by decide), hdirs, hfats]
  rfl

end Verify

section Load

variable {c : GcMemcard} {p : Mount} {s' v base : Slot} {sector workArea d e : Nat} {chan : Int} {ok : Bool}

/-- The system blocks of a card, one behind the other. -/
def systemBlocks (c : GcMemcard) (sector : Nat) : Nat → UInt8 := fun x =>
  c.data (sector * (x / CARD_SYSTEM_BLOCK_SIZE) + x % CARD_SYSTEM_BLOCK_SIZE)

/-- Memory with so many segments of the system blocks copied into a work area. -/
def loaded (c : GcMemcard) (sector workArea : Nat) (m : Nat → UInt8) (i : Nat) : Nat → UInt8 :=
  store m workArea (load (systemBlocks c sector) 0 (512 * i))

theorem loaded_succ : store (loaded c sector workArea m i)
    (workArea + CARD_SYSTEM_BLOCK_SIZE * (i / 16) + 512 * (i % 16))
    (load c.data (sector * (i / 16) + 512 * (i % 16)) 512) = loaded c sector workArea m (i + 1) := by
  have hsrc : load c.data (sector * (i / 16) + 512 * (i % 16)) 512 =
      load (systemBlocks c sector) (0 + 512 * i) 512 := by
    apply ByteMem.load_eq_iff.mpr
    intro j hj
    have hdiv : (0 + 512 * i + j) / CARD_SYSTEM_BLOCK_SIZE = i / 16 := by
      unfold CARD_SYSTEM_BLOCK_SIZE
      omega
    have hmod : (0 + 512 * i + j) % CARD_SYSTEM_BLOCK_SIZE = 512 * (i % 16) + j := by
      unfold CARD_SYSTEM_BLOCK_SIZE
      omega
    rw [systemBlocks, hdiv, hmod, Nat.add_assoc]
  have hdst : workArea + CARD_SYSTEM_BLOCK_SIZE * (i / 16) + 512 * (i % 16) = workArea + 512 * i := by
    unfold CARD_SYSTEM_BLOCK_SIZE
    omega
  rw [hsrc, hdst, loaded, loaded, Nat.mul_succ, ByteMem.load_add, ByteMem.store_append, ByteMem.length_load]

/-- The work area after the last segment. -/
theorem load_loaded : load (loaded c sector workArea m 80) workArea SYSTEM_BYTES =
    load (systemBlocks c sector) 0 SYSTEM_BYTES := by
  have h := ByteMem.load_store_self m workArea (load (systemBlocks c sector) 0 (512 * 80))
  rwa [ByteMem.length_load] at h

/-- A card that can be read to the end of its system blocks. -/
structure Readable (c : GcMemcard) (p : Mount) : Prop where
  inserted : c.inserted = true
  area : p.workArea ≠ 0
  sector : p.sector ≤ 2 ^ 18
  size : p.sector * 4 + CARD_SYSTEM_BLOCK_SIZE ≤ c.size

/-- What a mount keeps while it copies so many segments, with a latency too short for a
command. -/
structure Copies (c : GcMemcard) (base : Slot) (p : Mount) (s : Slot) (i : Nat) : Prop where
  hook : s.exi.dma_hook = some (gcMemcardExiDma c)
  probe : ∀ i, 0 < s.exi.probeex_ret i
  short : s.card.latency < 5
  mem : s.mem = loaded c p.sector p.workArea base.mem i
  size : s.card.size_u16 = base.card.size_u16
  cblock : s.card.cblock = base.card.cblock
  sram : s.scb_locked = base.scb_locked
  font : s.font_encode = base.font_encode
  serial : s.flashID = base.flashID

/-- A mount about to copy the next segment. -/
structure Loading (c : GcMemcard) (base : Slot) (p : Mount) (s : Slot) (i : Nat) : Prop
    extends Mounting p s i, Copies c base p s i

/-- Too few bytes for a command change no address. -/
theorem heard_short {addr : Nat} {dummies : List UInt8} (h : dummies.length < 5) (haddr : addr < 2 ^ 24) :
    heard addr dummies = addr := by
  have hnone : captured dummies = none := by
    unfold captured
    split
    · simp only [List.length_cons] at h
      omega
    · rfl
  rw [heard, hnone]
  exact Nat.mod_eq_of_lt haddr

/-- Every segment is copied. -/
theorem Loading.answer (h : Loading c base p s i) (hr : Readable c p) (hi : i < 80) :
    s.answer = (true, loaded c p.sector p.workArea base.mem (i + 1)) := by
  have haddr := h.toMounting.addr_lt hr.sector hi
  have hheard : heard s.card.addr s.dummies = s.card.addr := by
    apply heard_short
    · rw [Slot.dummies, ByteMem.length_load]
      exact h.short
    · omega
  have hblock : p.sector * (i / 16) ≤ p.sector * 4 := Nat.mul_le_mul_left _ (by omega)
  have hbuf : s.card.buffer ≠ 0 := by
    have harea := hr.area
    rw [h.buffer]
    omega
  have hin : s.card.addr + 512 ≤ c.size := by
    have hsize := hr.size
    rw [h.addr]
    unfold CARD_SYSTEM_BLOCK_SIZE at hsize
    omega
  rw [answer_image h.hook hr.inserted hbuf, hheard, if_pos hin, h.mem, h.buffer, h.addr, loaded_succ]

theorem Segment.copies (hs : Segment s s' ok) (h : Loading c base p s i) (hr : Readable c p) (hi : i < 80) :
    ok = true ∧ Copies c base p s'.probed.advanced (i + 1) := by
  have hans := hs.answer
  rw [h.answer hr hi] at hans
  refine ⟨congrArg Prod.fst hans, hs.hook.trans h.hook, ?_, ?_, congrArg Prod.snd hans,
    (hs.field (·.size_u16) fun _ => rfl).trans h.size, (hs.field (·.cblock) fun _ => rfl).trans h.cblock,
    ?_, ?_, ?_⟩
  · show ∀ i, 0 < s'.exi.probeex_ret i
    rw [hs.probe.1]
    exact h.probe
  · exact lt_of_eq_of_lt (hs.field (·.latency) fun _ => rfl) h.short
  · exact (congrArg (·.scb_locked) hs.rest).trans h.sram
  · exact (congrArg (·.font_encode) hs.rest).trans h.font
  · exact (congrArg (·.flashID) hs.rest).trans h.serial

/-- A segment and its completion, as the start of the next one or the end of the block. -/
theorem Loading.completes (h : Loading c base p s i) (hr : Readable c p) (hi : i < 80)
    (hchan : ¬ (chan < 0 ∨ 2 ≤ chan)) :
    ∃ u : Slot, Underway p u.advanced (i + 1) ∧ Copies c base p u.advanced (i + 1) ∧
      (u.card.repeats = (16 - i % 16 : Nat) ∧ u.card.mount_step = 2 + i / 16) ∧
      ((i + 1) % 16 ≠ 0 → Loading c base p u.advanced (i + 1)) ∧
      cardReadSegment (invoke (e + 4)) chan (some .blockRead) s =
        (BlockReadCallback (invoke (e + 2)) chan CARD_RESULT_READY u).map (CARD_RESULT_READY, ·) := by
  obtain ⟨s₁, ok, hseg, heq⟩ := cardReadSegment_eq (e + 3) .blockRead hchan h.attached h.free
  obtain ⟨rfl, hcopies⟩ := hseg.copies h hr hi
  have hprobe : s₁.probeResult = CARD_RESULT_READY := if_pos (hcopies.probe s₁.exi.probes)
  refine ⟨s₁.probed, hseg.underway h.toMounting hr.sector hi, hcopies, ⟨?_, ?_⟩, ?_, ?_⟩
  · exact (hseg.field (·.repeats) fun _ => rfl).trans h.repeats
  · exact (hseg.field (·.mount_step) fun _ => rfl).trans h.step
  · intro hmod
    exact ⟨hseg.mounting h.toMounting hr.sector hi hmod, hcopies⟩
  · rw [heq, if_pos rfl, hprobe]
    rfl

/-- From one segment to the next, whose result is that of both. -/
theorem Loading.advances (h : Loading c base p s i) (hr : Readable c p) (hi : i + 1 < 80)
    (hchan : ¬ (chan < 0 ∨ 2 ≤ chan)) (hd : 3 * (80 - i) + 1 ≤ d) :
    ∃ t e, Loading c base p t (i + 1) ∧ 3 * (80 - (i + 1)) + 1 ≤ e ∧
      ∀ s', cardReadSegment (invoke e) chan (some .blockRead) t = some (CARD_RESULT_READY, s') →
        cardReadSegment (invoke d) chan (some .blockRead) s = some (CARD_RESULT_READY, s') := by
  obtain ⟨e, rfl⟩ : ∃ e, d = e + 4 := ⟨d - 4, by omega⟩
  obtain ⟨u, hunder, hcopies, ⟨hrep, hstep⟩, hnext, heq⟩ := h.completes hr (by omega) hchan
  by_cases hmod : (i + 1) % 16 = 0
  · refine ⟨_, e + 1, ⟨hunder.block hmod hi hstep, ⟨hcopies.hook, hcopies.probe, hcopies.short, hcopies.mem,
      hcopies.size, hcopies.cblock, hcopies.sram, hcopies.font, hcopies.serial⟩⟩, by omega, ?_⟩
    intro s' hrun
    have hstep' : u.advanced.card.mount_step = 2 + i / 16 := hstep
    rw [heq, BlockReadCallback_last (by omega), blockReadEnd_mount hunder.api hunder.xfer,
      cardMountCallback_reads hchan hunder.attached (by omega) (by omega) hrun]
    rfl
  · refine ⟨u.advanced, e + 2, hnext hmod, by omega, ?_⟩
    intro s' hrun
    rw [heq, BlockReadCallback_next (by omega), hrun]
    rfl

/-- What the verification of a copied card reports. -/
def Reports (c : GcMemcard) (base : Slot) (p : Mount) (s' : Slot) : Prop :=
  ∃ v ev, Copies c base p v 80 ∧ v.card.work_area = p.workArea ∧
    s'.log = p.log ++ ev ++ [.verify v.mem, .callback p.attach (cardVerify v).1]

/-- The last segment is followed by the verification. -/
theorem Loading.last (h : Loading c base p s 79) (hr : Readable c p) (hchan : ¬ (chan < 0 ∨ 2 ≤ chan))
    (hext : External p.attach) (hd : 4 ≤ d) :
    ∃ s', cardReadSegment (invoke d) chan (some .blockRead) s = some (CARD_RESULT_READY, s') ∧
      Reports c base p s' := by
  obtain ⟨e, rfl⟩ : ∃ e, d = e + 4 := ⟨d - 4, by omega⟩
  obtain ⟨u, hunder, hcopies, ⟨hrep, hstep⟩, _, heq⟩ := h.completes hr (by omega) hchan
  let v : Slot := { u.advanced with
    card.xfer_callback := none, card.mount_step := u.advanced.card.mount_step + 1 }
  obtain ⟨_, hlog, hapi, _⟩ := cardVerify_spec v
  obtain ⟨ev, hev, _⟩ := hunder.log
  obtain ⟨s', hend, _, _, hlog', _⟩ :=
    @mountEnd_eq p (cardVerify v).2 e (cardVerify v).1 chan hext (hapi.trans hunder.api)
  refine ⟨s', ?_, v, ev, ⟨hcopies.hook, hcopies.probe, hcopies.short, hcopies.mem, hcopies.size, hcopies.cblock,
    hcopies.sram, hcopies.font, hcopies.serial⟩, hunder.area, ?_⟩
  · have hlast : ¬ u.advanced.card.mount_step + 1 < CARD_MAX_MOUNT_STEP := by
      have hsix : u.advanced.card.mount_step = 6 := hstep
      rw [hsix]
      decide
    have hcall : cardMountCallback (invoke (e + 1)) chan CARD_RESULT_READY
        { u.advanced with card.xfer_callback := none } = some s' := by
      rw [cardMountCallback, if_pos rfl]
      dsimp only
      rw [if_neg hlast]
      exact hend
    rw [heq, BlockReadCallback_last (by omega), blockReadEnd_mount hunder.api hunder.xfer, hcall]
    rfl
  · have hv : v.log = p.log ++ ev := hev
    rw [hlog', hlog, hv]
    simp

/-- All segments are copied, whatever is in the way. -/
theorem Loading.run (h : Loading c base p s i) (hr : Readable c p) (hchan : ¬ (chan < 0 ∨ 2 ≤ chan))
    (hext : External p.attach) (hi : i < 80) (hd : 3 * (80 - i) + 1 ≤ d) :
    ∃ s', cardReadSegment (invoke d) chan (some .blockRead) s = some (CARD_RESULT_READY, s') ∧
      Reports c base p s' := by
  induction hk : 79 - i generalizing s i d with
  | zero =>
    obtain rfl : i = 79 := by omega
    exact h.last hr hchan hext (by omega)
  | succ k ih =>
    obtain ⟨t, e, ht, he, hrun⟩ := h.advances hr (by omega) hchan hd
    obtain ⟨s', hs', hrep⟩ := ih ht (by omega) he (by omega)
    exact ⟨s', hrun s' hs', hrep⟩

/-- Sound blocks on the card are sound in the work area. -/
theorem Copies.sound (h : Copies c base p v 80) (harea : v.card.work_area = p.workArea) (hr : Readable c p)
    (hsram : base.scb_locked = false) (hblocks : 2 * u16 base.card.cblock ≤ CARD_SYSTEM_BLOCK_SIZE)
    (hs : Card.Sound (systemBlocks c p.sector) 0 base.card.size_u16 base.card.cblock base.font_encode
      base.flashID) : v.Sound := by
  constructor
  · rw [harea]
    exact hr.area
  · exact h.sram.trans hsram
  · rwa [h.cblock]
  · rw [h.mem, harea, h.size, h.cblock, h.font, h.serial]
    exact hs.congr load_loaded hblocks

end Load

section Image

variable {c : GcMemcard} {workArea : Nat} {chan : Int}

/-- A slot that a mount can begin on, with a card whose system blocks are sound. -/
structure Loadable (c : GcMemcard) (workArea : Nat) (s : Slot) : Prop extends Mountable s where
  area : workArea ≠ 0
  room : s.card.attached = true ∨ s.exi.attached = false ∧ s.exi.attach_ok = true
  told : s.exi.getid_ok = true
  id : IsCard s.exi.id = true
  checksum : s.flashIDCheckSum = flashSum s.flashID
  hook : s.exi.dma_hook = some (gcMemcardExiDma c)
  probe : ∀ i, 0 < s.exi.probeex_ret i
  inserted : c.inserted = true
  size : idSectorSize s.exi.id * 4 + CARD_SYSTEM_BLOCK_SIZE ≤ c.size
  short : (identified s.exi.id s.card).latency < 5
  blocks : 2 * u16 (identified s.exi.id s.card).cblock ≤ CARD_SYSTEM_BLOCK_SIZE
  sound : Card.Sound (systemBlocks c (idSectorSize s.exi.id)) 0 (identified s.exi.id s.card).size_u16
    (identified s.exi.id s.card).cblock s.font_encode s.flashID

/-- The mount of a sound card succeeds: its user is told so, after a verification of the
system blocks of the card. -/
theorem Loadable.mount (h : Loadable c workArea s) (detach : Option Callback) (attach : Option Nat)
    (hchan : ¬ (chan < 0 ∨ 2 ≤ chan)) :
    ∃ s' ev m, CARDMountAsync chan workArea detach (attach.map .user) s = some (CARD_RESULT_READY, s') ∧
      s'.log = s.log ++ ev ++ [.verify m, .callback (attachCallback attach) CARD_RESULT_READY] ∧
      load m workArea SYSTEM_BYTES = load (systemBlocks c (idSectorSize s.exi.id)) 0 SYSTEM_BYTES := by
  obtain ⟨attached, henter⟩ :=
    cardMountAsync_enters workArea detach (attach.map .user) hchan h.toMountable h.room
  let e : Slot := s.entered workArea detach (attach.map .user) attached
  have hget : EXIGetID e.exi = some s.exi.id := if_pos h.told
  have hid := @mountIdentify_next e chan s.exi.id rfl h.free.2 hget h.id (h.probe _) h.unlocked h.sram
    h.checksum
  have hprep := mountPrepare_next rfl hid rfl h.free.2 h.id rfl
  have hapi : e.card.api_callback = some (attachCallback attach) := by cases attach <;> rfl
  let t : Slot := { e.identified s.exi.id with
    card.mount_step := 2, scb_locked := false
    exi.dev := 0, exi.imm := packImm [0x81, 0x01], exi.locked := false }
  have hmount : Mounting (e.begun attach) t.blockStart 0 := .first rfl hapi rfl ⟨rfl, h.free.2⟩ rfl
  have hmem : t.mem = loaded c (idSectorSize s.exi.id) workArea t.mem 0 := (ByteMem.store_nil _ _).symm
  have hload : Loading c t.blockStart (e.begun attach) t.blockStart 0 :=
    ⟨hmount, h.hook, h.probe, h.short, hmem, rfl, rfl, rfl, rfl, rfl⟩
  have hread : Readable c (e.begun attach) := ⟨h.inserted, h.area, idSectorSize_le _, h.size⟩
  obtain ⟨s', hrun, v, ev, hcopies, harea, hlog⟩ :=
    hload.run hread hchan (attachCallback_external attach) (by decide) (d := stackDepth) (by decide)
  have hready := (hcopies.sound harea hread rfl h.blocks h.sound).ready
  refine ⟨s', ev, v.mem, ?_, ?_, ?_⟩
  · rw [henter, DoMount_next hchan rfl hprep]
    exact congrArg _ hrun
  · rw [hlog, hready]
    rfl
  · rw [hcopies.mem]
    exact load_loaded

end Image

end SdkPort.Card
