import SdkPort.Card.CardRead
import SdkPort.Card.FatTable

/-!
# The newer of two copies

An update adds one to the counter of a copy, modulo 2^16. A verification compares the
counters as signed numbers, so between the two ends of the signed range it takes the older
copy for the newer one.
-/
namespace SdkPort.Card

open ByteMem (load store)
open Gc (u32)

variable {m m' : Nat → UInt8} {a b k n : Nat} {s : Slot}

/-- Valid copies, the second one written after the first, by the next update. -/
structure Successive (ok : Nat → Bool) (m : Nat → UInt8) (counter old new : Nat) : Prop where
  old_ok : ok old = true
  new_ok : ok new = true
  next : rd16be m (new + counter) = u16 (rd16be m (old + counter) + 1)

/-- The newer copy stays and takes the place of the older one. -/
def KeepsNewer (m m' : Nat → UInt8) (old new : Nat) : Prop :=
  load m' new CARD_SYSTEM_BLOCK_SIZE = load m new CARD_SYSTEM_BLOCK_SIZE ∧
    load m' old CARD_SYSTEM_BLOCK_SIZE = load m new CARD_SYSTEM_BLOCK_SIZE

section Counters

theorem rd16be_lt (m : Nat → UInt8) (a : Nat) : rd16be m a < 2 ^ 16 := by
  have h0 := (m a).toNat_lt
  have h1 := (m (a + 1)).toNat_lt
  rw [rd16be]
  omega

/-- The successor is larger, but for the largest signed number. -/
theorem s16_succ_lt {c : Nat} (hc : c < 2 ^ 16) : s16 c - s16 (u16 (c + 1)) < 0 ↔ c ≠ 0x7FFF := by
  unfold s16 u16
  split <;> split <;> omega

theorem s16_lt_succ {c : Nat} (hc : c < 2 ^ 16) : s16 (u16 (c + 1)) - s16 c < 0 ↔ c = 0x7FFF := by
  unfold s16 u16
  split <;> split <;> omega

/-- An update of a table is followed by the next counter. -/
theorem Table.update_next {c : Control} {g : Nat → Nat} (h : Table c g) :
    rd16be (portCARDUpdateFatBlock c).2.mem.byte (c.fatAddr + fatCounter) =
      u16 (rd16be c.mem.byte (c.fatAddr + fatCounter) + 1) := by
  have h₁ := h.set (i := PORT_CARD_FAT_CHECKCODE) (v := u16 (fatGet c PORT_CARD_FAT_CHECKCODE + 1))
    (by decide) (Nat.mod_lt _ (by decide))
  obtain ⟨hlt, hlt'⟩ := portCARDCheckSum_lt
    (fatSet c PORT_CARD_FAT_CHECKCODE (u16 (fatGet c PORT_CARD_FAT_CHECKCODE + 1))).mem
    (u32 (c.fatAddr + PORT_CARD_FAT_CHECKCODE * 2)) 0x1FFC
  have h₃ := (h₁.set (i := PORT_CARD_FAT_CHECKSUM) (by decide) hlt).set (i := PORT_CARD_FAT_CHECKSUMINV)
    (by decide) hlt'
  have hnew := h₃.rd16be_eq (i := PORT_CARD_FAT_CHECKCODE) (by decide)
  rw [Function.update_of_ne (by decide), Function.update_of_ne (by decide), Function.update_self] at hnew
  have hold : fatGet c PORT_CARD_FAT_CHECKCODE = rd16be c.mem.byte (c.fatAddr + fatCounter) :=
    (h.eq _ (by decide)).trans (h.rd16be_eq (i := PORT_CARD_FAT_CHECKCODE) (by decide)).symm
  exact hnew.trans (congrArg (fun c => u16 (c + 1)) hold)

end Counters

section Copies

/-- Equal copies have equal counters. -/
theorem rd16be_congr (h : load m' b n = load m a n) (hk : k + 1 < n) : rd16be m' (b + k) = rd16be m (a + k) := by
  have h0 := ByteMem.load_eq_iff.mp h k (by omega)
  have h1 := ByteMem.load_eq_iff.mp h (k + 1) hk
  rw [← Nat.add_assoc, ← Nat.add_assoc] at h1
  rw [rd16be, rd16be, h0, h1]

/-- A block copied onto another one, beside it. -/
theorem copy_loads (hab : a + n ≤ b ∨ b + n ≤ a) :
    load (store m a (load m b n)) a n = load m b n ∧ load (store m a (load m b n)) b n = load m b n := by
  constructor
  · have h := ByteMem.load_store_self m a (load m b n)
    rwa [ByteMem.length_load] at h
  · apply ByteMem.load_store_of_disjoint
    rw [ByteMem.length_load]
    exact hab.symm

/-- Both blocks end up with what the comparison takes for the newer copy. -/
theorem chooseCopy_loads (hab : a + CARD_SYSTEM_BLOCK_SIZE ≤ b) : ∃ src,
    (s16 (rd16be m (a + k)) - s16 (rd16be m (b + k)) < 0 ∧ src = b ∨
      ¬ s16 (rd16be m (a + k)) - s16 (rd16be m (b + k)) < 0 ∧ src = a) ∧
    load (chooseCopy m a b k).2 a CARD_SYSTEM_BLOCK_SIZE = load m src CARD_SYSTEM_BLOCK_SIZE ∧
    load (chooseCopy m a b k).2 b CARD_SYSTEM_BLOCK_SIZE = load m src CARD_SYSTEM_BLOCK_SIZE := by
  by_cases hlt : s16 (rd16be m (a + k)) - s16 (rd16be m (b + k)) < 0
  · refine ⟨b, .inl ⟨hlt, rfl⟩, ?_⟩
    rw [chooseCopy, if_pos hlt]
    exact copy_loads (.inl hab)
  · refine ⟨a, .inr ⟨hlt, rfl⟩, ?_⟩
    rw [chooseCopy, if_neg hlt]
    exact (copy_loads (.inr hab)).symm

/-- Copies one update apart are told apart, but for one counter. -/
theorem keepsNewer_iff {ok : Nat → Bool} {src old new : Nat} (h : Successive ok m k old new)
    (hk : k + 1 < CARD_SYSTEM_BLOCK_SIZE) (hsrc : src = new ∧ rd16be m (old + k) ≠ 0x7FFF ∨
      src = old ∧ rd16be m (old + k) = 0x7FFF)
    (hold : load m' old CARD_SYSTEM_BLOCK_SIZE = load m src CARD_SYSTEM_BLOCK_SIZE)
    (hnew : load m' new CARD_SYSTEM_BLOCK_SIZE = load m src CARD_SYSTEM_BLOCK_SIZE) :
    KeepsNewer m m' old new ↔ rd16be m (old + k) ≠ 0x7FFF := by
  obtain ⟨rfl, hc⟩ | ⟨rfl, hc⟩ := hsrc
  · exact ⟨fun _ => hc, fun _ => ⟨hnew, hold⟩⟩
  · constructor
    · intro hkeep
      have hcount := rd16be_congr (hkeep.1.symm.trans hnew) hk
      rw [h.next, hc] at hcount
      cases hcount
    · intro hne
      exact absurd hc hne

/-- The choice between two copies one update apart, in either position. -/
theorem chooseCopy_newer {ok : Nat → Bool} {block : Nat → Nat} {i : Nat} (hi : i < 2)
    (hblock : block 0 + CARD_SYSTEM_BLOCK_SIZE ≤ block 1) (hk : k + 1 < CARD_SYSTEM_BLOCK_SIZE)
    (h : Successive ok m k (block i) (block (1 - i))) :
    KeepsNewer m (chooseCopy m (block 0) (block 1) k).2 (block i) (block (1 - i)) ↔
      rd16be m (block i + k) ≠ 0x7FFF := by
  obtain ⟨src, hsrc, h0, h1⟩ := @chooseCopy_loads m (block 0) (block 1) k hblock
  have hc := rd16be_lt m (block i + k)
  have hnext := h.next
  obtain rfl | rfl : i = 0 ∨ i = 1 := by omega
  · rw [hnext, s16_succ_lt hc] at hsrc
    apply keepsNewer_iff h hk _ h0 h1
    obtain ⟨hne, rfl⟩ | ⟨heq, rfl⟩ := hsrc
    · exact .inl ⟨rfl, hne⟩
    · exact .inr ⟨rfl, not_not.mp heq⟩
  · rw [hnext, s16_lt_succ hc] at hsrc
    apply keepsNewer_iff h hk _ h1 h0
    obtain ⟨heq, rfl⟩ | ⟨hne, rfl⟩ := hsrc
    · exact .inr ⟨rfl, heq⟩
    · exact .inl ⟨rfl, hne⟩

end Copies

section Verify

theorem VerifyDir_chooses (hptr : s.card.current_dir_ptr = 0)
    (h0 : dirSumsMatch s.mem (dirBlock s.card.work_area 0) = true)
    (h1 : dirSumsMatch s.mem (dirBlock s.card.work_area 1) = true) :
    (VerifyDir s).2.mem =
      (chooseCopy s.mem (dirBlock s.card.work_area 0) (dirBlock s.card.work_area 1) dirCounter).2 := by
  simp only [VerifyDir, h0, h1, hptr]
  rfl

theorem VerifyFAT_chooses (hptr : s.card.current_fat_ptr = 0)
    (h0 : fatOk s.mem (fatBlock s.card.work_area 0) s.card.cblock = true)
    (h1 : fatOk s.mem (fatBlock s.card.work_area 1) s.card.cblock = true) :
    (VerifyFAT s).2.mem =
      (chooseCopy s.mem (fatBlock s.card.work_area 0) (fatBlock s.card.work_area 1) fatCounter).2 := by
  simp only [VerifyFAT, h0, h1, hptr]
  rfl

/-- What holds of the older and the newer copy holds of both positions. -/
theorem both_positions {ok : Nat → Prop} {i : Nat} (hi : i < 2) (ho : ok i) (hn : ok (1 - i)) : ok 0 ∧ ok 1 := by
  obtain rfl | rfl : i = 0 ∨ i = 1 := by omega
  · exact ⟨ho, hn⟩
  · exact ⟨hn, ho⟩

end Verify

/-- With no current copy selected, the newer copy wins exactly if the counter of the older
one is not the largest signed number: in the directory and in the file allocation table. -/
theorem verify_newer {i : Nat} (hi : i < 2) :
    (s.card.current_dir_ptr = 0 →
      Successive (dirSumsMatch s.mem) s.mem dirCounter (dirBlock s.card.work_area i)
        (dirBlock s.card.work_area (1 - i)) →
      (KeepsNewer s.mem (VerifyDir s).2.mem (dirBlock s.card.work_area i) (dirBlock s.card.work_area (1 - i)) ↔
        rd16be s.mem (dirBlock s.card.work_area i + dirCounter) ≠ 0x7FFF)) ∧
    (s.card.current_fat_ptr = 0 →
      Successive (fatOk s.mem · s.card.cblock) s.mem fatCounter (fatBlock s.card.work_area i)
        (fatBlock s.card.work_area (1 - i)) →
      (KeepsNewer s.mem (VerifyFAT s).2.mem (fatBlock s.card.work_area i) (fatBlock s.card.work_area (1 - i)) ↔
        rd16be s.mem (fatBlock s.card.work_area i + fatCounter) ≠ 0x7FFF)) := by
  constructor
  · intro hptr h
    obtain ⟨h0, h1⟩ := @both_positions (fun j => dirSumsMatch s.mem (dirBlock s.card.work_area j) = true) i hi
      h.old_ok h.new_ok
    rw [VerifyDir_chooses hptr h0 h1]
    exact @chooseCopy_newer s.mem dirCounter _ (dirBlock s.card.work_area) i hi
      (by simp only [dirBlock]; omega) (by decide) h
  · intro hptr h
    obtain ⟨h0, h1⟩ := @both_positions
      (fun j => fatOk s.mem (fatBlock s.card.work_area j) s.card.cblock = true) i hi h.old_ok h.new_ok
    rw [VerifyFAT_chooses hptr h0 h1]
    exact @chooseCopy_newer s.mem fatCounter _ (fatBlock s.card.work_area) i hi
      (by simp only [fatBlock]; omega) (by decide) h

section Trial

/-- The words at both ends of a valid copy with a counter: a directory without files, and a
table with all data blocks of a card of 64 blocks free. -/
def trialWord (fat : Bool) (c k : Nat) : Nat :=
  if fat then [u16 (c + 59), u16 (2 ^ 16 + 0xF002 - c - 59), c, 59].getD k 0
  else if k < 4093 then 0
  else [c, c, u16 (2 ^ 16 + 0xF002 - c)].getD (k - 4093) 0

/-- Two copies of each kind, with these counters. -/
def trialCopies (c₀ c₁ : Nat) : Nat → UInt8 := fun x =>
  if 8 ≤ x % 8192 ∧ x % 8192 < 8186 then 0
  else
    let block := x / 8192 - 8
    let w := trialWord (2 < block) (if block % 2 = 1 then c₀ else c₁) (x % 8192 / 2)
    UInt8.ofNat (if x % 2 = 0 then w / 2 ^ 8 else w)

def trialVerify (c₀ c₁ : Nat) : Slot := { trialSlot 0 with mem := trialCopies c₀ c₁ }

theorem trialVerify_dir : Successive (dirSumsMatch (trialCopies 5 6)) (trialCopies 5 6) dirCounter
    (dirBlock 0x10000 0) (dirBlock 0x10000 1) :=
  ⟨by decide +kernel, by decide +kernel, by decide +kernel⟩

theorem trialVerify_fat : Successive (fatOk (trialCopies 5 6) · 64) (trialCopies 5 6) fatCounter
    (fatBlock 0x10000 0) (fatBlock 0x10000 1) :=
  ⟨by decide +kernel, by decide +kernel, by decide +kernel⟩

theorem trialVerify_last : Successive (fatOk (trialCopies 0x7FFF 0x8000) · 64) (trialCopies 0x7FFF 0x8000)
    fatCounter (fatBlock 0x10000 0) (fatBlock 0x10000 1) :=
  ⟨by decide +kernel, by decide +kernel, by decide +kernel⟩

/-- The sixth update is kept. -/
theorem trialVerify_newer :
    KeepsNewer (trialCopies 5 6) (VerifyDir (trialVerify 5 6)).2.mem (dirBlock 0x10000 0) (dirBlock 0x10000 1) ∧
    KeepsNewer (trialCopies 5 6) (VerifyFAT (trialVerify 5 6)).2.mem (fatBlock 0x10000 0)
      (fatBlock 0x10000 1) := by
  obtain ⟨hdir, hfat⟩ := @verify_newer (trialVerify 5 6) 0 (by decide)
  exact ⟨(hdir rfl trialVerify_dir).mpr (by decide +kernel), (hfat rfl trialVerify_fat).mpr (by decide +kernel)⟩

/-- The update behind the largest signed counter is lost. -/
theorem trialVerify_older : (trialVerify 0x7FFF 0x8000).card.current_fat_ptr = 0 ∧
    Successive (fatOk (trialCopies 0x7FFF 0x8000) · 64) (trialCopies 0x7FFF 0x8000) fatCounter
      (fatBlock 0x10000 0) (fatBlock 0x10000 1) ∧
    ¬ KeepsNewer (trialCopies 0x7FFF 0x8000) (VerifyFAT (trialVerify 0x7FFF 0x8000)).2.mem
      (fatBlock 0x10000 0) (fatBlock 0x10000 1) := by
  refine ⟨rfl, trialVerify_last, ?_⟩
  have h := trialVerify_last
  rw [VerifyFAT_chooses (s := trialVerify 0x7FFF 0x8000) rfl h.old_ok h.new_ok]
  intro hkeep
  exact (@chooseCopy_newer (trialCopies 0x7FFF 0x8000) fatCounter _ (fatBlock 0x10000) 0 (by decide) (by decide)
    (by decide) h).mp hkeep (by decide +kernel)

end Trial

end SdkPort.Card
