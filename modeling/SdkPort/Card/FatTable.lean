import SdkPort.Card.CardCheck
import SdkPort.Lib.Chains

/-!
# The table as a function

The words of a table of a card that is there: a store changes one word. After an update
the sums and the counter of free blocks are those a later check computes.
-/
namespace SdkPort.Card

open Function (update update_self update_of_ne)
open Gc (GcMem u32)

/-- The words of the table of a control block. -/
structure Table (s : Control) (g : Nat → Nat) : Prop where
  fits : s.fatAddr + PORT_CARD_FAT_ENTRIES * 2 ≤ 2 ^ 32
  maps : s.mem.Maps s.fatAddr (s.fatAddr + PORT_CARD_FAT_ENTRIES * 2)
  eq : ∀ i, i < PORT_CARD_FAT_ENTRIES → fatGet s i = g i

variable {m : GcMem} {s : Control} {g : Nat → Nat} {a b i n v : Nat}

theorem ptr16_eq (h : m.Maps a (a + 2)) : m.ptr a 2 = some (a - m.base) := GcMem.ptr_of_maps h

theorem loadU16_eq (h : m.Maps a (a + 2)) :
    loadU16 m a = (m.byte a).toNat * 2 ^ 8 + (m.byte (a + 1)).toNat := by
  have hb := h.1
  rw [loadU16, ptr16_eq h]
  simp only [GcMem.byte]
  rw [show a + 1 - m.base = a - m.base + 1 by omega]

theorem loadU16_lt (m : GcMem) (a : Nat) : loadU16 m a < 2 ^ 16 := by
  unfold loadU16
  split
  · omega
  · rename_i p _
    have h₁ := (m.buf p).toNat_lt
    have h₂ := (m.buf (p + 1)).toNat_lt
    omega

theorem fatGet_lt (s : Control) (i : Nat) : fatGet s i < 2 ^ 16 := loadU16_lt _ _

theorem storeU16_base (m : GcMem) (a v : Nat) : (storeU16 m a v).base = m.base := by
  unfold storeU16
  split <;> rfl

theorem storeU16_size (m : GcMem) (a v : Nat) : (storeU16 m a v).size = m.size := by
  unfold storeU16
  split <;> rfl

theorem maps_storeU16 {lo hi : Nat} : (storeU16 m a v).Maps lo hi ↔ m.Maps lo hi := by
  rw [GcMem.Maps, GcMem.Maps, storeU16_base, storeU16_size]

theorem loadU16_storeU16_self (h : m.Maps a (a + 2)) (hv : v < 2 ^ 16) :
    loadU16 (storeU16 m a v) a = v := by
  have hp := ptr16_eq h
  have hp' : (storeU16 m a v).ptr a 2 = some (a - m.base) := by
    rw [ptr16_eq (maps_storeU16.mpr h), storeU16_base]
  rw [loadU16, hp']
  simp only [storeU16, hp]
  simp
  omega

theorem loadU16_storeU16_other (h : m.Maps a (a + 2)) (hb : m.Maps b (b + 2)) (hab : b + 2 ≤ a ∨ a + 2 ≤ b) :
    loadU16 (storeU16 m a v) b = loadU16 m b := by
  have hp := ptr16_eq h
  have hm := hb.1
  have hm' := h.1
  rw [loadU16, loadU16, ptr16_eq (maps_storeU16.mpr hb), storeU16_base, ptr16_eq hb]
  simp only [storeU16, hp]
  rw [if_neg (by omega), if_neg (by omega), if_neg (by omega), if_neg (by omega)]

namespace Table

theorem addr (h : Table s g) (hi : i < PORT_CARD_FAT_ENTRIES) :
    u32 (s.fatAddr + i * 2) = s.fatAddr + i * 2 := by
  have hf := h.fits
  unfold PORT_CARD_FAT_ENTRIES at hi hf
  exact Nat.mod_eq_of_lt (by omega)

theorem maps_word (h : Table s g) (hi : i < PORT_CARD_FAT_ENTRIES) :
    s.mem.Maps (s.fatAddr + i * 2) (s.fatAddr + i * 2 + 2) := by
  obtain ⟨h₁, h₂⟩ := h.maps
  exact ⟨by omega, by omega⟩

/-- A word is written. -/
theorem set (h : Table s g) (hi : i < PORT_CARD_FAT_ENTRIES) (hv : v < 2 ^ 16) :
    Table (fatSet s i v) (update g i v) := by
  have ha := h.addr hi
  refine ⟨h.fits, maps_storeU16.mpr h.maps, fun j hj => ?_⟩
  have hj' := h.addr hj
  simp only [fatGet, fatSet]
  rw [ha, hj']
  by_cases hji : j = i
  · subst hji
    rw [update_self]
    exact loadU16_storeU16_self (h.maps_word hj) hv
  · rw [update_of_ne hji, ← h.eq j hj, fatGet, hj']
    exact loadU16_storeU16_other (h.maps_word hi) (h.maps_word hj) (by omega)

/-- The words as a check reads them. -/
theorem rd16be_eq (h : Table s g) (hi : i < PORT_CARD_FAT_ENTRIES) :
    rd16be s.mem.byte (s.fatAddr + i * 2) = g i := by
  rw [← h.eq i hi, fatGet, h.addr hi, loadU16_eq (h.maps_word hi)]
  rfl

end Table

/-- The check adds up what the allocator added up. -/
theorem cardSumUpTo_eq (h : Table s g) (hn : n ≤ 4094) :
    cardSumUpTo s.mem.byte (s.fatAddr + CARD_FAT_CHECKCODE * 2) n =
      checkSumUpTo s.mem (u32 (s.fatAddr + PORT_CARD_FAT_CHECKCODE * 2)) n := by
  induction n with
  | zero => rfl
  | succ n ih =>
    have hf := h.fits
    have hi : n + 2 < PORT_CARD_FAT_ENTRIES := by
      unfold PORT_CARD_FAT_ENTRIES
      omega
    have hv : rd16be s.mem.byte (s.fatAddr + CARD_FAT_CHECKCODE * 2 + n * 2) = fatGet s (n + 2) := by
      rw [h.eq _ hi, ← h.rd16be_eq hi, CARD_FAT_CHECKCODE]
      congr 1
      omega
    have ha : u32 (u32 (s.fatAddr + PORT_CARD_FAT_CHECKCODE * 2) + n * 2) = u32 (s.fatAddr + (n + 2) * 2) := by
      simp only [u32, PORT_CARD_FAT_CHECKCODE]
      omega
    have hlt := fatGet_lt s (n + 2)
    rw [cardSumUpTo, checkSumUpTo, ih (by omega), hv, ha, ← fatGet]
    simp only [Prod.mk.injEq, true_and, u16]
    omega

/-- The sums do not look at the words in front of the counter. -/
theorem checkSumUpTo_congr {s' : Control} {g' : Nat → Nat} (h : Table s g) (h' : Table s' g')
    (hg : ∀ i, 2 ≤ i → g' i = g i) (hn : n ≤ 4094) :
    checkSumUpTo s'.mem (u32 (s'.fatAddr + PORT_CARD_FAT_CHECKCODE * 2)) n =
      checkSumUpTo s.mem (u32 (s.fatAddr + PORT_CARD_FAT_CHECKCODE * 2)) n := by
  induction n with
  | zero => rfl
  | succ n ih =>
    have hi : n + 2 < PORT_CARD_FAT_ENTRIES := by
      unfold PORT_CARD_FAT_ENTRIES
      omega
    have ha : u32 (u32 (s.fatAddr + PORT_CARD_FAT_CHECKCODE * 2) + n * 2) = u32 (s.fatAddr + (n + 2) * 2) := by
      simp only [u32, PORT_CARD_FAT_CHECKCODE]
      omega
    have ha' : u32 (u32 (s'.fatAddr + PORT_CARD_FAT_CHECKCODE * 2) + n * 2) =
        u32 (s'.fatAddr + (n + 2) * 2) := by
      simp only [u32, PORT_CARD_FAT_CHECKCODE]
      omega
    have hv : fatGet s' (n + 2) = fatGet s (n + 2) := by
      rw [h.eq _ hi, h'.eq _ hi, hg _ (by omega)]
    rw [checkSumUpTo, checkSumUpTo, ih (by omega), ha, ha', ← fatGet, ← fatGet, hv]

/-- The sums a check of a table computes are those of any table with the same words. -/
theorem cardChecksumU16be_eq {s' : Control} {g' : Nat → Nat} (h : Table s g) (h' : Table s' g')
    (hg : ∀ i, 2 ≤ i → g' i = g i) :
    cardChecksumU16be s'.mem.byte (s'.fatAddr + CARD_FAT_CHECKCODE * 2) (CARD_SYSTEM_BLOCK_SIZE - 4) =
      portCARDCheckSum s.mem (u32 (s.fatAddr + PORT_CARD_FAT_CHECKCODE * 2)) 0x1FFC := by
  have hn : (CARD_SYSTEM_BLOCK_SIZE - 4) / 2 = 0x1FFC / 2 := by decide
  have hle : 0x1FFC / 2 ≤ 4094 := by decide
  unfold cardChecksumU16be portCARDCheckSum
  rw [hn, cardSumUpTo_eq h' hle, checkSumUpTo_congr h h' hg hle]

theorem checkSumUpTo_lt (m : GcMem) (a n : Nat) :
    (checkSumUpTo m a n).1 < 2 ^ 16 ∧ (checkSumUpTo m a n).2 < 2 ^ 16 := by
  cases n with
  | zero => simp [checkSumUpTo]
  | succ n =>
    rw [checkSumUpTo]
    simp only [u16]
    omega

/-- The number of free words among the data blocks. -/
def freeCount (g : Nat → Nat) (cBlock : Nat) : Nat :=
  (List.range' PORT_CARD_NUM_SYSTEM_BLOCK (cBlock - PORT_CARD_NUM_SYSTEM_BLOCK)).countP fun i => g i = 0

theorem freeCount_le (g : Nat → Nat) (n : Nat) : freeCount g n ≤ n - PORT_CARD_NUM_SYSTEM_BLOCK := by
  have h := List.countP_le_length (p := fun i => decide (g i = 0))
    (l := List.range' PORT_CARD_NUM_SYSTEM_BLOCK (n - PORT_CARD_NUM_SYSTEM_BLOCK))
  rwa [List.length_range'] at h

theorem freeCount_succ (g : Nat → Nat) (n : Nat) :
    freeCount g (n + 1) = freeCount g n + if PORT_CARD_NUM_SYSTEM_BLOCK ≤ n ∧ g n = 0 then 1 else 0 := by
  unfold freeCount PORT_CARD_NUM_SYSTEM_BLOCK
  by_cases hn : 5 ≤ n
  · rw [show n + 1 - 5 = n - 5 + 1 by omega, List.range'_concat, List.countP_append]
    rw [show 5 + 1 * (n - 5) = n by omega]
    simp [hn, List.countP_cons]
  · rw [show n + 1 - 5 = n - 5 by omega]
    simp [hn]

/-- The check counts the free words. -/
theorem countFree_eq (h : Table s g) (hn : n ≤ PORT_CARD_FAT_ENTRIES) :
    countFree s.mem.byte s.fatAddr n = freeCount g n := by
  induction n with
  | zero => rfl
  | succ n ih =>
    have hle := freeCount_le g n
    unfold PORT_CARD_FAT_ENTRIES at hn
    rw [countFree, ih (by unfold PORT_CARD_FAT_ENTRIES; omega), freeCount_succ,
      h.rd16be_eq (by unfold PORT_CARD_FAT_ENTRIES; omega)]
    by_cases hc : CARD_NUM_SYSTEM_BLOCK ≤ n ∧ g n = CARD_FAT_AVAIL
    · rw [if_pos hc, if_pos (by exact hc)]
      unfold PORT_CARD_NUM_SYSTEM_BLOCK at hle
      exact Nat.mod_eq_of_lt (by omega)
    · rw [if_neg hc, if_neg (by exact hc)]
      rfl

/-- The table passes the tests a later check makes, for as many blocks as the card has. -/
def Passes (s : Control) : Prop :=
  fatSumsMatch s.mem.byte s.fatAddr ∧ fatFreeMatches s.mem.byte s.fatAddr s.cBlock

theorem portCARDCheckSum_lt (m : GcMem) (a n : Nat) :
    (portCARDCheckSum m a n).1 < 2 ^ 16 ∧ (portCARDCheckSum m a n).2 < 2 ^ 16 := by
  have h := checkSumUpTo_lt m a (n / 2)
  unfold portCARDCheckSum
  constructor
  · dsimp only
    split
    · decide
    · exact h.1
  · dsimp only
    split
    · decide
    · exact h.2

/-- An update writes the counter and the two sums. -/
theorem Table.update (h : Table s g) :
    ∃ g', (portCARDUpdateFatBlock s).1 = PORT_CARD_RESULT_READY ∧ Table (portCARDUpdateFatBlock s).2 g' ∧
      (∀ i, 3 ≤ i → g' i = g i) ∧ fatSumsMatch (portCARDUpdateFatBlock s).2.mem.byte s.fatAddr = true := by
  have h₁ := h.set (i := PORT_CARD_FAT_CHECKCODE) (v := u16 (fatGet s PORT_CARD_FAT_CHECKCODE + 1))
    (by decide) (Nat.mod_lt _ (by decide))
  obtain ⟨hlt, hlt'⟩ := portCARDCheckSum_lt
    (fatSet s PORT_CARD_FAT_CHECKCODE (u16 (fatGet s PORT_CARD_FAT_CHECKCODE + 1))).mem
    (u32 (s.fatAddr + PORT_CARD_FAT_CHECKCODE * 2)) 0x1FFC
  have h₃ := (h₁.set (i := PORT_CARD_FAT_CHECKSUM) (by decide) hlt).set (i := PORT_CARD_FAT_CHECKSUMINV)
    (by decide) hlt'
  refine ⟨_, rfl, h₃, ?_, ?_⟩
  · intro i hi
    rw [update_of_ne, update_of_ne, update_of_ne] <;>
      simp only [PORT_CARD_FAT_CHECKSUMINV, PORT_CARD_FAT_CHECKSUM, PORT_CARD_FAT_CHECKCODE] <;> omega
  · have hsum := cardChecksumU16be_eq h₁ h₃ (fun i hi => by
      rw [update_of_ne, update_of_ne] <;>
        simp only [PORT_CARD_FAT_CHECKSUMINV, PORT_CARD_FAT_CHECKSUM] <;> omega)
    have hcs := h₃.rd16be_eq (i := CARD_FAT_CHECKSUM) (by decide)
    have hcsi := h₃.rd16be_eq (i := CARD_FAT_CHECKSUMINV) (by decide)
    rw [update_of_ne (by decide)] at hcs
    simp only [fatSumsMatch, decide_eq_true_eq]
    constructor
    · exact hcs.trans ((update_self ..).trans (congrArg Prod.fst hsum).symm)
    · exact hcsi.trans ((update_self ..).trans (congrArg Prod.snd hsum).symm)

end SdkPort.Card
