import SdkPort.OS.HeapPartition

/-!
# What the heap check accepts

`OSCheckHeap` follows links from any memory. Each cell that passes adds at least 0x40 to a
total that may not exceed the recorded size, so the walks end, and what they accept are the
lists that are linked both ways, of cells in the arena, with the recorded size in all.
-/
namespace SdkPort.OSAlloc

open Gc (u32 GcMem)
open Linked (firstOf Seg)
open Blocks (Block total)
open OSThread (toS32 toU32)
open Runs (run_bind_ok)

variable {s : Mach} {m : GcMem} {lo hi cell p n : Nat} {z t f : Int} {b : Block} {l : List Block} {heap : Int}

/-- A cell of the right form, in the arena. -/
structure CellOk (m : GcMem) (lo hi : Nat) (b : Block) : Prop where
  nonnull : b.addr ≠ 0
  low : lo ≤ b.addr
  high : b.addr < hi
  aligned : 32 ∣ b.addr
  size_eq : m.load (u32 (b.addr + 8)) = b.size
  multiple : 32 ∣ b.size
  least : 0x40 ≤ b.size

section Walks

/-- The cells met from an address on to the null link, each of the right form and below 2^31,
and each the one before the next. -/
def Walks (m : GcMem) (lo hi : Nat) : Nat → List Block → Prop
  | cell, [] => cell = 0
  | cell, b :: l => b.addr = cell ∧ CellOk m lo hi b ∧ b.size < 2 ^ 31 ∧
    (m.load (u32 (cell + 4)) ≠ 0 → m.load (m.load (u32 (cell + 4))) = cell) ∧
    Walks m lo hi (m.load (u32 (cell + 4))) l

theorem walks_zero : Walks m lo hi 0 l ↔ l = [] := by
  cases l with
  | nil => simp [Walks]
  | cons b l => simpa [Walks] using fun h hb => absurd h hb.nonnull

/-- The first cell of a walk. -/
theorem Walks.cons_of_ne (h : Walks m lo hi cell l) (hc : cell ≠ 0) : ∃ b k, l = b :: k ∧ b.addr = cell := by
  cases l with
  | nil => exact absurd h hc
  | cons b k => exact ⟨b, k, rfl, h.1⟩

/-- Memory determines a walk. -/
theorem Walks.unique {k : List Block} (h : Walks m lo hi cell l) (h' : Walks m lo hi cell k) : l = k := by
  induction l generalizing cell k with
  | nil =>
    obtain rfl : cell = 0 := h
    exact (walks_zero.mp h').symm
  | cons b l ih =>
    obtain ⟨rfl, hb, _, _, hl⟩ := h
    obtain ⟨c, k, rfl, hc⟩ := h'.cons_of_ne hb.nonnull
    obtain ⟨_, hc', _, _, hk⟩ := h'
    have hsize : b.size = c.size := by
      rw [← hb.size_eq, ← hc'.size_eq, hc]
    rw [ih hl hk, show b = c from congrArg₂ Block.mk hc.symm hsize]

/-- A walk from a head that points back to `p` is a list linked both ways. -/
theorem walks_iff : (Walks m lo hi cell l ∧ (cell ≠ 0 → m.load cell = p)) ↔
    cell = firstOf 0 (addrs l) ∧ Seg (fun c => m.load (u32 (c + 4))) (fun c => m.load c) p (addrs l) 0 ∧
      ∀ b ∈ l, CellOk m lo hi b ∧ b.size < 2 ^ 31 := by
  induction l generalizing cell p with
  | nil =>
    constructor
    · rintro ⟨h, _⟩
      exact ⟨h, trivial, by simp⟩
    · rintro ⟨h, _⟩
      exact ⟨h, fun hne => absurd h hne⟩
  | cons b l ih =>
    constructor
    · rintro ⟨⟨rfl, hb, hlt, hback, hl⟩, hp⟩
      obtain ⟨h₁, h₂, h₃⟩ := ih.mp ⟨hl, hback⟩
      exact ⟨rfl, ⟨hp hb.nonnull, h₁, h₂⟩, List.forall_mem_cons.mpr ⟨⟨hb, hlt⟩, h₃⟩⟩
    · rintro ⟨rfl, ⟨hp, hn, hl⟩, hc⟩
      obtain ⟨⟨hb, hlt⟩, hc⟩ := List.forall_mem_cons.mp hc
      obtain ⟨h₁, h₂⟩ := ih.mpr ⟨hn, hl, hc⟩
      exact ⟨⟨rfl, hb, hlt, h₂, h₁⟩, fun _ => hp⟩

end Walks

section Cell

theorem toU32_toS32 {v : Nat} (hv : v < 2 ^ 32) : toU32 (toS32 v) = v := by
  rw [toU32, toS32]
  split <;> omega

/-- What a cell must be to pass, and with which size. -/
def Passes (m : GcMem) (lo hi cell : Nat) (z : Int) : Prop :=
  ∃ b : Block, b.addr = cell ∧ CellOk m lo hi b ∧ b.size < 2 ^ 31 ∧
    (m.load (u32 (cell + 4)) ≠ 0 → m.load (m.load (u32 (cell + 4))) = cell) ∧ z = (b.size : Int)

theorem Passes.unique {z' : Int} (h : Passes m lo hi cell z) (h' : Passes m lo hi cell z') : z = z' := by
  obtain ⟨b, rfl, hb, _, _, rfl⟩ := h
  obtain ⟨c, hc, hc', _, _, rfl⟩ := h'
  rw [← hb.size_eq, ← hc'.size_eq, hc]

/-- The checks on the size of a cell. -/
theorem passes_iff (hcell : cell ≠ 0) (hlo : lo ≤ cell) (hhi : cell < hi) (hd : 32 ∣ cell)
    (hback : m.load (u32 (cell + 4)) ≠ 0 → m.load (m.load (u32 (cell + 4))) = cell) :
    Passes m lo hi cell z ↔ z = toS32 (m.load (u32 (cell + 8))) ∧ 0x40 ≤ z ∧ toU32 z % 32 = 0 := by
  have hv := m.load_lt (u32 (cell + 8))
  constructor
  · rintro ⟨b, rfl, hb, hlt, _, rfl⟩
    have hleast := hb.least
    refine ⟨by rw [hb.size_eq, toS32_of_lt hlt], by omega, ?_⟩
    rw [toU32_natCast (by omega)]
    exact Nat.mod_eq_zero_of_dvd hb.multiple
  · rintro ⟨rfl, hleast, hmod⟩
    have hlt : m.load (u32 (cell + 8)) < 2 ^ 31 := by
      by_contra hge
      have := toS32_neg (Nat.not_lt.mp hge) hv
      omega
    rw [toU32_toS32 hv] at hmod
    rw [toS32_of_lt hlt] at hleast ⊢
    have hleast' : 0x40 ≤ m.load (u32 (cell + 8)) := by omega
    exact ⟨⟨cell, m.load (u32 (cell + 8))⟩, rfl,
      ⟨hcell, hlo, hhi, hd, rfl, Nat.dvd_of_mod_eq_zero hmod, hleast'⟩, hlt, hback, rfl⟩

variable (s lo hi) in
/-- What the checks on one cell say. -/
theorem checkCell_verdict (hcell : cell ≠ 0) : ∃ r, checkCell lo hi cell s = .ok (r, s) ∧
    ∀ z, r = some z ↔ Passes s.mem lo hi cell z := by
  unfold checkCell
  by_cases h₁ : cell < lo ∨ cell ≥ hi
  · refine ⟨none, by rw [if_pos h₁]; rfl, fun z => ⟨nofun, ?_⟩⟩
    rintro ⟨b, rfl, hb, _⟩
    have hlow := hb.low
    have hhigh := hb.high
    omega
  rw [if_neg h₁]
  by_cases h₂ : cell &&& (ALIGNMENT - 1) ≠ 0
  · refine ⟨none, by rw [if_pos h₂]; rfl, fun z => ⟨nofun, ?_⟩⟩
    rintro ⟨b, rfl, hb, _⟩
    rw [and_alignment] at h₂
    exact absurd (Nat.mod_eq_zero_of_dvd hb.aligned) h₂
  rw [if_neg h₂, run_bind_ok rfl, run_bind_ok rfl]
  by_cases h₃ : s.mem.load (u32 (cell + 4)) ≠ 0 ∧ s.mem.load (s.mem.load (u32 (cell + 4))) ≠ cell
  · refine ⟨none, by rw [if_pos h₃]; rfl, fun z => ⟨nofun, ?_⟩⟩
    rintro ⟨b, _, _, _, hback, _⟩
    exact absurd (hback h₃.1) h₃.2
  rw [if_neg h₃]
  have hback : s.mem.load (u32 (cell + 4)) ≠ 0 → s.mem.load (s.mem.load (u32 (cell + 4))) = cell :=
    fun hne => by_contra fun hb => h₃ ⟨hne, hb⟩
  rw [and_alignment, not_not] at h₂
  obtain ⟨hlo, hhi⟩ : lo ≤ cell ∧ cell < hi := by omega
  have hpass := fun z => passes_iff (z := z) hcell hlo hhi (Nat.dvd_of_mod_eq_zero h₂) hback
  refine ⟨if 0x40 ≤ toS32 (s.mem.load (u32 (cell + 8))) ∧ toU32 (toS32 (s.mem.load (u32 (cell + 8)))) % 32 = 0
    then some (toS32 (s.mem.load (u32 (cell + 8)))) else none, ?_, fun z => ?_⟩
  · rw [run_bind_ok rfl, and_alignment]
    by_cases h₄ : toS32 (s.mem.load (u32 (cell + 8))) < 0x40
    · rw [if_pos h₄, if_neg (by omega)]
      rfl
    · rw [if_neg h₄]
      by_cases h₅ : toU32 (toS32 (s.mem.load (u32 (cell + 8)))) % 32 = 0
      · rw [if_neg (not_not.mpr h₅), if_pos ⟨by omega, h₅⟩]
        rfl
      · rw [if_pos h₅, if_neg fun h => h₅ h.2]
        rfl
  · rw [hpass]
    split
    · rename_i hc
      constructor
      · intro he
        cases he
        exact ⟨rfl, hc⟩
      · rintro ⟨rfl, _⟩
        rfl
    · rename_i hc
      refine ⟨nofun, ?_⟩
      rintro ⟨rfl, h⟩
      exact absurd h hc

end Cell

section Lists

theorem walks_cons (hc : cell ≠ 0) : Walks m lo hi cell l ↔ ∃ b k, l = b :: k ∧ b.addr = cell ∧
    Passes m lo hi cell b.size ∧ Walks m lo hi (m.load (u32 (cell + 4))) k := by
  cases l with
  | nil => simpa [Walks] using hc
  | cons b k =>
    constructor
    · rintro ⟨ha, hb, hlt, hback, hk⟩
      exact ⟨b, k, rfl, ha, ⟨b, ha, hb, hlt, hback, rfl⟩, hk⟩
    · rintro ⟨b', k', he, ha, ⟨c, hca, hc, hlt, hback, hz⟩, hk⟩
      cases he
      obtain rfl : c = b := congrArg₂ Block.mk (hca.trans ha.symm) (Int.ofNat_inj.mp hz).symm
      exact ⟨ha, hc, hlt, hback, hk⟩

variable (s lo hi cell) in
/-- The walk over the allocated list ends, and accepts the lists that are walks of at most the
recorded size. -/
theorem checkAllocated_verdict (hn : z - t < 64 * n) (h0 : 0 ≤ t) (ht : t ≤ z) :
    ∃ r, checkAllocated lo hi z n cell t s = .ok (r, s) ∧
      ∀ v, r = some v ↔ ∃ l, Walks s.mem lo hi cell l ∧ v = t + total l ∧ v ≤ z := by
  induction n generalizing cell t with
  | zero => omega
  | succ n ih =>
    rw [checkAllocated]
    by_cases hc : cell = 0
    · refine ⟨some t, by rw [if_pos hc]; rfl, fun v => ?_⟩
      simp only [hc, walks_zero, exists_eq_left, Blocks.total_nil]
      constructor
      · intro he
        cases he
        exact ⟨by simp, ht⟩
      · rintro ⟨he, _⟩
        simp [he]
    rw [if_neg hc]
    obtain ⟨r, hr, hpass⟩ := checkCell_verdict s lo hi hc
    rw [run_bind_ok hr]
    simp only [walks_cons hc]
    cases r with
    | none =>
      refine ⟨none, rfl, fun v => ⟨by simp, ?_⟩⟩
      rintro ⟨_, ⟨b, k, _, _, hb, _⟩, _⟩
      cases (hpass _).mpr hb
    | some x =>
      obtain ⟨b, hba, hb, hlt, _, hx⟩ := (hpass x).mp rfl
      have hleast := hb.least
      dsimp only
      by_cases hz : t + x ≤ 0 ∨ t + x > z
      · refine ⟨none, by rw [if_pos hz]; rfl, fun v => ⟨by simp, ?_⟩⟩
        rintro ⟨_, ⟨c, k, rfl, _, hc', _⟩, rfl, hv⟩
        cases (hpass _).mpr hc'
        rw [Blocks.total_cons] at hv
        omega
      · rw [if_neg hz, run_bind_ok rfl]
        obtain ⟨r, hr, hv⟩ := ih (s.mem.load (u32 (cell + 4))) (t := t + x) (by omega) (by omega) (by omega)
        refine ⟨r, hr, fun v => ?_⟩
        rw [hv]
        constructor
        · rintro ⟨k, hk, rfl, hle⟩
          refine ⟨b :: k, ⟨b, k, rfl, hba, (hpass _).mp (by rw [hx]), hk⟩, ?_, hle⟩
          rw [Blocks.total_cons]
          omega
        · rintro ⟨_, ⟨c, k, rfl, _, hc', hk⟩, rfl, hle⟩
          cases (hpass _).mpr hc'
          rw [Blocks.total_cons] at hle ⊢
          exact ⟨k, hk, by omega, hle⟩

/-- Each cell ends below the next. -/
def Ascending (l : List Block) : Prop := l.IsChain fun b c => b.stop < c.addr

theorem ascending_cons (hl : Walks m lo hi cell l) :
    Ascending (b :: l) ↔ (cell ≠ 0 → b.stop < cell) ∧ Ascending l := by
  rw [Ascending, List.isChain_cons]
  cases l with
  | nil => simp [show cell = 0 from hl, Ascending]
  | cons c k =>
    obtain ⟨rfl, hc, _⟩ := hl
    simp [Ascending, hc.nonnull]

/-- The ascending walks from a cell that passes are the cell and the ascending walks from its
link that start above it. -/
theorem ascendingWalk_cons (hc : cell ≠ 0) (hba : b.addr = cell) (hb : Passes m lo hi cell b.size) {v g : Int} :
    (∃ l, Walks m lo hi cell l ∧ Ascending l ∧ v = t + total l ∧ v ≤ z ∧ g = f + usable l) ↔
      ∃ k, Walks m lo hi (m.load (u32 (cell + 4))) k ∧
        (m.load (u32 (cell + 4)) ≠ 0 → b.stop < m.load (u32 (cell + 4))) ∧ Ascending k ∧
          v = t + b.size + total k ∧ v ≤ z ∧ g = f + b.size - 0x20 + usable k := by
  simp only [walks_cons hc]
  constructor
  · rintro ⟨_, ⟨c, k, rfl, hca, hc', hk⟩, hasc, rfl, hle, rfl⟩
    obtain rfl : c = b := congrArg₂ Block.mk (hca.trans hba.symm) (Int.ofNat_inj.mp (hc'.unique hb))
    obtain ⟨h₁, h₂⟩ := (ascending_cons hk).mp hasc
    rw [Blocks.total_cons] at hle ⊢
    rw [usable_cons]
    exact ⟨k, hk, h₁, h₂, by omega, hle, by omega⟩
  · rintro ⟨k, hk, h₁, h₂, rfl, hle, rfl⟩
    refine ⟨b :: k, ⟨b, k, rfl, hba, hb, hk⟩, (ascending_cons hk).mpr ⟨h₁, h₂⟩, ?_, hle, ?_⟩
    · rw [Blocks.total_cons]
      omega
    · rw [usable_cons]
      omega

variable (s lo hi cell f) in
/-- The walk over the free list ends, and accepts the lists that are ascending walks of at most
the recorded size. -/
theorem checkFree_verdict (hn : z - t < 64 * n) (h0 : 0 ≤ t) (ht : t ≤ z) :
    ∃ r, checkFree lo hi z n cell t f s = .ok (r, s) ∧ (hi + z ≤ 2 ^ 32 →
      ∀ v g, r = some (v, g) ↔ ∃ l, Walks s.mem lo hi cell l ∧ Ascending l ∧ v = t + total l ∧ v ≤ z ∧
        g = f + usable l) := by
  induction n generalizing cell t f with
  | zero => omega
  | succ n ih =>
    rw [checkFree]
    by_cases hc : cell = 0
    · refine ⟨some (t, f), by rw [if_pos hc]; rfl, fun _ v g => ?_⟩
      simp only [hc, walks_zero, exists_eq_left, Blocks.total_nil, usable_nil]
      constructor
      · intro he
        cases he
        exact ⟨.nil, by simp, ht, by simp⟩
      · rintro ⟨_, he, _, hg⟩
        simp [he, hg]
    rw [if_neg hc]
    obtain ⟨r, hr, hpass⟩ := checkCell_verdict s lo hi hc
    rw [run_bind_ok hr]
    cases r with
    | none =>
      refine ⟨none, rfl, fun _ v g => ⟨by simp, ?_⟩⟩
      rintro ⟨_, hw, _⟩
      obtain ⟨b, k, _, _, hb, _⟩ := (walks_cons hc).mp hw
      cases (hpass _).mpr hb
    | some x =>
      obtain ⟨b, hba, hb, hlt, _, rfl⟩ := (hpass x).mp rfl
      have hleast := hb.least
      have hhigh := hb.high
      dsimp only
      rw [run_bind_ok rfl]
      simp only [ascendingWalk_cons hc hba ((hpass _).mp rfl)]
      by_cases hz : t + b.size ≤ 0 ∨ t + b.size > z
      · refine ⟨none, ?_, fun _ v g => ⟨by simp, ?_⟩⟩
        · split
          · rfl
          · rfl
        · rintro ⟨k, _, _, _, rfl, hle, _⟩
          omega
      rw [if_neg hz]
      have hsum : hi + z ≤ 2 ^ 32 → u32 (cell + toU32 (b.size : Int)) = b.stop := by
        intro hhi
        rw [toU32_natCast (by omega), u32, Nat.mod_eq_of_lt (by omega), ← hba, Block.stop]
      by_cases ha : s.mem.load (u32 (cell + 4)) ≠ 0 ∧ u32 (cell + toU32 (b.size : Int)) ≥ s.mem.load (u32 (cell + 4))
      · refine ⟨none, by rw [if_pos ha]; rfl, fun hhi v g => ⟨by simp, ?_⟩⟩
        rintro ⟨k, _, h₁, _⟩
        have hstop := h₁ ha.1
        rw [hsum hhi] at ha
        exact absurd hstop (Nat.not_lt.mpr ha.2)
      · rw [if_neg ha]
        obtain ⟨r, hr, hv⟩ := ih (s.mem.load (u32 (cell + 4))) (f + b.size - 0x20) (t := t + b.size) (by omega)
          (by omega) (by omega)
        refine ⟨r, hr, fun hhi v g => ?_⟩
        rw [hv hhi]
        have hapart : s.mem.load (u32 (cell + 4)) ≠ 0 → b.stop < s.mem.load (u32 (cell + 4)) := by
          intro hne
          rw [hsum hhi] at ha
          exact Nat.lt_of_not_le fun hle => ha ⟨hne, hle⟩
        constructor
        · rintro ⟨k, hk, h₂, h₃⟩
          exact ⟨k, hk, hapart, h₂, h₃⟩
        · rintro ⟨k, hk, _, h₂, h₃⟩
          exact ⟨k, hk, h₂, h₃⟩

end Lists

section Verdict

/-- What the check reads besides the lists: from the state page or the globals. -/
def arrayOf (s : Mach) : Nat := stateWord s GC_SDK_OFF_OSALLOC_HEAP_ARRAY s.heapArray

def numHeapsOf (s : Mach) : Int :=
  if (s.mem.ptr (GC_SDK_STATE_BASE + GC_SDK_OFF_OSALLOC_NUM_HEAPS) 4).isSome then
    toS32 (s.mem.load (GC_SDK_STATE_BASE + GC_SDK_OFF_OSALLOC_NUM_HEAPS))
  else s.numHeaps

def arenaStartOf (s : Mach) : Nat := stateWord s GC_SDK_OFF_OSALLOC_ARENA_START s.arenaStart
def arenaEndOf (s : Mach) : Nat := stateWord s GC_SDK_OFF_OSALLOC_ARENA_END s.arenaEnd

def descOf (s : Mach) (heap : Int) : Nat := heapDesc (arrayOf s) heap

/-- The recorded size of a heap. -/
def sizeOf (s : Mach) (heap : Int) : Int := toS32 (s.mem.load (descOf s heap))

/-- A heap whose lists are well formed, and are all of it. -/
structure WellFormed (s : Mach) (heap : Int) (alloc free : List Block) : Prop where
  alloc_linked : LinkedBothWays s.mem (s.mem.load (u32 (descOf s heap + 8))) alloc
  free_linked : LinkedBothWays s.mem (s.mem.load (u32 (descOf s heap + 4))) free
  cells : ∀ b ∈ alloc ++ free, CellOk s.mem (arenaStartOf s) (arenaEndOf s) b
  ascending : Ascending free
  total_eq : (total (alloc ++ free) : Int) = sizeOf s heap

theorem openHeap_ok (s : Mach) (heap : Int) : openHeap heap s =
    .ok (if arrayOf s = 0 ∨ heap < 0 ∨ heap ≥ numHeapsOf s then none
      else if sizeOf s heap < 0 then none else some (descOf s heap), s) := by
  have harray : getHeapArray s = .ok (arrayOf s, s) := rfl
  have hnum : getNumHeaps s = .ok (numHeapsOf s, s) := rfl
  have hsize : loadI32be (heapDesc (arrayOf s) heap) s = .ok (sizeOf s heap, s) := rfl
  unfold openHeap
  rw [run_bind_ok harray, run_bind_ok hnum]
  by_cases h : arrayOf s = 0 ∨ heap < 0 ∨ heap ≥ numHeapsOf s
  · rw [if_pos h, if_pos h]
    rfl
  · rw [if_neg h, if_neg h, run_bind_ok hsize]
    by_cases hz : sizeOf s heap < 0
    · rw [if_pos hz, if_pos hz]
      rfl
    · rw [if_neg hz, if_neg hz]
      rfl

theorem headOk_ok (s : Mach) (head : Nat) :
    headOk head s = .ok (decide (head ≠ 0 → s.mem.load head = 0), s) := by
  unfold headOk
  by_cases h : head = 0
  · rw [if_pos h]
    simp [h]
  · rw [if_neg h, run_bind_ok rfl]
    simp [h]

/-- A list that is linked both ways, of cells of the right form, is a walk from its head. -/
theorem linked_iff (hlt : ∀ b ∈ l, b.size < 2 ^ 31) :
    LinkedBothWays m cell l ∧ (∀ b ∈ l, CellOk m lo hi b) ↔
      Walks m lo hi cell l ∧ (cell ≠ 0 → m.load cell = 0) := by
  rw [walks_iff]
  constructor
  · rintro ⟨⟨h₁, h₂⟩, hc⟩
    exact ⟨h₁, h₂, fun b hb => ⟨hc b hb, hlt b hb⟩⟩
  · rintro ⟨h₁, h₂, hc⟩
    exact ⟨⟨h₁, h₂⟩, fun b hb => (hc b hb).1⟩

theorem sizeOf_lt (s : Mach) (heap : Int) : sizeOf s heap < 2 ^ 31 := by
  have hv := s.mem.load_lt (descOf s heap)
  rw [sizeOf, toS32]
  split <;> omega

/-- The head of a list points back to null. -/
def HeadNull (s : Mach) (head : Nat) : Prop := head ≠ 0 → s.mem.load head = 0

/-- A heap is well formed when walks from its two heads say so. -/
theorem wellFormed_iff {alloc free : List Block} : WellFormed s heap alloc free ↔
    (Walks s.mem (arenaStartOf s) (arenaEndOf s) (s.mem.load (u32 (descOf s heap + 8))) alloc ∧
      HeadNull s (s.mem.load (u32 (descOf s heap + 8)))) ∧
    (Walks s.mem (arenaStartOf s) (arenaEndOf s) (s.mem.load (u32 (descOf s heap + 4))) free ∧
      HeadNull s (s.mem.load (u32 (descOf s heap + 4)))) ∧
    Ascending free ∧ (total alloc : Int) + total free = sizeOf s heap := by
  constructor
  · intro h
    have htotal := h.total_eq
    have hlt := sizeOf_lt s heap
    have hsmall : ∀ b ∈ alloc ++ free, b.size < 2 ^ 31 := by
      intro b hb
      have hle := Blocks.size_le_total hb
      omega
    rw [Blocks.total_append] at htotal
    refine ⟨?_, ?_, h.ascending, by omega⟩
    · exact (linked_iff fun b hb => hsmall b (List.mem_append_left _ hb)).mp
        ⟨h.alloc_linked, fun b hb => h.cells b (List.mem_append_left _ hb)⟩
    · exact (linked_iff fun b hb => hsmall b (List.mem_append_right _ hb)).mp
        ⟨h.free_linked, fun b hb => h.cells b (List.mem_append_right _ hb)⟩
  · rintro ⟨halloc, hfree, hasc, htotal⟩
    have hallocSmall := fun b hb => ((walks_iff.mp halloc).2.2 b hb).2
    have hfreeSmall := fun b hb => ((walks_iff.mp hfree).2.2 b hb).2
    obtain ⟨h₁, h₂⟩ := (linked_iff hallocSmall).mpr halloc
    obtain ⟨h₃, h₄⟩ := (linked_iff hfreeSmall).mpr hfree
    refine ⟨h₁, h₃, ?_, hasc, by rw [Blocks.total_append]; omega⟩
    intro b hb
    cases List.mem_append.mp hb with
    | inl hb => exact h₂ b hb
    | inr hb => exact h₄ b hb

/-- The check of a heap that exists ends, and accepts the heaps that are well formed. -/
theorem check_verdict (hz : 0 ≤ sizeOf s heap) (hex : ¬ (arrayOf s = 0 ∨ heap < 0 ∨ heap ≥ numHeapsOf s)) :
    ∃ v, OSCheckHeap heap s = .ok (v, s) ∧ (arenaEndOf s + sizeOf s heap ≤ 2 ^ 32 →
      (v = -1 ∧ ¬ ∃ alloc free, WellFormed s heap alloc free) ∨
        ∃ alloc free, WellFormed s heap alloc free ∧ v = usable free) := by
  have hstart : stateLoadU32 GC_SDK_OFF_OSALLOC_ARENA_START (·.arenaStart) s = .ok (arenaStartOf s, s) := rfl
  have hend : stateLoadU32 GC_SDK_OFF_OSALLOC_ARENA_END (·.arenaEnd) s = .ok (arenaEndOf s, s) := rfl
  have hopen := openHeap_ok s heap
  rw [if_neg hex, if_neg (by omega)] at hopen
  have hsize : loadI32be (descOf s heap) s = .ok (sizeOf s heap, s) := rfl
  have hlt := sizeOf_lt s heap
  have hfuel : (cellFuel : Int) = 2 ^ 27 := by decide
  simp only [wellFormed_iff]
  unfold OSCheckHeap
  rw [run_bind_ok hstart, run_bind_ok hend, run_bind_ok hopen]
  dsimp only
  rw [run_bind_ok hsize, run_bind_ok rfl, run_bind_ok (headOk_ok s _)]
  by_cases h₁ : HeadNull s (s.mem.load (u32 (descOf s heap + 8)))
  swap
  · refine ⟨-1, by rw [if_pos (by simpa [HeadNull] using h₁)]; rfl, fun _ => .inl ⟨rfl, ?_⟩⟩
    rintro ⟨alloc, free, ⟨_, h⟩, _⟩
    exact h₁ h
  rw [if_neg (by simpa [HeadNull] using h₁)]
  obtain ⟨r, hr, hwalk⟩ := checkAllocated_verdict s (arenaStartOf s) (arenaEndOf s)
    (s.mem.load (u32 (descOf s heap + 8))) (t := 0) (z := sizeOf s heap) (n := cellFuel) (by omega)
    le_rfl hz
  rw [run_bind_ok hr]
  cases r with
  | none =>
    refine ⟨-1, rfl, fun _ => .inl ⟨rfl, ?_⟩⟩
    rintro ⟨alloc, free, ⟨h, _⟩, _, _, htotal⟩
    cases (hwalk _).mpr ⟨alloc, h, rfl, by omega⟩
  | some t =>
    obtain ⟨alloc, halloc, ht, htz⟩ := (hwalk t).mp rfl
    dsimp only
    rw [run_bind_ok rfl, run_bind_ok (headOk_ok s _)]
    by_cases h₂ : HeadNull s (s.mem.load (u32 (descOf s heap + 4)))
    swap
    · refine ⟨-1, by rw [if_pos (by simpa [HeadNull] using h₂)]; rfl, fun _ => .inl ⟨rfl, ?_⟩⟩
      rintro ⟨alloc, free, _, ⟨_, h⟩, _⟩
      exact h₂ h
    rw [if_neg (by simpa [HeadNull] using h₂)]
    obtain ⟨r, hr, hwalk'⟩ := checkFree_verdict s (arenaStartOf s) (arenaEndOf s)
      (s.mem.load (u32 (descOf s heap + 4))) 0 (z := sizeOf s heap) (t := t) (n := cellFuel) (by omega) (by omega) htz
    rw [run_bind_ok hr]
    -- every well-formed heap has the total found on the allocated list
    have hfirst : ∀ {alloc' free' : List Block},
        Walks s.mem (arenaStartOf s) (arenaEndOf s) (s.mem.load (u32 (descOf s heap + 8))) alloc' →
        (total alloc' : Int) + total free' = sizeOf s heap → t = total alloc' := by
      intro alloc' free' h htotal
      have h' := Option.some.inj ((hwalk _).mpr ⟨alloc', h, rfl, by omega⟩)
      omega
    cases r with
    | none =>
      refine ⟨-1, rfl, fun hhi => .inl ⟨rfl, ?_⟩⟩
      rintro ⟨alloc', free, ⟨h, _⟩, ⟨h', _⟩, hasc, htotal⟩
      have ht' := hfirst h htotal
      cases (hwalk' hhi _ _).mpr ⟨free, h', hasc, rfl, by omega, rfl⟩
    | some p =>
      obtain ⟨v, g⟩ := p
      refine ⟨if v ≠ sizeOf s heap then -1 else g, rfl, fun hhi => ?_⟩
      obtain ⟨free, hfree, hasc, hv, hvz, hg⟩ := (hwalk' hhi v g).mp rfl
      by_cases hne : v = sizeOf s heap
      · rw [if_neg (not_not.mpr hne)]
        exact .inr ⟨alloc, free, ⟨⟨halloc, h₁⟩, ⟨hfree, h₂⟩, hasc, by omega⟩, by omega⟩
      · rw [if_pos hne]
        refine .inl ⟨rfl, ?_⟩
        rintro ⟨alloc', free', ⟨h, _⟩, ⟨h', _⟩, hasc', htotal⟩
        have ht' := hfirst h htotal
        cases Option.some.inj ((hwalk' hhi _ _).mpr ⟨free', h', hasc', rfl, by omega, rfl⟩)
        omega

/-- A heap that does not exist. -/
theorem check_closed (hopen : openHeap heap s = .ok (none, s)) : OSCheckHeap heap s = .ok (-1, s) := by
  unfold OSCheckHeap
  rw [run_bind_ok rfl, run_bind_ok rfl, run_bind_ok hopen]
  rfl

end Verdict

/-- The check ends on every memory. On a heap that exists, in an arena that the recorded size does
not wrap around, it returns a number that is not negative exactly when the heap is well formed,
and then the bytes that the free cells leave for use. -/
theorem check_exact (s : Mach) (heap : Int) :
    (∃ v, OSCheckHeap heap s = .ok (v, s)) ∧
      (arrayOf s ≠ 0 → 0 ≤ heap → heap < numHeapsOf s → 0 ≤ sizeOf s heap →
        arenaEndOf s + sizeOf s heap ≤ 2 ^ 32 → ∀ v s', OSCheckHeap heap s = .ok (v, s') →
          (0 ≤ v ↔ ∃ alloc free, WellFormed s heap alloc free) ∧
            ∀ alloc free, WellFormed s heap alloc free → v = usable free) := by
  constructor
  · have hopen := openHeap_ok s heap
    by_cases hex : arrayOf s = 0 ∨ heap < 0 ∨ heap ≥ numHeapsOf s
    · rw [if_pos hex] at hopen
      exact ⟨-1, check_closed hopen⟩
    · by_cases hz : sizeOf s heap < 0
      · rw [if_neg hex, if_pos hz] at hopen
        exact ⟨-1, check_closed hopen⟩
      · obtain ⟨v, hrun, _⟩ := check_verdict (by omega) hex
        exact ⟨v, hrun⟩
  · intro harray h0 hnum hz hhi v s' hrun
    obtain ⟨v', hrun', hv⟩ := check_verdict hz (by omega)
    rw [hrun'] at hrun
    cases hrun
    obtain ⟨rfl, hno⟩ | ⟨alloc, free, hwf, rfl⟩ := hv hhi
    · refine ⟨⟨fun h => absurd h (by decide), fun h => absurd h hno⟩, ?_⟩
      exact fun alloc free h => absurd ⟨alloc, free, h⟩ hno
    · refine ⟨⟨fun _ => ⟨alloc, free, hwf⟩, fun _ => ?_⟩, fun alloc' free' h => ?_⟩
      · exact usable_nonneg fun b hb => (hwf.cells b (List.mem_append_right _ hb)).least
      · rw [(wellFormed_iff.mp hwf).2.1.1.unique (wellFormed_iff.mp h).2.1.1]

/-- What the check finds in the first heap of the run with holes. -/
theorem holes_read : ((runArena 0x80000000 0x80001000 2 holes).map fun p =>
    (arrayOf p.1, numHeapsOf p.1, sizeOf p.1 0, arenaEndOf p.1)) =
      some (0x80000000, 2, 0x3E0, 0x80001000) := by decide +kernel

theorem holes_exact : ∃ s G, runArena 0x80000000 0x80001000 2 holes = some (s, G) ∧
    ∃ v, OSCheckHeap 0 s = .ok (v, s) ∧ (0 ≤ v ↔ ∃ alloc free, WellFormed s 0 alloc free) := by
  obtain ⟨⟨s, G⟩, hs, hr⟩ := Option.map_eq_some_iff.mp holes_read
  simp only [Prod.mk.injEq] at hr
  obtain ⟨h₁, h₂, h₃, h₄⟩ := hr
  obtain ⟨⟨v, hv⟩, hexact⟩ := check_exact s 0
  refine ⟨s, G, hs, v, hv, (hexact ?_ le_rfl ?_ ?_ ?_ v s hv).1⟩
  · rw [h₁]
    decide
  · rw [h₂]
    decide
  · rw [h₃]
    decide
  · rw [h₃, h₄]
    decide

end SdkPort.OSAlloc
