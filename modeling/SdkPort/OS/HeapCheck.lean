import SdkPort.OS.HeapRegions

/-!
# The heap check

`OSCheckHeap` walks both lists of a heap. On a heap that is a partition it finds nothing
wrong and returns the bytes that the free cells have left for use.
-/
namespace SdkPort.OSAlloc

open Gc (u32)
open Linked (firstOf)
open Runs (Gives gives_bind gives_pure)
open Blocks (Block Canon total)
open OSThread (toS32 toU32)

variable {L : Layout} {A I : Set Nat} {s s₀ : Mach} {C : Cells} {i p n : Nat} {l : List Block} {b : Block}

/-- The bytes the cells of a list leave for use. -/
def usable (l : List Block) : Int := (l.map fun b => (b.size : Int) - 0x20).sum

@[simp] theorem usable_nil : usable [] = 0 := rfl
@[simp] theorem usable_cons (b : Block) (l : List Block) : usable (b :: l) = b.size - 0x20 + usable l := by
  simp [usable]

theorem and_alignment (x : Nat) : x &&& (ALIGNMENT - 1) = x % 32 := Nat.and_two_pow_sub_one_eq_mod x 5

namespace Holds

theorem getArenaStart (h : Holds L A I s₀ s C) :
    Gives (Holds L A I s₀) (stateLoadU32 GC_SDK_OFF_OSALLOC_ARENA_START (·.arenaStart) s) L.first C := by
  rw [← h.shows.arenaStart]
  exact ⟨s, rfl, h⟩

theorem getArenaEnd (h : Holds L A I s₀ s C) :
    Gives (Holds L A I s₀) (stateLoadU32 GC_SDK_OFF_OSALLOC_ARENA_END (·.arenaEnd) s) L.stop C := by
  rw [← h.shows.arenaEnd]
  exact ⟨s, rfl, h⟩

/-- The checks on one cell of a list. -/
theorem checkCell (h : Holds L A I s₀ s C) (hl : Strand C p (b :: l) 0) (hg : ∀ c ∈ b :: l, L.Good c)
    (hs : b.size < 2 ^ 31) :
    Gives (Holds L A I s₀) (OSAlloc.checkCell L.first L.stop b.addr s) (some (b.size : Int)) C := by
  have hb := hg b (by simp)
  have hc := hb.cell
  obtain ⟨_, hnext, hsize, hl'⟩ := strand_cons.mp hl
  have h₁ := h.shows.fits.first_le _ hc
  have h₂ := hc.high
  have h₃ := Nat.mod_eq_zero_of_dvd hc.aligned
  have h₄ := Nat.mod_eq_zero_of_dvd hb.aligned
  have h₅ := hb.least
  unfold OSAlloc.checkCell
  rw [if_neg (by omega), and_alignment, if_neg (by omega)]
  refine gives_bind (h.getNext hc) fun s₁ h₆ => ?_
  rw [hnext]
  -- the successor, if there is one, points back
  have hback : ∃ v, Gives (Holds L A I s₀) (loadU32be (firstOf 0 (addrs l)) s₁) v C ∧
      ¬ (firstOf 0 (addrs l) ≠ 0 ∧ v ≠ b.addr) := by
    cases l with
    | nil => exact ⟨_, ⟨s₁, rfl, h₆⟩, fun hn => hn.1 rfl⟩
    | cons c l =>
      refine ⟨_, h₆.getPrev (hg c (by simp)).cell, fun hn => hn.2 ?_⟩
      exact (strand_cons.mp hl').1
  obtain ⟨v, hv, hne⟩ := hback
  refine gives_bind hv fun s₂ h₇ => ?_
  rw [if_neg hne]
  refine gives_bind (gives_bind (h₇.getSize hc) fun s₃ h₈ => gives_pure _ h₈) fun s₃ h₈ => ?_
  rw [hsize, toS32_of_lt hs, if_neg (by omega), toU32_natCast (by omega), and_alignment,
    if_neg (by omega)]
  exact gives_pure _ h₈

theorem headOk (h : Holds L A I s₀ s C) (hl : Strand C 0 l 0) (hc : ∀ x ∈ addrs l, L.Cell x) :
    Gives (Holds L A I s₀) (OSAlloc.headOk (firstOf 0 (addrs l)) s) true C := by
  unfold OSAlloc.headOk
  cases l with
  | nil => exact gives_pure _ h
  | cons b l =>
    have hb := hc b.addr (by simp)
    rw [addrs_cons, Linked.firstOf_cons, if_neg (h.cell_ne_zero hb)]
    refine gives_bind (h.getPrev hb) fun s₁ h₁ => ?_
    rw [(strand_cons.mp hl).1]
    exact gives_pure _ h₁

/-- The walk over the allocated list adds up the sizes. -/
theorem checkAllocated (h : Holds L A I s₀ s C) (hl : Strand C p l 0) (hg : ∀ c ∈ l, L.Good c)
    (hs : ∀ c ∈ l, c.size < 2 ^ 31) {z t : Nat} (hz : t + total l ≤ z) (hn : l.length < n) :
    Gives (Holds L A I s₀) (OSAlloc.checkAllocated L.first L.stop z n (firstOf 0 (addrs l)) t s)
      (some ((t + total l : Nat) : Int)) C := by
  induction l generalizing s p n t with
  | nil =>
    obtain ⟨n, rfl⟩ := Nat.exists_eq_succ_of_ne_zero (Nat.ne_of_gt (Nat.zero_lt_of_lt hn))
    rw [OSAlloc.checkAllocated]
    exact gives_pure _ h
  | cons b l ih =>
    obtain ⟨n, rfl⟩ := Nat.exists_eq_succ_of_ne_zero (Nat.ne_of_gt (Nat.zero_lt_of_lt hn))
    have hb := hg b (by simp)
    have hb0 := hb.least
    obtain ⟨_, hnext, _, hl'⟩ := strand_cons.mp hl
    rw [Blocks.total_cons] at hz
    rw [addrs_cons, Linked.firstOf_cons, OSAlloc.checkAllocated,
      if_neg (h.cell_ne_zero hb.cell)]
    refine gives_bind (h.checkCell hl hg (hs b (by simp))) fun s₁ h₁ => ?_
    simp only
    rw [if_neg (by omega)]
    refine gives_bind (h₁.getNext hb.cell) fun s₂ h₂ => ?_
    rw [hnext]
    have := ih h₂ hl' (fun c hc => hg c (by simp [hc])) (fun c hc => hs c (by simp [hc]))
      (t := t + b.size) (by omega) (Nat.lt_of_succ_lt_succ hn)
    rwa [Nat.add_assoc, ← Blocks.total_cons, Int.natCast_add] at this

/-- The walk over the free list adds up the sizes and the usable bytes. -/
theorem checkFree (h : Holds L A I s₀ s C) (hl : Strand C p l 0) (hg : ∀ c ∈ l, L.Good c)
    (hcanon : Canon l) (hs : ∀ c ∈ l, c.size < 2 ^ 31) {z t : Nat} {f : Int} (hz : t + total l ≤ z)
    (hn : l.length < n) :
    Gives (Holds L A I s₀) (OSAlloc.checkFree L.first L.stop z n (firstOf 0 (addrs l)) t f s)
      (some (((t + total l : Nat) : Int), f + usable l)) C := by
  induction l generalizing s p n t f with
  | nil =>
    obtain ⟨n, rfl⟩ := Nat.exists_eq_succ_of_ne_zero (Nat.ne_of_gt (Nat.zero_lt_of_lt hn))
    rw [OSAlloc.checkFree]
    simpa using gives_pure _ h
  | cons b l ih =>
    obtain ⟨n, rfl⟩ := Nat.exists_eq_succ_of_ne_zero (Nat.ne_of_gt (Nat.zero_lt_of_lt hn))
    have hb := hg b (by simp)
    have hb0 := hb.least
    have hbs := hs b (by simp)
    have hbl := hb.stop_le
    have hstop := h.shows.stop_lt
    obtain ⟨_, hnext, _, hl'⟩ := strand_cons.mp hl
    obtain ⟨happart, _, hcanon'⟩ := Blocks.canon_cons.mp hcanon
    rw [Blocks.total_cons] at hz
    rw [addrs_cons, Linked.firstOf_cons, OSAlloc.checkFree, if_neg (h.cell_ne_zero hb.cell)]
    refine gives_bind (h.checkCell hl hg hbs) fun s₁ h₁ => ?_
    simp only
    refine gives_bind (h₁.getNext hb.cell) fun s₂ h₂ => ?_
    -- the cell ends before its successor
    have hapart : ¬ (firstOf 0 (addrs l) ≠ 0 ∧ u32 (b.addr + toU32 (b.size : Int)) ≥ firstOf 0 (addrs l)) := by
      rw [toU32_natCast (by omega), u32, Nat.mod_eq_of_lt (by simp only [Block.stop] at hbl; omega)]
      cases l with
      | nil => exact fun hne => hne.1 rfl
      | cons c l =>
        have := happart c (by simp)
        simp only [Block.stop, addrs_cons, Linked.firstOf_cons] at this ⊢
        omega
    rw [hnext, if_neg hapart, if_neg (by omega)]
    have := ih h₂ hl' (fun c hc => hg c (by simp [hc])) hcanon' (fun c hc => hs c (by simp [hc]))
      (t := t + b.size) (f := f + b.size - 0x20) (by omega) (Nat.lt_of_succ_lt_succ hn)
    rw [Nat.add_assoc, ← Blocks.total_cons, Int.natCast_add] at this
    have hf : f + b.size - 0x20 + usable l = f + usable (b :: l) := by
      rw [usable_cons]
      omega
    rwa [hf] at this

end Holds

/-- The check of a heap that is a partition. -/
theorem Heap.check_gives (h : Heap L) (hs : Holds L A I s₀ s C) (hi : i < L.n) (hat : h.At C i) :
    Gives (Holds L A I s₀) (OSCheckHeap i s) (usable h.free) C := by
  have hd := hat.desc
  have hlt := h.total_lt
  have hlen := h.length_lt
  have htotal := h.total_eq
  rw [Blocks.total_append] at htotal
  rw [List.length_append] at hlen
  have hfuel : h.free.length < cellFuel ∧ h.alloc.length < cellFuel := by
    unfold cellFuel
    omega
  have hcell : ∀ x ∈ addrs (h.free ++ h.alloc), L.Cell x := fun x hx => h.cell_of_mem hx
  simp only [addrs_append, List.mem_append] at hcell
  unfold OSCheckHeap
  refine gives_bind hs.getArenaStart fun s₁ h₁ => gives_bind h₁.getArenaEnd fun s₂ h₂ => ?_
  refine gives_bind (h₂.openHeap hi (by rw [hd]; exact hlt)) fun s₃ h₃ => ?_
  refine gives_bind (gives_bind (h₃.getDescSize hi) fun s₄ h₄ => gives_pure _ h₄) fun s₄ h₄ => ?_
  refine gives_bind (h₄.getAllocated hi) fun s₅ h₅ => ?_
  rw [hd, toS32_of_lt hlt]
  refine gives_bind (h₅.headOk hat.alloc fun x hx => hcell x (.inr hx)) fun s₆ h₆ => ?_
  rw [if_neg (by simp)]
  refine gives_bind (h₆.checkAllocated hat.alloc (fun c hc => h.good_alloc hc)
    (fun c hc => h.size_lt (by simp [hc])) (z := total h.regions) (t := 0) (by omega) hfuel.2)
    fun s₇ h₇ => ?_
  simp only
  refine gives_bind (h₇.getFree hi) fun s₈ h₈ => ?_
  rw [hd]
  refine gives_bind (h₈.headOk hat.free fun x hx => hcell x (.inl hx)) fun s₉ h₉ => ?_
  rw [if_neg (by simp)]
  refine gives_bind (h₉.checkFree hat.free (fun c hc => h.good_free hc) h.canon
    (fun c hc => h.size_lt (by simp [hc])) (z := total h.regions) (f := 0) (by omega) hfuel.1)
    fun s₁₀ h₁₀ => ?_
  simp only
  rw [if_neg (by omega), Int.zero_add]
  exact gives_pure _ h₁₀

end SdkPort.OSAlloc
