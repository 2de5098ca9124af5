import SdkPort.OS.Alloc
import SdkPort.Lib.Runs
import Mathlib.Data.Set.Basic
import Mathlib.Tactic.Simps.Basic

/-!
# Cells and descriptors in memory

The words of cell headers and heap descriptors as typed fields. A store to a field
changes that field alone, and no byte outside the headers and descriptors it may touch.
-/
namespace SdkPort.OSAlloc

open Gc (u32 GcMem)
open OSThread (toS32 toU32)
open Runs (Gives gives_bind gives_pure)

/-- Where the descriptors lie and which part of the arena is left for heaps. -/
structure Layout where
  array : Nat
  n : Nat
  first : Nat
  stop : Nat
  hi : Nat

namespace Layout

/-- The address of a descriptor. -/
def desc (L : Layout) (i : Nat) : Nat := L.array + 12 * i

/-- A place for a cell header. -/
structure Cell (L : Layout) (c : Nat) : Prop where
  aligned : 32 ∣ c
  low : L.array + 12 * L.n ≤ c
  high : c + 32 ≤ L.stop

/-- The layout lies in mapped memory and apart from the state page. -/
structure Fits (L : Layout) (m : GcMem) : Prop where
  nonnull : 0 < L.array
  array_le : L.array + 12 * L.n ≤ L.hi
  stop_le : L.stop ≤ L.hi
  hi_lt : L.hi < 2 ^ 32
  count_lt : L.n < 2 ^ 31
  maps : m.Maps L.array L.hi
  first_le : ∀ c, L.Cell c → L.first ≤ c
  stop_aligned : 32 ∣ L.stop
  page : L.hi ≤ GC_SDK_STATE_BASE + GC_SDK_OFF_OS_CURR_HEAP ∨
    GC_SDK_STATE_BASE + GC_SDK_OFF_OSALLOC_ARENA_END + 4 ≤ L.array

end Layout

structure Desc where
  size : Nat
  free : Nat
  allocated : Nat

structure Cells where
  prev : Nat → Nat
  next : Nat → Nat
  size : Nat → Nat
  hd : Nat → Nat
  desc : Nat → Desc

namespace Cells

@[simps] def setPrev (C : Cells) (c v : Nat) : Cells := { C with prev := Function.update C.prev c v }
@[simps] def setNext (C : Cells) (c v : Nat) : Cells := { C with next := Function.update C.next c v }
@[simps] def setSize (C : Cells) (c v : Nat) : Cells := { C with size := Function.update C.size c v }
@[simps] def setHd (C : Cells) (c v : Nat) : Cells := { C with hd := Function.update C.hd c v }
@[simps] def modDesc (C : Cells) (i : Nat) (g : Desc → Desc) : Cells :=
  { C with desc := Function.update C.desc i (g (C.desc i)) }

end Cells

/-- The word of the state page, or the global. -/
def stateWord (s : Mach) (off : Nat) (fallback : Nat) : Nat :=
  if (s.mem.ptr (GC_SDK_STATE_BASE + off) 4).isSome then s.mem.load (GC_SDK_STATE_BASE + off)
  else fallback

/-- Memory shows these cells and descriptors, and the recorded layout. -/
structure Shows (L : Layout) (s : Mach) (C : Cells) : Prop where
  fits : L.Fits s.mem
  array : stateWord s GC_SDK_OFF_OSALLOC_HEAP_ARRAY s.heapArray = L.array
  numHeaps : stateWord s GC_SDK_OFF_OSALLOC_NUM_HEAPS (toU32 s.numHeaps) = L.n
  numGlobal : s.numHeaps = L.n
  arenaStart : stateWord s GC_SDK_OFF_OSALLOC_ARENA_START s.arenaStart = L.first
  arenaEnd : stateWord s GC_SDK_OFF_OSALLOC_ARENA_END s.arenaEnd = L.stop
  desc : ∀ i < L.n, s.mem.load (L.desc i) = (C.desc i).size ∧
    s.mem.load (L.desc i + 4) = (C.desc i).free ∧ s.mem.load (L.desc i + 8) = (C.desc i).allocated
  cell : ∀ c, L.Cell c → s.mem.load c = C.prev c ∧ s.mem.load (c + 4) = C.next c ∧
    s.mem.load (c + 8) = C.size c ∧ s.mem.load (c + 12) = C.hd c

/-- The headers of the cells `A` and the descriptors of the heaps `I`. -/
def Written (L : Layout) (A I : Set Nat) : Set Nat :=
  {x | (∃ c ∈ A, c ≤ x ∧ x < c + 16) ∨ ∃ i ∈ I, L.desc i ≤ x ∧ x < L.desc i + 12}

/-- Nothing but bytes of `T` has changed. -/
structure Within (T : Set Nat) (s s' : Mach) : Prop where
  globals : s' = { s with mem := s'.mem }
  base : s'.mem.base = s.mem.base
  size : s'.mem.size = s.mem.size
  byte : ∀ x, s.mem.base ≤ x → x ∉ T → s'.mem.byte x = s.mem.byte x

/-- Memory shows `C`, and since `s₀` only the headers of `A` and descriptors of `I` were
written. -/
structure Holds (L : Layout) (A I : Set Nat) (s₀ s : Mach) (C : Cells) : Prop where
  shows : Shows L s C
  within : Within (Written L A I) s₀ s
  cells : ∀ c ∈ A, L.Cell c
  descs : ∀ i ∈ I, i < L.n

variable {L : Layout} {A I T : Set Nat} {s s₀ s' : Mach} {C : Cells} {c i v a : Nat}

theorem Within.refl (T : Set Nat) (s : Mach) : Within T s s := ⟨rfl, rfl, rfl, fun _ _ _ => rfl⟩

/-- A store to an address whose four bytes lie in `T`. -/
theorem Within.store (h : Within T s₀ s) (hT : ∀ x, a ≤ x → x < a + 4 → x ∈ T) (v : Nat) :
    Within T s₀ { s with mem := s.mem.store a v } := by
  refine ⟨?_, ?_, ?_, ?_⟩
  · show { s with mem := _ } = { s₀ with mem := _ }
    rw [h.globals]
  · rw [GcMem.store_base, h.base]
  · rw [GcMem.store_size, h.size]
  · intro x hx hxT
    have hout : x < a ∨ a + 4 ≤ x := by
      by_contra hn
      exact hxT (hT x (by omega) (by omega))
    rw [GcMem.byte_store (by rw [h.base]; exact hx) hout]
    exact h.byte x hx hxT

theorem Layout.Fits.store (h : L.Fits s.mem) (a v : Nat) : L.Fits (s.mem.store a v) := by
  have hm := h.maps
  exact ⟨h.nonnull, h.array_le, h.stop_le, h.hi_lt, h.count_lt, by simpa [GcMem.Maps] using hm,
    h.first_le, h.stop_aligned, h.page⟩

theorem Layout.Fits.maps_word {m : GcMem} (h : L.Fits m) (hlo : L.array ≤ a) (hhi : a + 4 ≤ L.hi) :
    m.Maps a (a + 4) := by
  obtain ⟨h₁, h₂⟩ := h.maps
  exact ⟨by omega, by omega⟩

/-- A store into the arena does not touch the state page. -/
theorem Shows.stateWord_store (h : L.Fits s.mem) (hlo : L.array ≤ a) (hhi : a + 4 ≤ L.hi) (v : Nat)
    {off fallback : Nat} (h₁ : GC_SDK_OFF_OS_CURR_HEAP ≤ off) (h₂ : off ≤ GC_SDK_OFF_OSALLOC_ARENA_END) :
    stateWord { s with mem := s.mem.store a v } off fallback = stateWord s off fallback := by
  have hpage := h.page
  unfold stateWord
  rw [GcMem.store_ptr, GcMem.load_store_other (by omega)]

/-- A store to one field of a cell or descriptor. -/
theorem Shows.store (h : Shows L s C) {C' : Cells} (hlo : L.array ≤ a) (hhi : a + 4 ≤ L.hi)
    (hd : ∀ i < L.n, (s.mem.store a v).load (L.desc i) = (C'.desc i).size ∧
      (s.mem.store a v).load (L.desc i + 4) = (C'.desc i).free ∧
      (s.mem.store a v).load (L.desc i + 8) = (C'.desc i).allocated)
    (hc : ∀ c, L.Cell c → (s.mem.store a v).load c = C'.prev c ∧
      (s.mem.store a v).load (c + 4) = C'.next c ∧ (s.mem.store a v).load (c + 8) = C'.size c ∧
      (s.mem.store a v).load (c + 12) = C'.hd c) :
    Shows L { s with mem := s.mem.store a v } C' := by
  refine ⟨h.fits.store a v, ?_, ?_, h.numGlobal, ?_, ?_, hd, hc⟩
  · rw [Shows.stateWord_store h.fits hlo hhi v (by decide) (by decide)]
    exact h.array
  · rw [Shows.stateWord_store h.fits hlo hhi v (by decide) (by decide)]
    exact h.numHeaps
  · rw [Shows.stateWord_store h.fits hlo hhi v (by decide) (by decide)]
    exact h.arenaStart
  · rw [Shows.stateWord_store h.fits hlo hhi v (by decide) (by decide)]
    exact h.arenaEnd

theorem Layout.Cell.apart {c' : Nat} (hc : L.Cell c) (hc' : L.Cell c') (hne : c' ≠ c) :
    c' + 32 ≤ c ∨ c + 32 ≤ c' := by
  obtain ⟨d, hd⟩ := hc.aligned
  obtain ⟨d', hd'⟩ := hc'.aligned
  omega

theorem Layout.Cell.desc_le (hc : L.Cell c) (hi : i < L.n) : L.desc i + 12 ≤ c := by
  have := hc.low
  unfold Layout.desc
  omega

/-- A store to one word of a cell header. -/
theorem Shows.storeCell (h : Shows L s C) {C' : Cells} (hc : L.Cell c) {k : Nat} (hk : k + 4 ≤ 16)
    (hd : C'.desc = C.desc)
    (hother : ∀ c', c' ≠ c → C'.prev c' = C.prev c' ∧ C'.next c' = C.next c' ∧
      C'.size c' = C.size c' ∧ C'.hd c' = C.hd c')
    (hself : (s.mem.store (c + k) v).load c = C'.prev c ∧
      (s.mem.store (c + k) v).load (c + 4) = C'.next c ∧
      (s.mem.store (c + k) v).load (c + 8) = C'.size c ∧
      (s.mem.store (c + k) v).load (c + 12) = C'.hd c) :
    Shows L { s with mem := s.mem.store (c + k) v } C' := by
  have hlow := hc.low
  have hhigh := hc.high
  have hstop := h.fits.stop_le
  refine h.store (by omega) (by omega) ?_ ?_
  · intro i hi
    have := hc.desc_le hi
    rw [GcMem.load_store_other (by omega), GcMem.load_store_other (by omega),
      GcMem.load_store_other (by omega), hd]
    exact h.desc i hi
  · intro c' hc'
    by_cases hne : c' = c
    · subst hne
      exact hself
    · have := hc.apart hc' hne
      rw [GcMem.load_store_other (by omega), GcMem.load_store_other (by omega),
        GcMem.load_store_other (by omega), GcMem.load_store_other (by omega)]
      obtain ⟨h₁, h₂, h₃, h₄⟩ := hother c' hne
      rw [h₁, h₂, h₃, h₄]
      exact h.cell c' hc'

theorem Shows.maps_cell (h : Shows L s C) (hc : L.Cell c) {k : Nat} (hk : k + 4 ≤ 16) :
    s.mem.Maps (c + k) (c + k + 4) := by
  have hlow := hc.low
  have hhigh := hc.high
  have hstop := h.fits.stop_le
  exact h.fits.maps_word (by omega) (by omega)

theorem Shows.setPrev (h : Shows L s C) (hc : L.Cell c) (hv : v < 2 ^ 32) :
    Shows L { s with mem := s.mem.store c v } (C.setPrev c v) := by
  obtain ⟨h₁, h₂, h₃, h₄⟩ := h.cell c hc
  refine h.storeCell hc (k := 0) (by decide) rfl ?_ ?_
  · intro c' hne
    simp [hne]
  · have hself := GcMem.load_store_self (h.maps_cell hc (k := 0) (by decide)) hv
    rw [Nat.add_zero] at hself ⊢
    rw [hself, GcMem.load_store_other (by omega), GcMem.load_store_other (by omega),
      GcMem.load_store_other (by omega)]
    simp [h₂, h₃, h₄]

theorem Shows.setNext (h : Shows L s C) (hc : L.Cell c) (hv : v < 2 ^ 32) :
    Shows L { s with mem := s.mem.store (c + 4) v } (C.setNext c v) := by
  obtain ⟨h₁, h₂, h₃, h₄⟩ := h.cell c hc
  refine h.storeCell hc (k := 4) (by decide) rfl ?_ ?_
  · intro c' hne
    simp [hne]
  · have hself := GcMem.load_store_self (h.maps_cell hc (k := 4) (by decide)) hv
    rw [hself, GcMem.load_store_other (by omega), GcMem.load_store_other (by omega),
      GcMem.load_store_other (by omega)]
    simp [h₁, h₃, h₄]

theorem Shows.setSize (h : Shows L s C) (hc : L.Cell c) (hv : v < 2 ^ 32) :
    Shows L { s with mem := s.mem.store (c + 8) v } (C.setSize c v) := by
  obtain ⟨h₁, h₂, h₃, h₄⟩ := h.cell c hc
  refine h.storeCell hc (k := 8) (by decide) rfl ?_ ?_
  · intro c' hne
    simp [hne]
  · have hself := GcMem.load_store_self (h.maps_cell hc (k := 8) (by decide)) hv
    rw [hself, GcMem.load_store_other (by omega), GcMem.load_store_other (by omega),
      GcMem.load_store_other (by omega)]
    simp [h₁, h₂, h₄]

theorem Shows.setHd (h : Shows L s C) (hc : L.Cell c) (hv : v < 2 ^ 32) :
    Shows L { s with mem := s.mem.store (c + 12) v } (C.setHd c v) := by
  obtain ⟨h₁, h₂, h₃, h₄⟩ := h.cell c hc
  refine h.storeCell hc (k := 12) (by decide) rfl ?_ ?_
  · intro c' hne
    simp [hne]
  · have hself := GcMem.load_store_self (h.maps_cell hc (k := 12) (by decide)) hv
    rw [hself, GcMem.load_store_other (by omega), GcMem.load_store_other (by omega),
      GcMem.load_store_other (by omega)]
    simp [h₁, h₂, h₃]

/-- A store to one word of a descriptor. -/
theorem Shows.storeDesc (h : Shows L s C) {g : Desc → Desc} (hi : i < L.n) {k : Nat} (hk : k + 4 ≤ 12)
    (hself : (s.mem.store (L.desc i + k) v).load (L.desc i) = (g (C.desc i)).size ∧
      (s.mem.store (L.desc i + k) v).load (L.desc i + 4) = (g (C.desc i)).free ∧
      (s.mem.store (L.desc i + k) v).load (L.desc i + 8) = (g (C.desc i)).allocated) :
    Shows L { s with mem := s.mem.store (L.desc i + k) v } (C.modDesc i g) := by
  have hfit := h.fits.array_le
  have hdi : L.desc i + 12 ≤ L.array + 12 * L.n := by
    unfold Layout.desc
    omega
  refine h.store (by unfold Layout.desc; omega) (by omega) ?_ ?_
  · intro j hj
    by_cases hne : j = i
    · subst hne
      simpa using hself
    · have hapart : L.desc j + 12 ≤ L.desc i ∨ L.desc i + 12 ≤ L.desc j := by
        unfold Layout.desc
        omega
      rw [GcMem.load_store_other (by omega), GcMem.load_store_other (by omega),
        GcMem.load_store_other (by omega)]
      simpa [hne] using h.desc j hj
  · intro c hc
    have := hc.desc_le hi
    rw [GcMem.load_store_other (by omega), GcMem.load_store_other (by omega),
      GcMem.load_store_other (by omega), GcMem.load_store_other (by omega)]
    exact h.cell c hc

theorem Shows.maps_desc (h : Shows L s C) (hi : i < L.n) {k : Nat} (hk : k + 4 ≤ 12) :
    s.mem.Maps (L.desc i + k) (L.desc i + k + 4) := by
  have hfit := h.fits.array_le
  have hdi : L.desc i + 12 ≤ L.array + 12 * L.n := by
    unfold Layout.desc
    omega
  exact h.fits.maps_word (by unfold Layout.desc; omega) (by omega)

theorem Shows.setDescSize (h : Shows L s C) (hi : i < L.n) (hv : v < 2 ^ 32) :
    Shows L { s with mem := s.mem.store (L.desc i) v } (C.modDesc i ({ · with size := v })) := by
  obtain ⟨h₁, h₂, h₃⟩ := h.desc i hi
  refine h.storeDesc hi (k := 0) (by decide) ?_
  have hself := GcMem.load_store_self (h.maps_desc hi (k := 0) (by decide)) hv
  rw [Nat.add_zero] at hself ⊢
  rw [hself, GcMem.load_store_other (by omega), GcMem.load_store_other (by omega)]
  exact ⟨rfl, h₂, h₃⟩

theorem Shows.setDescFree (h : Shows L s C) (hi : i < L.n) (hv : v < 2 ^ 32) :
    Shows L { s with mem := s.mem.store (L.desc i + 4) v } (C.modDesc i ({ · with free := v })) := by
  obtain ⟨h₁, h₂, h₃⟩ := h.desc i hi
  refine h.storeDesc hi (k := 4) (by decide) ?_
  have hself := GcMem.load_store_self (h.maps_desc hi (k := 4) (by decide)) hv
  rw [hself, GcMem.load_store_other (by omega), GcMem.load_store_other (by omega)]
  exact ⟨h₁, rfl, h₃⟩

theorem Shows.setDescAllocated (h : Shows L s C) (hi : i < L.n) (hv : v < 2 ^ 32) :
    Shows L { s with mem := s.mem.store (L.desc i + 8) v }
      (C.modDesc i ({ · with allocated := v })) := by
  obtain ⟨h₁, h₂, h₃⟩ := h.desc i hi
  refine h.storeDesc hi (k := 8) (by decide) ?_
  have hself := GcMem.load_store_self (h.maps_desc hi (k := 8) (by decide)) hv
  rw [hself, GcMem.load_store_other (by omega), GcMem.load_store_other (by omega)]
  exact ⟨h₁, h₂, rfl⟩

namespace Holds

theorem refl (h : Shows L s C) (hA : ∀ c ∈ A, L.Cell c) (hI : ∀ i ∈ I, i < L.n) :
    Holds L A I s s C := ⟨h, Within.refl _ s, hA, hI⟩

theorem cell_lt (h : Holds L A I s₀ s C) (hc : L.Cell c) : c + 32 < 2 ^ 32 := by
  have h₁ := hc.high
  have h₂ := h.shows.fits.stop_le
  have h₃ := h.shows.fits.hi_lt
  omega

theorem desc_lt (h : Holds L A I s₀ s C) (hi : i < L.n) : L.desc i + 12 < 2 ^ 32 := by
  have h₁ := h.shows.fits.array_le
  have h₂ := h.shows.fits.hi_lt
  unfold Layout.desc
  omega

theorem getPrev (h : Holds L A I s₀ s C) (hc : L.Cell c) :
    Gives (Holds L A I s₀) (loadU32be c s) (C.prev c) C := by
  rw [← (h.shows.cell c hc).1]
  exact ⟨s, rfl, h⟩

theorem getNext (h : Holds L A I s₀ s C) (hc : L.Cell c) :
    Gives (Holds L A I s₀) (loadU32be (u32 (c + 4)) s) (C.next c) C := by
  have := h.cell_lt hc
  rw [← (h.shows.cell c hc).2.1, u32, Nat.mod_eq_of_lt (by omega)]
  exact ⟨s, rfl, h⟩

theorem getSize (h : Holds L A I s₀ s C) (hc : L.Cell c) :
    Gives (Holds L A I s₀) (loadU32be (u32 (c + 8)) s) (C.size c) C := by
  have := h.cell_lt hc
  rw [← (h.shows.cell c hc).2.2.1, u32, Nat.mod_eq_of_lt (by omega)]
  exact ⟨s, rfl, h⟩

theorem setPrev (h : Holds L A I s₀ s C) (hc : c ∈ A) (hv : v < 2 ^ 32) :
    Gives (Holds L A I s₀) (storeU32be c v s) () (C.setPrev c v) := by
  refine ⟨_, rfl, h.shows.setPrev (h.cells c hc) hv, ?_, h.cells, h.descs⟩
  exact h.within.store (fun x h₁ h₂ => .inl ⟨c, hc, by omega, by omega⟩) v

theorem setNext (h : Holds L A I s₀ s C) (hc : c ∈ A) (hv : v < 2 ^ 32) :
    Gives (Holds L A I s₀) (storeU32be (u32 (c + 4)) v s) () (C.setNext c v) := by
  have := h.cell_lt (h.cells c hc)
  rw [u32, Nat.mod_eq_of_lt (by omega)]
  refine ⟨_, rfl, h.shows.setNext (h.cells c hc) hv, ?_, h.cells, h.descs⟩
  exact h.within.store (fun x h₁ h₂ => .inl ⟨c, hc, by omega, by omega⟩) v

theorem setSize (h : Holds L A I s₀ s C) (hc : c ∈ A) (hv : v < 2 ^ 32) :
    Gives (Holds L A I s₀) (storeU32be (u32 (c + 8)) v s) () (C.setSize c v) := by
  have := h.cell_lt (h.cells c hc)
  rw [u32, Nat.mod_eq_of_lt (by omega)]
  refine ⟨_, rfl, h.shows.setSize (h.cells c hc) hv, ?_, h.cells, h.descs⟩
  exact h.within.store (fun x h₁ h₂ => .inl ⟨c, hc, by omega, by omega⟩) v

theorem setHd (h : Holds L A I s₀ s C) (hc : c ∈ A) (hv : v < 2 ^ 32) :
    Gives (Holds L A I s₀) (storeU32be (u32 (c + 12)) v s) () (C.setHd c v) := by
  have := h.cell_lt (h.cells c hc)
  rw [u32, Nat.mod_eq_of_lt (by omega)]
  refine ⟨_, rfl, h.shows.setHd (h.cells c hc) hv, ?_, h.cells, h.descs⟩
  exact h.within.store (fun x h₁ h₂ => .inl ⟨c, hc, by omega, by omega⟩) v

theorem getDescSize (h : Holds L A I s₀ s C) (hi : i < L.n) :
    Gives (Holds L A I s₀) (loadU32be (L.desc i) s) (C.desc i).size C := by
  rw [← (h.shows.desc i hi).1]
  exact ⟨s, rfl, h⟩

theorem getFree (h : Holds L A I s₀ s C) (hi : i < L.n) :
    Gives (Holds L A I s₀) (loadU32be (u32 (L.desc i + 4)) s) (C.desc i).free C := by
  have := h.desc_lt hi
  rw [← (h.shows.desc i hi).2.1, u32, Nat.mod_eq_of_lt (by omega)]
  exact ⟨s, rfl, h⟩

theorem getAllocated (h : Holds L A I s₀ s C) (hi : i < L.n) :
    Gives (Holds L A I s₀) (loadU32be (u32 (L.desc i + 8)) s) (C.desc i).allocated C := by
  have := h.desc_lt hi
  rw [← (h.shows.desc i hi).2.2, u32, Nat.mod_eq_of_lt (by omega)]
  exact ⟨s, rfl, h⟩

theorem setDescSize (h : Holds L A I s₀ s C) (hi : i ∈ I) (hv : v < 2 ^ 32) :
    Gives (Holds L A I s₀) (storeU32be (L.desc i) v s) () (C.modDesc i ({ · with size := v })) := by
  refine ⟨_, rfl, h.shows.setDescSize (h.descs i hi) hv, ?_, h.cells, h.descs⟩
  exact h.within.store (fun x h₁ h₂ => .inr ⟨i, hi, by omega, by omega⟩) v

theorem setFree (h : Holds L A I s₀ s C) (hi : i ∈ I) (hv : v < 2 ^ 32) :
    Gives (Holds L A I s₀) (storeU32be (u32 (L.desc i + 4)) v s) ()
      (C.modDesc i ({ · with free := v })) := by
  have := h.desc_lt (h.descs i hi)
  rw [u32, Nat.mod_eq_of_lt (by omega)]
  refine ⟨_, rfl, h.shows.setDescFree (h.descs i hi) hv, ?_, h.cells, h.descs⟩
  exact h.within.store (fun x h₁ h₂ => .inr ⟨i, hi, by omega, by omega⟩) v

theorem setAllocated (h : Holds L A I s₀ s C) (hi : i ∈ I) (hv : v < 2 ^ 32) :
    Gives (Holds L A I s₀) (storeU32be (u32 (L.desc i + 8)) v s) ()
      (C.modDesc i ({ · with allocated := v })) := by
  have := h.desc_lt (h.descs i hi)
  rw [u32, Nat.mod_eq_of_lt (by omega)]
  refine ⟨_, rfl, h.shows.setDescAllocated (h.descs i hi) hv, ?_, h.cells, h.descs⟩
  exact h.within.store (fun x h₁ h₂ => .inr ⟨i, hi, by omega, by omega⟩) v

theorem getHeapArray (h : Holds L A I s₀ s C) :
    Gives (Holds L A I s₀) (OSAlloc.getHeapArray s) L.array C := by
  rw [← h.shows.array]
  exact ⟨s, rfl, h⟩

theorem getNumHeaps (h : Holds L A I s₀ s C) :
    Gives (Holds L A I s₀) (OSAlloc.getNumHeaps s) (L.n : Int) C := by
  refine ⟨s, ?_, h⟩
  have hn := h.shows.numHeaps
  have hlt := h.shows.fits.count_lt
  unfold stateWord at hn
  unfold OSAlloc.getNumHeaps stateLoadI32
  split
  · rename_i hp
    rw [if_pos hp] at hn
    rw [hn, toS32, if_pos hlt]
  · simp only [h.shows.numGlobal]

end Holds

/-- Two views agree on a cell. -/
structure Cells.Agree (C D : Cells) (c : Nat) : Prop where
  prev : D.prev c = C.prev c
  next : D.next c = C.next c
  size : D.size c = C.size c
  hd : D.hd c = C.hd c

theorem Within.trans (h : Within T s₀ s) (h' : Within T s s') : Within T s₀ s' := by
  refine ⟨?_, h'.base.trans h.base, h'.size.trans h.size, ?_⟩
  · rw [h'.globals, h.globals]
  · intro x hx hT
    rw [h'.byte x (by rw [h.base]; exact hx) hT, h.byte x hx hT]

theorem Within.mono {T' : Set Nat} (h : Within T s s') (hT : T ⊆ T') : Within T' s s' :=
  ⟨h.globals, h.base, h.size, fun x hx hn => h.byte x hx fun hm => hn (hT hm)⟩

theorem written_mono {B J : Set Nat} (hA : A ⊆ B) (hI : I ⊆ J) : Written L A I ⊆ Written L B J := by
  rintro x (⟨c, hc, hx⟩ | ⟨i, hi, hx⟩)
  · exact .inl ⟨c, hA hc, hx⟩
  · exact .inr ⟨i, hI hi, hx⟩

namespace Holds

variable {B J : Set Nat} {D : Cells} {x : Nat}

/-- Running on from a later state. -/
theorem trans (h : Holds L A I s₀ s C) (h' : Holds L B J s s' D) (hB : B ⊆ A) (hJ : J ⊆ I) :
    Holds L A I s₀ s' D :=
  ⟨h'.shows, h.within.trans (h'.within.mono (written_mono hB hJ)), h.cells, h.descs⟩

/-- The bytes from the header of another cell on are not written. -/
theorem not_written_cell (h : Holds L A I s₀ s C) (hc : L.Cell c) (hA : c ∉ A) (h₁ : c ≤ x)
    (h₂ : x < c + 32) : x ∉ Written L A I := by
  rintro (⟨c', hc', hx⟩ | ⟨i, hi, hx⟩)
  · have := hc.apart (h.cells c' hc') (fun he => hA (he ▸ hc'))
    omega
  · have := hc.desc_le (h.descs i hi)
    omega

theorem not_written_desc (h : Holds L A I s₀ s C) (hi : i < L.n) (hI : i ∉ I) (h₁ : L.desc i ≤ x)
    (h₂ : x < L.desc i + 12) : x ∉ Written L A I := by
  rintro (⟨c, hc, hx⟩ | ⟨j, hj, hx⟩)
  · have := (h.cells c hc).desc_le hi
    omega
  · have hne : i ≠ j := fun he => hI (he ▸ hj)
    unfold Layout.desc at h₁ h₂ hx
    omega

/-- A word no byte of which is written. -/
theorem load_eq (h : Holds L A I s₀ s C) (hw : ∀ x, a ≤ x → x < a + 4 → x ∉ Written L A I) :
    s.mem.load a = s₀.mem.load a :=
  GcMem.load_congr h.within.base h.within.size fun x h₁ h₂ h₃ => h.within.byte x h₃ (hw x h₁ h₂)

/-- Cells that are not named keep their headers. -/
theorem agree (h : Holds L A I s₀ s D) (h₀ : Shows L s₀ C) (hc : L.Cell c) (hA : c ∉ A) :
    C.Agree D c := by
  obtain ⟨h₁, h₂, h₃, h₄⟩ := h.shows.cell c hc
  obtain ⟨k₁, k₂, k₃, k₄⟩ := h₀.cell c hc
  have hw : ∀ k ≤ 12, s.mem.load (c + k) = s₀.mem.load (c + k) := fun k hk =>
    h.load_eq fun x h₁ h₂ => h.not_written_cell hc hA (by omega) (by omega)
  refine ⟨?_, ?_, ?_, ?_⟩
  · rw [← h₁, ← k₁]
    exact hw 0 (by omega)
  · rw [← h₂, ← k₂, hw 4 (by omega)]
  · rw [← h₃, ← k₃, hw 8 (by omega)]
  · rw [← h₄, ← k₄, hw 12 (by omega)]

theorem desc_eq (h : Holds L A I s₀ s D) (h₀ : Shows L s₀ C) (hi : i < L.n) (hI : i ∉ I) :
    D.desc i = C.desc i := by
  obtain ⟨h₁, h₂, h₃⟩ := h.shows.desc i hi
  obtain ⟨k₁, k₂, k₃⟩ := h₀.desc i hi
  have hw : ∀ k ≤ 8, s.mem.load (L.desc i + k) = s₀.mem.load (L.desc i + k) := fun k hk =>
    h.load_eq fun x h₁ h₂ => h.not_written_desc hi hI (by omega) (by omega)
  have e₁ : (D.desc i).size = (C.desc i).size := by
    rw [← h₁, ← k₁]
    exact hw 0 (by omega)
  have e₂ : (D.desc i).free = (C.desc i).free := by
    rw [← h₂, ← k₂, hw 4 (by omega)]
  have e₃ : (D.desc i).allocated = (C.desc i).allocated := by
    rw [← h₃, ← k₃, hw 8 (by omega)]
  cases hD : D.desc i
  cases hC : C.desc i
  simp_all

end Holds

end SdkPort.OSAlloc
