import SdkPort.OS.HeapOps

/-!
# Giving regions to heaps

`OSCreateHeap`, `OSAddToHeap` and `OSDestroyHeap` on ranges of the arena, in memory and on
partitions.
-/
namespace SdkPort.OSAlloc

open Gc (u32)
open Linked (firstOf)
open Runs (Gives gives_bind gives_pure)
open Blocks (Block cover total)
open OSThread (toS32 toU32)

variable {L : Layout} {A I : Set Nat} {s s₀ : Mach} {C : Cells} {i start stop : Nat}

/-- The range left of the given one after rounding inwards. -/
def rangeOf (start stop : Nat) : Block :=
  ⟨roundUp start ALIGNMENT, roundDown stop ALIGNMENT - roundUp start ALIGNMENT⟩

/-- The size as the code computes it. -/
theorem rangeOf_size (hL : L.stop < 2 ^ 32) (hr : L.Good (rangeOf start stop)) :
    u32 (roundDown stop ALIGNMENT + 2 ^ 32 - roundUp start ALIGNMENT) = (rangeOf start stop).size := by
  have h₁ := hr.least
  have h₂ := hr.stop_le
  simp only [rangeOf, Block.stop] at h₁ h₂ ⊢
  rw [u32]
  omega

theorem Shows.stop_lt (hs : Shows L s C) : L.stop < 2 ^ 32 := by
  have h₁ := hs.fits.stop_le
  have h₂ := hs.fits.hi_lt
  omega

theorem addS32_ok {a b : Nat} (h : a + b < 2 ^ 31) : addS32 a b s = .ok (((a + b : Nat) : Int), s) := by
  rw [addS32, if_pos (by omega)]
  rfl

theorem toU32_natCast {v : Nat} (h : v < 2 ^ 32) : toU32 v = v := by
  rw [toU32]
  omega

namespace Heap

variable (h : Heap L)

/-- A range added to a heap is one more region of it. -/
theorem add_gives (hs : Shows L s C) (hi : i < L.n) (hat : h.At C i)
    (hr : L.Good (rangeOf start stop)) (hd : ∀ x, (rangeOf start stop).Has x → cover h.regions x = 0)
    (hlt : total h.regions + (rangeOf start stop).size < 2 ^ 31) :
    Gives (Lands {x | x = (rangeOf start stop).addr ∨ x ∈ h.Touched (h.extended hr hd hlt)} i s)
      (OSAddToHeap i start stop s) () (h.extended hr hd hlt) := by
  have hsize := rangeOf_size hs.stop_lt hr
  have hstart : roundUp start ALIGNMENT = (rangeOf start stop).addr := rfl
  rw [hstart] at hsize
  generalize hh' : h.extended hr hd hlt = h'
  generalize rangeOf start stop = r at *
  have hfree' : h'.free = Blocks.insertBlock r h.free := hh' ▸ rfl
  have halloc' : h'.alloc = h.alloc := hh' ▸ rfl
  have hregions : h'.regions = r :: h.regions := hh' ▸ rfl
  have hs₀ : Holds L {x | x = r.addr ∨ x ∈ h.Touched h'} {i} s s C := by
    refine .refl hs (fun c hc => ?_) (by simpa using hi)
    rcases hc with rfl | hc
    · exact hr.cell
    · exact h.cell_of_touched hc
  have hdesc := hat.desc
  have hlt' := h.total_lt
  have hlen := h.length_lt
  rw [List.length_append] at hlen
  have hrc : r.addr ∉ addrs (h.free ++ h.alloc) := by
    intro hm
    obtain ⟨b, hb, he⟩ := exists_of_mem_addrs hm
    have := hr.least
    have := (h.good b hb).least
    refine h.covers hb (x := r.addr) ?_ (hd _ ?_)
    · simp only [Block.Has, Block.stop]
      omega
    · simp only [Block.Has, Block.stop]
      omega
  have hnd : (addrs ((r :: h.free) ++ h.alloc)).Nodup := List.nodup_cons.mpr ⟨hrc, h.nodup⟩
  have hTf : ∀ x ∈ addrs (r :: h.free), x = r.addr ∨ x ∈ h.Touched h' := by
    intro x hx
    simp only [addrs_cons, List.mem_cons] at hx
    rcases hx with rfl | hx
    · exact .inl rfl
    · exact .inr (.inl (by simp [hx]))
  have hstop : ∀ n ∈ r :: h.free, n.stop ≤ L.stop := by
    intro n hn
    rcases List.mem_cons.mp hn with rfl | hn
    · exact hr.stop_le
    · exact (h.good_free hn).stop_le
  have hfuel : h.free.length < cellFuel := by
    unfold cellFuel
    omega
  simp only [addrs_append, List.mem_append, not_or] at hrc
  unfold OSAddToHeap
  refine gives_bind (hs₀.openHeap hi (by rw [hdesc]; exact hlt')) fun s₁ h₁ => ?_
  simp only [hstart, hsize]
  refine gives_bind (h₁.setSize (.inl rfl) (by omega)) fun s₂ h₂ => ?_
  refine gives_bind (h₂.setHd (.inl rfl) (by decide)) fun s₃ h₃ => ?_
  refine gives_bind (gives_bind (h₃.getDescSize hi) fun s₄ h₄ => gives_pure _ h₄) fun s₄ h₄ => ?_
  rw [toS32_of_lt (v := r.size) (by omega), Cells.setHd_desc, Cells.setSize_desc, hdesc,
    toS32_of_lt hlt']
  refine gives_bind ⟨s₄, addS32_ok hlt, h₄⟩ fun s₅ h₅ => ?_
  rw [toU32_natCast (by omega)]
  refine gives_bind (h₅.setDescSize rfl (by omega)) fun s₆ h₆ => ?_
  obtain ⟨s₇, hrun, E, h₇, hf₇, hl₇, hd₇⟩ := h₆.pushFree (b := r) (z := total h.regions + r.size) rfl
    ((hat.free.setSize hrc.1 r.size).congr (fun _ _ => rfl) (fun _ _ => rfl) fun _ _ => rfl) h.canon
    ((hat.alloc.setSize hrc.2 r.size).congr (fun _ _ => rfl) (fun _ _ => rfl) fun _ _ => rfl)
    (by simp) (by simp [hdesc]) hTf (fun x hx => h.cell_of_mem (by simp [hx])) hnd hstop hfuel
  refine ⟨s₇, hrun, E, h₇, ?_⟩
  rw [← hfree'] at hf₇ hd₇
  rw [← halloc'] at hl₇ hd₇
  exact ⟨hf₇, hl₇, by rw [hd₇, hregions, Blocks.total_cons, Nat.add_comm]⟩

end Heap

/-- The search of `OSCreateHeap` with all descriptors from `j` on in use. -/
theorem Holds.createScan_none (h : Holds L A I s₀ s C) {k j : Nat} (hj : j + k = L.n) {r e : Nat}
    (hlive : ∀ i < L.n, (C.desc i).size < 2 ^ 31) :
    Gives (Holds L A I s₀) (createScan r e L.array k j s) (-1) C := by
  induction k generalizing s j with
  | zero =>
    rw [createScan]
    exact gives_pure _ h
  | succ k ih =>
    have hd := hlive j (by omega)
    rw [createScan, h.heapDesc (by omega)]
    refine gives_bind (gives_bind (h.getDescSize (by omega)) fun s₁ h₁ => gives_pure _ h₁) fun s₁ h₁ => ?_
    rw [toS32_of_lt hd, if_neg (by omega)]
    exact ih h₁ (j := j + 1) (by omega)

/-- No descriptor is left. -/
theorem Holds.create_none (h : Holds L A I s₀ s C) (start stop : Nat)
    (hlive : ∀ i < L.n, (C.desc i).size < 2 ^ 31) :
    Gives (Holds L A I s₀) (OSCreateHeap start stop s) (-1) C := by
  unfold OSCreateHeap
  refine gives_bind h.getHeapArray fun s₁ h₁ => gives_bind h₁.getNumHeaps fun s₂ h₂ => ?_
  exact h₂.createScan_none (j := 0) (by simp) hlive

/-- The search of `OSCreateHeap` up to the first descriptor that is not in use. -/
theorem Holds.createScan (h : Holds L A I s₀ s C) {r : Block} {e : Nat} (hr : L.Good r)
    (hlt : r.size < 2 ^ 31) (hsize : u32 (e + 2 ^ 32 - r.addr) = r.size) (hi : i < L.n) (hI : i ∈ I)
    (hA : r.addr ∈ A) (hdead : 2 ^ 31 ≤ (C.desc i).size) {k j : Nat} (hj : j + k = L.n) (hji : j ≤ i)
    (hlive : ∀ l < i, (C.desc l).size < 2 ^ 31) :
    Gives (fun s' h' => ∃ D, Holds L A I s₀ s' D ∧ h'.At D i)
      (OSAlloc.createScan r.addr e L.array k j s) i (Heap.created r hr hlt) := by
  induction k generalizing s j with
  | zero => omega
  | succ k ih =>
    rw [OSAlloc.createScan, h.heapDesc (by omega)]
    refine gives_bind (gives_bind (h.getDescSize (by omega)) fun s₁ h₁ => gives_pure _ h₁) fun s₁ h₁ => ?_
    by_cases he : j = i
    · subst he
      rw [if_pos (toS32_neg hdead (h.descSize_lt hi)), hsize]
      have hlt' := h.cell_lt hr.cell
      refine gives_bind (h₁.setDescSize hI (by omega)) fun s₂ h₂ => ?_
      refine gives_bind (h₂.setPrev hA (by decide)) fun s₃ h₃ => ?_
      refine gives_bind (h₃.setNext hA (by decide)) fun s₄ h₄ => ?_
      refine gives_bind (h₄.setSize hA (by omega)) fun s₅ h₅ => ?_
      refine gives_bind (h₅.setHd hA (by decide)) fun s₆ h₆ => ?_
      refine gives_bind (h₆.setFree hI (by omega)) fun s₇ h₇ => ?_
      refine gives_bind (h₇.setAllocated hI (by decide)) fun s₈ h₈ => ?_
      refine ⟨s₈, rfl, _, h₈, strand_cons.mpr ⟨?_, ?_, ?_, .nil _ _ _⟩, .nil _ _ _, ?_⟩
      · simp
      · simp
      · simp
      · simp [Heap.created]
    · rw [toS32_of_lt (hlive j (by omega)), if_neg (by omega)]
      exact ih h₁ (j := j + 1) (by omega) (by omega)

/-- A heap made of a range, at the first descriptor that is not in use. -/
theorem create_some (hs : Shows L s C) (hi : i < L.n) (hr : L.Good (rangeOf start stop))
    (hlt : (rangeOf start stop).size < 2 ^ 31) (hdead : 2 ^ 31 ≤ (C.desc i).size)
    (hlive : ∀ j < i, (C.desc j).size < 2 ^ 31) :
    Gives (Lands {(rangeOf start stop).addr} i s) (OSCreateHeap start stop s) i
      (Heap.created (rangeOf start stop) hr hlt) := by
  have hs₀ : Holds L {(rangeOf start stop).addr} {i} s s C :=
    .refl hs (by simpa using hr.cell) (by simpa using hi)
  unfold OSCreateHeap
  refine gives_bind hs₀.getHeapArray fun s₁ h₁ => gives_bind h₁.getNumHeaps fun s₂ h₂ => ?_
  exact h₂.createScan hr hlt (rangeOf_size hs.stop_lt hr) hi rfl rfl hdead (j := 0) (by simp) (by omega)
    hlive

/-- A heap is given up by its descriptor alone. -/
theorem Holds.destroy (h : Holds L A I s₀ s C) (hi : i < L.n) (hI : i ∈ I) :
    Gives (Holds L A I s₀) (OSDestroyHeap i s) () (C.modDesc i ({ · with size := 0xFFFFFFFF })) := by
  have h0 := h.shows.fits.nonnull
  unfold OSDestroyHeap
  refine gives_bind h.getHeapArray fun s₁ h₁ => gives_bind h₁.getNumHeaps fun s₂ h₂ => ?_
  rw [if_neg (by omega), h.heapDesc hi]
  exact h₂.setDescSize hI (by decide)

theorem Holds.destroy_none (h : Holds L A I s₀ s C) {heap : Int} (hn : ∀ i < L.n, heap ≠ i) :
    Gives (Holds L A I s₀) (OSDestroyHeap heap s) () C := by
  unfold OSDestroyHeap
  refine gives_bind h.getHeapArray fun s₁ h₁ => gives_bind h₁.getNumHeaps fun s₂ h₂ => ?_
  have hout : heap < 0 ∨ heap ≥ L.n := by
    by_contra hin
    exact hn heap.toNat (by omega) (by omega)
  rw [if_pos (.inr hout)]
  exact gives_pure () h₂

end SdkPort.OSAlloc
