import SdkPort.OS.HeapPartition

/-!
# Isolation of heaps

A call writes neither in memory that is in use nor in another heap.
-/
namespace SdkPort.OSAlloc

open Gc (u32 GcMem)
open Blocks (Block cover)

/-- What a call that returned `v` has left alone. -/
structure Isolated (L : Layout) (s s' : Mach) (G G' : Accounts) (c : Call) (v : Int) : Prop where
  /-- The bytes from a pointer in use to the end of its cell, unless it is given back. -/
  payload : ∀ (j : Nat) a, G j = some a → ∀ p ∈ a.live, c ≠ .free j p →
    ∀ x, p ≤ x → x < p - 0x20 + s.mem.load (p - 0x20 + 8) → s'.mem.byte x = s.mem.byte x
  descriptor : ∀ j < L.n, (j : Int) ≠ c.names v →
    ∀ x, L.desc j ≤ x → x < L.desc j + 12 → s'.mem.byte x = s.mem.byte x
  region : ∀ (j : Nat) a, (j : Int) ≠ c.names v → G j = some a →
    ∀ x, cover a.regions x ≠ 0 → s'.mem.byte x = s.mem.byte x
  lists : ∀ (j : Nat) a, (j : Int) ≠ c.names v → G j = some a →
    freeList L s' j = freeList L s j ∧ allocList L s' j = allocList L s j
  account : ∀ j : Nat, (j : Int) ≠ c.names v → G' j = G j

variable {L : Layout} {A I : Set Nat} {s s' : Mach} {G : Accounts} {C D : Cells} {c : Call} {v : Int}
  {H H' : Nat → Option (Heap L)} {lo hi : Nat} {maxHeaps : Int}

/-- A byte in a region of a heap lies in a cell of it. -/
theorem Heap.cell_at (h : Heap L) {x : Nat} (hx : cover h.regions x ≠ 0) :
    ∃ b ∈ h.free ++ h.alloc, b.Has x := by
  by_contra hn
  rw [← h.cover_eq] at hx
  exact hx (Blocks.cover_eq_zero.mpr fun b hb hbx => hn ⟨b, hb, hbx⟩)

/-- Cells lie behind the descriptors. -/
theorem Heap.not_desc (h : Heap L) {x : Nat} (hx : cover h.regions x ≠ 0) {j : Nat} (hj : j < L.n) :
    L.desc j + 12 ≤ x := by
  obtain ⟨b, hb, hbx⟩ := h.cell_at hx
  have := (h.good b hb).cell.desc_le hj
  simp only [Block.Has] at hbx
  omega

theorem Leads.isolated (hT : Tracks L s G C H) (hl : Leads L s G H c v s' D H') :
    Isolated L s s' G (c.settle G v) c v := by
  obtain ⟨A, he⟩ := hl.effect
  have hT' := hl.tracks
  have hheap : ∀ {j a}, G j = some a → ∃ h, H j = some h ∧ h.account = a := by
    intro j a ha
    rw [hT.account, Option.map_eq_some_iff] at ha
    exact ha
  have hbase : ∀ {x}, L.array ≤ x → s.mem.base ≤ x := fun hx =>
    Nat.le_trans hT.shows.fits.maps.1 hx
  have harray : ∀ {h : Heap L} {x}, cover h.regions x ≠ 0 → L.array ≤ x := by
    intro h x hx
    obtain ⟨b, hb, hbx⟩ := h.cell_at hx
    have := (h.good b hb).cell.low
    simp only [Block.Has] at hbx
    omega
  refine ⟨?_, ?_, ?_, ?_, ?_⟩
  · intro j a ha p hp hne x h₁ h₂
    obtain ⟨h, hh, rfl⟩ := hheap ha
    obtain ⟨b, hb, rfl⟩ := List.mem_map.mp hp
    obtain ⟨hjn, hat⟩ := hT.live j h hh
    have hg := h.good_alloc hb
    have hsize : s.mem.load (b.addr + 8) = b.size := by
      rw [(hT.shows.cell b.addr hg.cell).2.2.1]
      exact hat.alloc.size b hb
    rw [Nat.add_sub_cancel, hsize] at h₂
    have hx : b.Has x := by
      simp only [Block.Has, Block.stop]
      omega
    have hcov := h.covers (List.mem_append_right _ hb) hx
    refine he.within.byte x (hbase (harray hcov)) ?_
    rintro (⟨y, hy, h₃⟩ | ⟨k, ⟨hk, _⟩, h₃⟩)
    · by_cases hj : (j : Int) = c.names v
      · have := he.own y hy j hj h hh b hb hne
        simp only [Block.stop] at this
        omega
      · exact hcov (he.foreign y hy x h₃.1 (by omega) j hj h hh)
    · have := h.not_desc hcov hk
      omega
  · intro j hj hne x h₁ h₂
    refine he.within.byte x (hbase (by unfold Layout.desc at h₁; omega)) ?_
    rintro (⟨y, hy, h₃⟩ | ⟨k, ⟨hk, hkn⟩, h₃⟩)
    · have := (he.cells y hy).desc_le hj
      omega
    · have hjk : j ≠ k := fun hjk => hne (hjk ▸ hkn)
      unfold Layout.desc at h₁ h₂ h₃
      omega
  · intro j a hj ha x hx
    obtain ⟨h, hh, rfl⟩ := hheap ha
    refine he.within.byte x (hbase (harray hx)) ?_
    rintro (⟨y, hy, h₃⟩ | ⟨k, ⟨hk, _⟩, h₃⟩)
    · exact hx (he.foreign y hy x h₃.1 (by omega) j hj h hh)
    · have := h.not_desc hx hk
      omega
  · intro j a hj ha
    obtain ⟨h, hh, rfl⟩ := hheap ha
    have hh' : H' j = some h := (he.others j hj).trans hh
    obtain ⟨h₁, h₂⟩ := hT.lists hh
    obtain ⟨h₃, h₄⟩ := hT'.lists hh'
    exact ⟨h₃.trans h₁.symm, h₄.trans h₂.symm⟩
  · intro j hj
    rw [hT'.account, hT.account, he.others j hj]

/-- In every state of a run, every allowed call leaves alone what is in use and all other heaps. -/
theorem reached_isolated (h : Reached lo hi maxHeaps s G) (hc : c.Allowed (layoutOf lo hi maxHeaps) G)
    (hrun : c.run s = .ok (v, s')) : Isolated (layoutOf lo hi maxHeaps) s s' G (c.settle G v) c v := by
  obtain ⟨C, H, hT⟩ := h.tracks
  obtain ⟨w, s₁, D, H', hl⟩ := hT.step hc
  have hrun' := hl.run
  rw [hrun] at hrun'
  cases hrun'
  exact hl.isolated hT

/-- The last of the pointers of the first heap is given back. -/
theorem holes_isolated : ∃ s G v s', runArena 0x80000000 0x80001000 2 holes = some (s, G) ∧
    (Call.free 0 0x80000220).run s = .ok (v, s') ∧
    Isolated (layoutOf 0x80000000 0x80001000 2) s s' G ((Call.free 0 0x80000220).settle G v)
      (.free 0 0x80000220) v := by
  obtain ⟨⟨s, G⟩, hs, hl⟩ := Option.map_eq_some_iff.mp holes_run
  have hr := reached_runArena smallArena hs
  have hc : (Call.free 0 0x80000220).Allowed (layoutOf 0x80000000 0x80001000 2) G := by
    obtain ⟨a, ha, hp⟩ := Option.map_eq_some_iff.mp hl
    exact ⟨a, ha, by simp [hp]⟩
  obtain ⟨C, H, hT⟩ := hr.tracks
  obtain ⟨v, s', _, _, hlead⟩ := hT.step hc
  exact ⟨s, G, v, s', hs, hlead.run, reached_isolated hr hc hlead.run⟩

end SdkPort.OSAlloc
