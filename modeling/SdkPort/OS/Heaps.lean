import SdkPort.OS.CellLists

/-!
# Heaps as partitions

A heap is what its regions are cut into: free blocks in canonical order and allocated
blocks. The operations on heaps are those of `Blocks`, and keep the partition.
-/
namespace SdkPort.OSAlloc

open Linked (firstOf)
open Blocks (Block Canon cover total insertBlock takeFit cover_cons cover_append)

/-- A block that can be a cell. -/
structure Layout.Good (L : Layout) (b : Block) : Prop where
  cell : L.Cell b.addr
  aligned : 32 ∣ b.size
  least : 0x40 ≤ b.size
  stop_le : b.stop ≤ L.stop

/-- Regions of the arena cut into free and allocated cells. -/
structure Heap (L : Layout) where
  regions : List Block
  free : List Block
  alloc : List Block
  canon : Canon free
  good : ∀ b ∈ free ++ alloc, L.Good b
  cover_eq : ∀ x, cover (free ++ alloc) x = cover regions x
  once : ∀ x, cover regions x ≤ 1
  total_eq : total (free ++ alloc) = total regions
  total_lt : total regions < 2 ^ 31

variable {L : Layout}

theorem Layout.Good.merge {b n : Block} (hb : L.Good b) (hn : L.Good n) (ht : b.stop = n.addr) :
    L.Good ⟨b.addr, b.size + n.size⟩ := by
  refine ⟨hb.cell, (Nat.dvd_add_iff_right hb.aligned).mp hn.aligned, ?_, ?_⟩
  · have := hb.least
    show 0x40 ≤ b.size + n.size
    omega
  · have := hn.stop_le
    simp only [Block.stop] at ht this ⊢
    omega

/-- The two parts of a cell that is split. -/
theorem Layout.Good.split {b : Block} (hb : L.Good b) {req : Nat} (hr : 32 ∣ req) (h40 : 0x40 ≤ req)
    (hle : 0x40 ≤ b.size - req) :
    L.Good ⟨b.addr, req⟩ ∧ L.Good ⟨b.addr + req, b.size - req⟩ := by
  obtain ⟨⟨ha, hlow, hhigh⟩, hs, h₁, h₂⟩ := hb
  simp only [Block.stop] at h₂
  refine ⟨⟨⟨ha, hlow, hhigh⟩, hr, h40, ?_⟩, ⟨⟨?_, ?_, ?_⟩, ?_, hle, ?_⟩⟩
  · simp only [Block.stop]
    omega
  · exact (Nat.dvd_add_iff_right ha).mp hr
  · show L.array + 12 * L.n ≤ b.addr + req
    omega
  · show b.addr + req + 32 ≤ L.stop
    omega
  · exact Nat.dvd_sub hs hr
  · simp only [Block.stop]
    omega

namespace Heap

variable (h : Heap L)

theorem good_free {b : Block} (hb : b ∈ h.free) : L.Good b := h.good b (by simp [hb])
theorem good_alloc {b : Block} (hb : b ∈ h.alloc) : L.Good b := h.good b (by simp [hb])

theorem disjoint : (h.free ++ h.alloc).Pairwise Blocks.Disjoint := by
  refine Blocks.pairwise_disjoint (fun x => ?_) fun b hb => ?_
  · rw [h.cover_eq]
    exact h.once x
  · have := (h.good b hb).least
    omega

theorem nodup : (addrs (h.free ++ h.alloc)).Nodup := by
  rw [addrs, List.nodup_iff_pairwise_ne, List.pairwise_map]
  refine h.disjoint.imp_of_mem fun {b c} hb hc hd he => ?_
  have h₁ := (h.good b hb).least
  have h₂ := (h.good c hc).least
  simp only [Blocks.Disjoint, Block.stop] at hd
  omega

/-- Cells start outside the others. -/
theorem addr_apart {x : Nat} (hx : x ∈ addrs (h.free ++ h.alloc)) {b : Block}
    (hb : b ∈ h.free ++ h.alloc) : x ≤ b.addr ∨ b.stop ≤ x := by
  obtain ⟨c, hc, rfl⟩ := exists_of_mem_addrs hx
  have h₁ := (h.good b hb).least
  have h₂ := (h.good c hc).least
  by_cases he : c = b
  · exact .inl (by rw [he])
  · have := h.disjoint.forall hc hb he
    simp only [Blocks.Disjoint, Block.stop] at this ⊢
    omega

/-- The first byte of a cell lies in a region of the heap. -/
theorem covers {b : Block} (hb : b ∈ h.free ++ h.alloc) {x : Nat} (hx : b.Has x) :
    cover h.regions x ≠ 0 := by
  rw [← h.cover_eq]
  exact Nat.ne_of_gt (Blocks.cover_pos hb hx)

theorem length_lt : (h.free ++ h.alloc).length < 2 ^ 25 := by
  have h₁ := Blocks.mul_length_le_total fun b hb => (h.good b hb).least
  have h₂ := h.total_lt
  rw [h.total_eq] at h₁
  omega

theorem size_lt {b : Block} (hb : b ∈ h.free ++ h.alloc) : b.size < 2 ^ 31 := by
  have h₁ := Blocks.size_le_total hb
  have h₂ := h.total_lt
  rw [h.total_eq] at h₁
  omega

/-- A heap of one region, all of it free. -/
def created (r : Block) (hr : L.Good r) (hlt : r.size < 2 ^ 31) : Heap L where
  regions := [r]
  free := [r]
  alloc := []
  canon := Blocks.canon_cons.mpr ⟨by simp, by have := hr.least; omega, Blocks.canon_nil⟩
  good := by simpa using hr
  cover_eq := fun x => rfl
  once := fun x => by
    rw [cover_cons]
    split <;> simp
  total_eq := rfl
  total_lt := by simpa using hlt

theorem good_takeFit {req : Nat} {p : Block × List Block} (hp : takeFit 0x40 req h.free = some p)
    (hr : 32 ∣ req) (h40 : 0x40 ≤ req) : ∀ b ∈ p.2 ++ p.1 :: h.alloc, L.Good b := by
  have hfree := Blocks.forall_takeFit (P := L.Good) hp (fun b hb => h.good_free hb)
    fun b hb _ hle => hb.split hr h40 hle
  intro b hb
  simp only [List.mem_append, List.mem_cons] at hb
  rcases hb with hb | rfl | hb
  · exact hfree.2 b hb
  · exact hfree.1
  · exact h.good_alloc hb

/-- A heap after first fit has handed out a block. -/
def taken {req : Nat} {p : Block × List Block} (hp : takeFit 0x40 req h.free = some p)
    (hr : 32 ∣ req) (h40 : 0x40 ≤ req) : Heap L where
  regions := h.regions
  free := p.2
  alloc := p.1 :: h.alloc
  canon := Blocks.canon_takeFit hp h.canon (Nat.succ_pos 63)
  good := h.good_takeFit hp hr h40
  cover_eq := fun x => by
    have := Blocks.takeFit_cover hp x
    rw [← h.cover_eq, cover_append, cover_append, cover_cons, ← this, cover_cons]
    omega
  once := h.once
  total_eq := by
    have := Blocks.takeFit_total hp
    rw [← h.total_eq, Blocks.total_append, Blocks.total_append, Blocks.total_cons, ← this]
    omega
  total_lt := h.total_lt

/-- A block that no block of the list touches upon can be put back among the free ones. -/
theorem canon_put {b : Block} {l : List Block} (hl : Canon l) (hb : 0 < b.size)
    (hc : ∀ x, cover (b :: l) x ≤ 1) : Canon (insertBlock b l) := by
  have hd := Blocks.pairwise_disjoint hc fun c hm => by
    rcases List.mem_cons.mp hm with rfl | hm
    · exact hb
    · exact hl.pos c hm
  exact Blocks.canon_insertBlock hl hb (List.pairwise_cons.mp hd).1

/-- A heap after an allocated block has been given back. -/
def released {b : Block} (hb : b ∈ h.alloc) : Heap L where
  regions := h.regions
  free := insertBlock b h.free
  alloc := h.alloc.erase b
  canon := by
    refine canon_put h.canon (by have := (h.good_alloc hb).least; omega) fun x => ?_
    have h₁ := h.once x
    have h₂ := Blocks.cover_perm (List.perm_cons_erase hb) x
    rw [← h.cover_eq, cover_append, h₂, cover_cons] at h₁
    rw [cover_cons]
    omega
  good := by
    intro c hc
    rcases List.mem_append.mp hc with hc | hc
    · exact Blocks.forall_insertBlock (P := L.Good) (fun b n hb hn => hb.merge hn) (h.good_alloc hb)
        (fun n hn => h.good_free hn) c hc
    · exact h.good_alloc (List.mem_of_mem_erase hc)
  cover_eq := fun x => by
    have := Blocks.cover_perm (List.perm_cons_erase hb) x
    rw [← h.cover_eq, cover_append, cover_append, Blocks.cover_insertBlock, this, cover_cons, cover_cons]
    omega
  once := h.once
  total_eq := by
    have := Blocks.total_perm (List.perm_cons_erase hb)
    rw [← h.total_eq, Blocks.total_append, Blocks.total_append, Blocks.total_insertBlock, this,
      Blocks.total_cons]
    omega
  total_lt := h.total_lt

/-- A heap with another region, all of it free. -/
def extended {r : Block} (hr : L.Good r) (hd : ∀ x, r.Has x → cover h.regions x = 0)
    (hlt : total h.regions + r.size < 2 ^ 31) : Heap L where
  regions := r :: h.regions
  free := insertBlock r h.free
  alloc := h.alloc
  canon := by
    refine canon_put h.canon (by have := hr.least; omega) fun x => ?_
    have h₁ := h.once x
    rw [← h.cover_eq, cover_append] at h₁
    rw [cover_cons]
    split
    · rename_i hx
      have h₂ := hd x hx
      rw [← h.cover_eq, cover_append] at h₂
      omega
    · omega
  good := by
    intro c hc
    rcases List.mem_append.mp hc with hc | hc
    · exact Blocks.forall_insertBlock (P := L.Good) (fun b n hb hn => hb.merge hn) hr
        (fun n hn => h.good_free hn) c hc
    · exact h.good_alloc hc
  cover_eq := fun x => by
    rw [cover_cons, ← h.cover_eq, cover_append, cover_append, Blocks.cover_insertBlock, cover_cons]
    omega
  once := fun x => by
    rw [cover_cons]
    split
    · rename_i hx
      have := hd x hx
      omega
    · exact h.once x
  total_eq := by
    rw [Blocks.total_cons, ← h.total_eq, Blocks.total_append, Blocks.total_append,
      Blocks.total_insertBlock]
    omega
  total_lt := by
    rw [Blocks.total_cons]
    omega

/-- The lists of a descriptor hold the heap. -/
structure At (C : Cells) (i : Nat) : Prop where
  free : Strand C 0 h.free 0
  alloc : Strand C 0 h.alloc 0
  desc : C.desc i = ⟨total h.regions, firstOf 0 (addrs h.free), firstOf 0 (addrs h.alloc)⟩

/-- The cells of a heap before and after an operation. -/
def Touched (h' : Heap L) : Set Nat :=
  {x | x ∈ addrs (h.free ++ h.alloc) ∨ x ∈ addrs (h'.free ++ h'.alloc)}

theorem cell_of_mem {x : Nat} (hx : x ∈ addrs (h.free ++ h.alloc)) : L.Cell x := by
  obtain ⟨b, hb, rfl⟩ := List.mem_map.mp hx
  exact (h.good b hb).cell

theorem cell_of_touched {h' : Heap L} {x : Nat} (hx : x ∈ h.Touched h') : L.Cell x := by
  rcases hx with hx | hx
  · exact h.cell_of_mem hx
  · exact h'.cell_of_mem hx

end Heap

/-- The state in which a descriptor holds a heap and, apart from that descriptor, only headers
of `A` were written. -/
def Lands (A : Set Nat) (i : Nat) (s s' : Mach) (h : Heap L) : Prop :=
  ∃ D, Holds L A {i} s s' D ∧ h.At D i

/-- One heap has become another and nothing else was written. -/
def Heap.Becomes (h : Heap L) (i : Nat) (s s' : Mach) (h' : Heap L) : Prop :=
  Lands (h.Touched h') i s s' h'

end SdkPort.OSAlloc
