import SdkPort.OS.HeapSteps

/-!
# The partition invariant

In every state of a run the lists of a heap, as memory has them, cut the ranges given to the
heap into cells, and `OSCheckHeap` accepts them.
-/
namespace SdkPort.OSAlloc

open Gc (u32 GcMem)
open Linked (firstOf Seg)
open Runs (Gives)
open Blocks (Block cover total)

/-- The cells met from a head along the links, at most `n` of them. -/
def cellsFrom (m : GcMem) : Nat → Nat → List Block
  | 0, _ => []
  | n + 1, cell =>
    if cell = 0 then []
    else ⟨cell, m.load (u32 (cell + 8))⟩ :: cellsFrom m n (m.load (u32 (cell + 4)))

/-- The two lists of a heap. -/
def freeList (L : Layout) (s : Mach) (i : Nat) : List Block :=
  cellsFrom s.mem cellFuel (s.mem.load (L.desc i + 4))
def allocList (L : Layout) (s : Mach) (i : Nat) : List Block :=
  cellsFrom s.mem cellFuel (s.mem.load (L.desc i + 8))

/-- The cells of a list are linked both ways, from its head to null. -/
structure LinkedBothWays (m : GcMem) (head : Nat) (l : List Block) : Prop where
  head_eq : head = firstOf 0 (addrs l)
  seg : Seg (fun c => m.load (u32 (c + 4))) (fun c => m.load c) 0 (addrs l) 0

/-- A heap as memory has it is a partition of the regions in its account. -/
structure Partitioned (L : Layout) (s : Mach) (i : Nat) (a : Account) : Prop where
  free_linked : LinkedBothWays s.mem (s.mem.load (L.desc i + 4)) (freeList L s i)
  alloc_linked : LinkedBothWays s.mem (s.mem.load (L.desc i + 8)) (allocList L s i)
  free_ordered : (freeList L s i).Pairwise fun b c => b.stop < c.addr
  cells : ∀ b ∈ freeList L s i ++ allocList L s i, 32 ∣ b.addr ∧ 32 ∣ b.size ∧ 0x40 ≤ b.size
  cover : ∀ x, cover (freeList L s i ++ allocList L s i) x = cover a.regions x ∧ cover a.regions x ≤ 1
  recorded : s.mem.load (L.desc i) = total (freeList L s i ++ allocList L s i)
  live : a.live = (allocList L s i).map (·.addr + 0x20)
  check : OSCheckHeap i s = .ok (usable (freeList L s i), s) ∧ 0 ≤ usable (freeList L s i)

variable {L : Layout} {s s' : Mach} {G : Accounts} {C : Cells} {i n p : Nat} {l : List Block}
  {H : Nat → Option (Heap L)} {lo hi : Nat} {maxHeaps : Int}

/-- The words of a cell at the addresses the code computes. -/
theorem Shows.words (hs : Shows L s C) {c : Nat} (hc : L.Cell c) :
    s.mem.load c = C.prev c ∧ s.mem.load (u32 (c + 4)) = C.next c ∧ s.mem.load (u32 (c + 8)) = C.size c := by
  have h₁ := hc.high
  have h₂ := hs.stop_lt
  obtain ⟨hp, hn, hz, _⟩ := hs.cell c hc
  rw [u32, u32, Nat.mod_eq_of_lt (by omega), Nat.mod_eq_of_lt (by omega)]
  exact ⟨hp, hn, hz⟩

theorem Shows.cellsFrom (hs : Shows L s C) (hl : Strand C p l 0) (hc : ∀ x ∈ addrs l, L.Cell x)
    (h0 : 0 ∉ addrs l) (hn : l.length < n) : cellsFrom s.mem n (firstOf 0 (addrs l)) = l := by
  induction l generalizing p n with
  | nil =>
    obtain ⟨n, rfl⟩ := Nat.exists_eq_succ_of_ne_zero (Nat.ne_of_gt (Nat.zero_lt_of_lt hn))
    rfl
  | cons b l ih =>
    obtain ⟨n, rfl⟩ := Nat.exists_eq_succ_of_ne_zero (Nat.ne_of_gt (Nat.zero_lt_of_lt hn))
    obtain ⟨_, hnext, hsize, hl'⟩ := strand_cons.mp hl
    simp only [addrs_cons, List.mem_cons, not_or] at h0 hc
    obtain ⟨_, h₁, h₂⟩ := hs.words (hc b.addr (.inl rfl))
    rw [addrs_cons, Linked.firstOf_cons, OSAlloc.cellsFrom, if_neg (Ne.symm h0.1), h₁, h₂, hnext, hsize,
      ih hl' (fun x hx => hc x (.inr hx)) h0.2 (Nat.lt_of_succ_lt_succ hn)]

theorem Shows.linkedBothWays (hs : Shows L s C) (hl : Strand C 0 l 0) (hc : ∀ x ∈ addrs l, L.Cell x)
    {head : Nat} (hh : head = firstOf 0 (addrs l)) : LinkedBothWays s.mem head l :=
  ⟨hh, Linked.seg_congr hl.seg (fun x hx => (hs.words (hc x hx)).2.1) fun x hx => (hs.words (hc x hx)).1⟩

/-- The lists in memory are those of the heap. -/
theorem Tracks.lists (hT : Tracks L s G C H) {h : Heap L} (hh : H i = some h) :
    freeList L s i = h.free ∧ allocList L s i = h.alloc := by
  obtain ⟨hi, hat⟩ := hT.live i h hh
  obtain ⟨_, h₁, h₂⟩ := hT.shows.desc i hi
  have hlen := h.length_lt
  rw [List.length_append] at hlen
  have hfuel : h.free.length < cellFuel ∧ h.alloc.length < cellFuel := by
    unfold cellFuel
    omega
  have hs₀ : Holds L ∅ ∅ s s C := .refl hT.shows (by simp) (by simp)
  have hc : ∀ x ∈ addrs (h.free ++ h.alloc), L.Cell x := fun x hx => h.cell_of_mem hx
  simp only [addrs_append, List.mem_append] at hc
  constructor
  · rw [freeList, h₁, hat.desc]
    exact hT.shows.cellsFrom hat.free (fun x hx => hc x (.inl hx))
      (fun hm => hs₀.not_cell_zero (hc 0 (.inl hm))) hfuel.1
  · rw [allocList, h₂, hat.desc]
    exact hT.shows.cellsFrom hat.alloc (fun x hx => hc x (.inr hx))
      (fun hm => hs₀.not_cell_zero (hc 0 (.inr hm))) hfuel.2

/-- Nothing written is nothing changed. -/
theorem Within.eq_self (h : Within ∅ s s') : s' = s := by
  have hm : s'.mem = s.mem := by
    have hbuf : s'.mem.buf = s.mem.buf := by
      funext k
      have := h.byte (s.mem.base + k) (by omega) (Set.notMem_empty _)
      simpa [GcMem.byte, h.base] using this
    have hb := h.base
    have hz := h.size
    cases hs' : s'.mem
    cases hs : s.mem
    simp_all
  rw [h.globals, hm]

theorem written_empty (L : Layout) : Written L ∅ ∅ = ∅ := by
  ext x
  simp [Written]

theorem usable_nonneg (h : ∀ b ∈ l, 0x40 ≤ b.size) : 0 ≤ usable l := by
  induction l with
  | nil => simp
  | cons b l ih =>
    obtain ⟨hb, hl⟩ := List.forall_mem_cons.mp h
    have hrest := ih hl
    rw [usable_cons]
    omega

theorem Tracks.partitioned (hT : Tracks L s G C H) {a : Account} (ha : G i = some a) :
    Partitioned L s i a := by
  rw [hT.account, Option.map_eq_some_iff] at ha
  obtain ⟨h, hh, rfl⟩ := ha
  obtain ⟨hi, hat⟩ := hT.live i h hh
  obtain ⟨hf, hl⟩ := hT.lists hh
  obtain ⟨h₀, h₁, h₂⟩ := hT.shows.desc i hi
  have hc : ∀ x ∈ addrs (h.free ++ h.alloc), L.Cell x := fun x hx => h.cell_of_mem hx
  simp only [addrs_append, List.mem_append] at hc
  obtain ⟨s', hrun, hheld⟩ := h.check_gives (.refl hT.shows (A := ∅) (I := ∅) (by simp) (by simp)) hi hat
  have hsame : s' = s := Within.eq_self (by have := hheld.within; rwa [written_empty] at this)
  refine ⟨?_, ?_, ?_, ?_, ?_, ?_, ?_, ?_⟩
  · rw [hf]
    exact hT.shows.linkedBothWays hat.free (fun x hx => hc x (.inl hx)) (by rw [h₁, hat.desc])
  · rw [hl]
    exact hT.shows.linkedBothWays hat.alloc (fun x hx => hc x (.inr hx)) (by rw [h₂, hat.desc])
  · rw [hf]
    exact h.canon.apart
  · rw [hf, hl]
    exact fun b hb => ⟨(h.good b hb).cell.aligned, (h.good b hb).aligned, (h.good b hb).least⟩
  · rw [hf, hl]
    exact fun x => ⟨h.cover_eq x, h.once x⟩
  · rw [hf, hl, h₀, hat.desc, h.total_eq]
  · rw [hl]
    rfl
  · rw [hf, ← hsame]
    exact ⟨hsame ▸ hrun, usable_nonneg fun b hb => (h.good_free hb).least⟩

/-- The heaps that exist are those with an account; each is a partition, and no allowed call
fails. -/
theorem reached_partitioned (h : Reached lo hi maxHeaps s G) :
    (∀ i a, G i = some a → Partitioned (layoutOf lo hi maxHeaps) s i a) ∧
      (∀ i < maxHeaps.toNat, G i = none ↔ 2 ^ 31 ≤ s.mem.load ((layoutOf lo hi maxHeaps).desc i)) ∧
      ∀ c : Call, c.Allowed (layoutOf lo hi maxHeaps) G → ∃ v s', c.run s = .ok (v, s') := by
  obtain ⟨C, H, hT⟩ := h.tracks
  refine ⟨fun i a ha => hT.partitioned ha, ?_, ?_⟩
  · intro i hi
    rw [(hT.shows.desc i hi).1, hT.account, Option.map_eq_none_iff]
    constructor
    · exact hT.dead i hi
    · intro hd
      cases hH : H i with
      | none => rfl
      | some h =>
        have := h.total_lt
        rw [(hT.live i h hH).2.desc] at hd
        exact absurd hd (by simp only; omega)
  · intro c hc
    obtain ⟨v, s', _, _, hl⟩ := hT.step hc
    exact ⟨v, s', hl.run⟩

/-- Two heaps, one of two ranges, with holes in both. -/
def holes : List Call :=
  [.create 0x80000101 0x8000041F, .create 0x80000400 0x80000800, .alloc 0 0x20, .alloc 0 0x61,
    .alloc 1 0x100, .alloc 0 0x20, .free 0 0x80000180, .addToHeap 0 0x80000800 0x80000900,
    .alloc 0 0x7FFFFFC0]

theorem smallArena : Arena ⟨0x80000000, 0x80001000 - 0x80000000, fun _ => 0⟩ 0x80000000 0x80001000 2 :=
  ⟨by decide, by decide, by decide, by decide, ⟨by decide, by decide⟩, by decide⟩

theorem holes_run : ((runArena 0x80000000 0x80001000 2 holes).map fun p => (p.2 0).map (·.live)) =
    some (some [0x80000220, 0x80000140]) := by decide +kernel

theorem holes_partitioned : ∃ s G, (runArena 0x80000000 0x80001000 2 holes = some (s, G) ∧
      (G 0).map (·.live) = some [0x80000220, 0x80000140]) ∧
    (∀ i a, G i = some a → Partitioned (layoutOf 0x80000000 0x80001000 2) s i a) ∧
    (∀ i < (2 : Int).toNat, G i = none ↔
      2 ^ 31 ≤ s.mem.load ((layoutOf 0x80000000 0x80001000 2).desc i)) ∧
    ∀ c : Call, c.Allowed (layoutOf 0x80000000 0x80001000 2) G → ∃ v s', c.run s = .ok (v, s') := by
  obtain ⟨⟨s, G⟩, hs, hl⟩ := Option.map_eq_some_iff.mp holes_run
  exact ⟨s, G, ⟨hs, hl⟩, reached_partitioned (reached_runArena smallArena hs)⟩

end SdkPort.OSAlloc
