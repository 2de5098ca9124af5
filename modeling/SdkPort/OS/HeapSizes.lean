import SdkPort.OS.HeapPartition

/-!
# Allocation for every size

`OSAllocFromHeap` adds the header to a size and rounds up as unsigned, and compares with the
sizes of the cells as signed. First fit is exact for every size but those just below 2^31,
for which the request comes out negative and every cell is large enough.
-/
namespace SdkPort.OSAlloc

open Gc (u32)
open Linked (firstOf)
open Runs (Gives gives_bind gives_pure run_bind_ok)
open Blocks (Block cover takeFit)
open OSThread (toS32)

variable {L : Layout} {s s' : Mach} {C : Cells} {i size p : Nat} {h : Heap L} {α β : Type}

/-- Memory holds a heap at a descriptor. -/
def InMemory (s : Mach) (i : Nat) (h : Heap L) : Prop := i < L.n ∧ ∃ C, Shows L s C ∧ h.At C i

/-- The size and the header, rounded up. -/
def need (size : Nat) : Nat := 32 * ((size + 0x20 + 31) / 32)

/-- A pointer returned for a size, and the memory after it, are what first fit gives: null if
the size is 0 or no free cell is large enough, and else the first such cell or its first part. -/
structure AllocExact (i : Nat) (h : Heap L) (size : Nat) (s : Mach) (p : Nat) (s' : Mach) : Prop where
  null : p = 0 ↔ size = 0 ∨ ∀ b ∈ h.free, b.size < need size
  unchanged : p = 0 → s' = s
  takes : p ≠ 0 → ∃ u b v, h.free = u ++ b :: v ∧ (∀ a ∈ u, a.size < need size) ∧ need size ≤ b.size ∧
    p = b.addr + 0x20 ∧ 32 ∣ p ∧ ∃ (h' : Heap L) (c : Block), InMemory s' i h' ∧ h'.regions = h.regions ∧
      h'.alloc = c :: h.alloc ∧ c.addr = b.addr ∧ size + 0x20 ≤ c.size ∧
      (∀ x, c.Has x → cover h.regions x ≠ 0) ∧
      ∀ d ∈ h'.free ++ h'.alloc, d ≠ c → Blocks.Disjoint c d

/-- A call returns, with what first fit gives. -/
def Allocates (i : Nat) (h : Heap L) (size : Nat) (s : Mach) : Prop :=
  ∃ p s', OSAllocFromHeap i size s = .ok (p, s') ∧ AllocExact i h size s p s'

theorem requestOf_eq (hsize : size ≤ 0x7FFFFFC0) : requestOf size = need size := by
  rw [requestOf, need, roundUp_eq, u32, u32]
  omega

/-- The request has crossed the sign. -/
theorem requestOf_big (h₁ : 0x7FFFFFC0 < size) (h₂ : size < 2 ^ 31) :
    2 ^ 31 ≤ requestOf size ∧ requestOf size < 2 ^ 32 := by
  rw [requestOf, roundUp_eq, u32, u32]
  omega

theorem Heap.lt_need (h : Heap L) (hsize : 0x7FFFFFC0 < size) : ∀ b ∈ h.free, b.size < need size := by
  intro b hb
  have := h.size_lt (List.mem_append_left h.alloc hb)
  rw [need]
  omega

section Returns

/-- A program that returns from every state. -/
def Returns (m : M α) : Prop := ∀ s, ∃ v s', m s = .ok (v, s')

theorem returns_load (a : Nat) : Returns (loadU32be a) := fun s => ⟨_, s, rfl⟩

theorem returns_store (a v : Nat) : Returns (storeU32be a v) := fun _ => ⟨_, _, rfl⟩

theorem returns_pure (v : α) : Returns (pure v : M α) := fun s => ⟨v, s, rfl⟩

theorem returns_bind {m : M α} {k : α → M β} (hm : Returns m) (hk : ∀ v, Returns (k v)) :
    Returns (m >>= k) := by
  intro s
  obtain ⟨v, s', h⟩ := hm s
  rw [run_bind_ok h]
  exact hk v s'

theorem returns_ite {c : Prop} [Decidable c] {m k : M α} (hm : Returns m) (hk : Returns k) :
    Returns (if c then m else k) := by
  by_cases h : c
  · rwa [if_pos h]
  · rwa [if_neg h]

theorem returns_takeWhole (hd cell : Nat) : Returns (takeWhole hd cell) := by
  apply returns_bind (returns_load _)
  intro cellPrev
  apply returns_bind (returns_load _)
  intro cellNext
  have hrest : Returns (if cellPrev = 0 then storeU32be (u32 (hd + 4)) cellNext
      else storeU32be (u32 (cellPrev + 4)) cellNext) := returns_ite (returns_store _ _) (returns_store _ _)
  exact returns_ite (returns_bind (returns_store _ _) fun _ => hrest) hrest

theorem returns_splitCell (hd cell req leftover : Nat) : Returns (splitCell hd cell req leftover) := by
  apply returns_bind (returns_load _)
  intro cellPrev
  apply returns_bind (returns_load _)
  intro cellNext
  iterate 5
    apply returns_bind (returns_store _ _)
    intro _
  have hrest : Returns (if cellPrev ≠ 0 then storeU32be (u32 (cellPrev + 4)) (u32 (cell + req))
      else storeU32be (u32 (hd + 4)) (u32 (cell + req))) :=
    returns_ite (returns_store _ _) (returns_store _ _)
  exact returns_ite (returns_bind (returns_store _ _) fun _ => hrest) hrest

theorem returns_addFront (list cell : Nat) : Returns (portDLAddFront list cell) := by
  apply returns_bind (returns_store _ _)
  intro _
  apply returns_bind (returns_store _ _)
  intro _
  exact returns_ite (returns_bind (returns_store _ _) fun _ => returns_pure cell) (returns_pure cell)

/-- A step that returns, before one that gives a result from every state. -/
theorem gives_of_returns {m : M α} {k : α → M β} {v : β} (hm : Returns m)
    (hk : ∀ x s', Gives (fun _ _ => True) (k x s') v ()) : Gives (fun _ _ => True) ((m >>= k) s) v () := by
  obtain ⟨x, s', h⟩ := hm s
  rw [run_bind_ok h]
  exact hk x s'

end Returns

/-- A size that is not positive as a signed number. -/
theorem alloc_nonpos (hsize : toS32 size ≤ 0) : OSAllocFromHeap i size s = .ok (0, s) := by
  rw [OSAllocFromHeap, if_pos hsize]
  rfl

/-- Without free cells there is nothing to compare with. -/
theorem Heap.alloc_full (h : Heap L) (hs : Shows L s C) (hi : i < L.n) (hat : h.At C i)
    (hpos : 0 < toS32 size) (hf : h.free = []) : OSAllocFromHeap i size s = .ok (0, s) := by
  have hs₀ : Holds L ∅ ∅ s s C := .refl hs (by simp) (by simp)
  have hd := hat.desc
  have hlt := h.total_lt
  have hgives : Gives (Holds L ∅ ∅ s) (OSAllocFromHeap i size s) 0 C := by
    unfold OSAllocFromHeap
    rw [if_neg (by omega)]
    apply gives_bind (hs₀.openHeap hi (by rw [hd]; exact hlt))
    intro s₁ h₁
    apply gives_bind (h₁.getFree hi)
    intro s₂ h₂
    rw [hd, hf]
    exact gives_pure 0 h₂
  obtain ⟨s', hrun, hheld⟩ := hgives
  have hsame : s' = s := Within.eq_self (by have := hheld.within; rwa [written_empty] at this)
  rw [hrun, hsame]

/-- A request that has crossed the sign takes the first free cell, whatever its size. -/
theorem Heap.alloc_crossed (h : Heap L) (hs : Shows L s C) (hi : i < L.n) (hat : h.At C i)
    (h₁ : 0x7FFFFFC0 < size) (h₂ : size < 2 ^ 31) {b : Block} {l : List Block} (hf : h.free = b :: l) :
    ∃ s', OSAllocFromHeap i size s = .ok (b.addr + 0x20, s') := by
  have hs₀ : Holds L ∅ ∅ s s C := .refl hs (by simp) (by simp)
  have hd := hat.desc
  have hlt := h.total_lt
  have hfree := hat.free
  rw [hf] at hfree hd
  have hb : b ∈ h.free := by simp [hf]
  have hcell := (h.good_free hb).cell
  have hcl := hs₀.cell_lt hcell
  have hbs := h.size_lt (List.mem_append_left h.alloc hb)
  obtain ⟨hr₁, hr₂⟩ := requestOf_big h₁ h₂
  obtain ⟨n, hn⟩ := Nat.exists_eq_succ_of_ne_zero (show cellFuel ≠ 0 by decide)
  have hgives : Gives (fun _ _ => True) (OSAllocFromHeap i size s) (b.addr + 0x20) () := by
    unfold OSAllocFromHeap
    rw [toS32_of_lt h₂, if_neg (by omega)]
    apply gives_bind (hs₀.openHeap hi (by rw [hd]; exact hlt))
    intro s₁ h₁
    apply gives_bind (h₁.getFree hi)
    intro s₂ h₂
    rw [hd, addrs_cons, Linked.firstOf_cons]
    -- the search ends at the first cell
    have hscan : Gives (Holds L ∅ ∅ s) (fitScan (requestOf size) cellFuel b.addr s₂) b.addr C := by
      rw [hn, fitScan, if_neg (h₂.cell_ne_zero hcell)]
      refine gives_bind (gives_bind (h₂.getSize hcell) fun s₃ h₃ => gives_pure _ h₃) fun s₃ h₃ => ?_
      have hneg := toS32_neg hr₁ hr₂
      rw [(strand_cons.mp hfree).2.2.1, toS32_of_lt hbs, if_pos (by omega)]
      exact gives_pure _ h₃
    apply gives_bind hscan
    intro s₃ h₃
    rw [if_neg (h₃.cell_ne_zero hcell)]
    apply gives_of_returns (returns_load _)
    intro cellSize s₄
    have hrest : ∀ s₅, Gives (fun _ _ => True) ((do
        let allocHead ← portDLAddFront (← loadU32be (u32 (L.desc i + 8))) b.addr
        storeU32be (u32 (b.addr + 12)) (L.desc i)
        storeU32be (u32 (L.desc i + 8)) allocHead
        pure (u32 (b.addr + 0x20)) : M Nat) s₅) (b.addr + 0x20) () := by
      intro s₅
      apply gives_of_returns (returns_load _)
      intro allocHead s₆
      apply gives_of_returns (returns_addFront _ _)
      intro newHead s₇
      apply gives_of_returns (returns_store _ _)
      intro _ s₈
      apply gives_of_returns (returns_store _ _)
      intro _ s₉
      rw [u32, Nat.mod_eq_of_lt (by omega)]
      exact gives_pure _ trivial
    dsimp only
    split
    · exact gives_of_returns (returns_takeWhole _ _) fun _ s₅ => hrest s₅
    · exact gives_of_returns (returns_splitCell _ _ _ _) fun _ s₅ => hrest s₅
  obtain ⟨s', hrun, _⟩ := hgives
  exact ⟨s', hrun⟩

/-- Null in an unchanged heap, where there is no cell to take. -/
theorem AllocExact.ofNull (hnone : size = 0 ∨ ∀ b ∈ h.free, b.size < need size) :
    AllocExact i h size s 0 s :=
  ⟨⟨fun _ => hnone, fun _ => rfl⟩, fun _ => rfl, fun hne => absurd rfl hne⟩

/-- First fit takes a cell. -/
theorem Heap.alloc_takes (h : Heap L) (hs : Shows L s C) (hi : i < L.n) (hat : h.At C i) (h0 : 0 < size)
    (hsize : size ≤ 0x7FFFFFC0) {q : Block × List Block}
    (hq : takeFit 0x40 (requestOf size) h.free = some q) : Allocates i h size s := by
  obtain ⟨s', hrun, D, hheld, hat'⟩ := h.alloc_some hs hi hat h0 hsize hq
  obtain ⟨hr32, hrsize, _⟩ := requestOf_spec hsize
  obtain ⟨u, b, v, hl, hu, hb, hqe⟩ := Blocks.takeFit_some hq
  have hqb : q.1.addr = b.addr ∧ requestOf size ≤ q.1.size := by
    rw [hqe]
    split
    · exact ⟨rfl, hb⟩
    · exact ⟨rfl, le_rfl⟩
  generalize hh' : h.taken hq (requestOf_spec hsize).1 (requestOf_least h0 hsize) = h' at hat'
  have hregions : h'.regions = h.regions := hh' ▸ rfl
  have halloc' : h'.alloc = q.1 :: h.alloc := hh' ▸ rfl
  have hmem : q.1 ∈ h'.free ++ h'.alloc := by simp [halloc']
  have hbf : b ∈ h.free := by simp [hl]
  rw [requestOf_eq hsize] at hu hb hqb hrsize
  refine ⟨_, s', hrun, ⟨?_, ?_, ?_⟩⟩
  · constructor
    · intro hp
      omega
    · rintro (rfl | hnone)
      · omega
      · exact absurd (hnone b hbf) (Nat.not_lt.mpr hb)
  · intro hp
    omega
  · intro _
    refine ⟨u, b, v, hl, fun a ha => Nat.lt_of_not_le (hu a ha), hb, by rw [hqb.1], ?_, h', q.1, ?_,
      hregions, halloc', hqb.1, by omega, ?_, ?_⟩
    · rw [hqb.1]
      exact Nat.dvd_add (h.good_free hbf).cell.aligned (by decide)
    · exact ⟨hi, D, hheld.shows, hat'⟩
    · intro x hx
      rw [← hregions]
      exact h'.covers hmem hx
    · intro d hd hne
      exact h'.disjoint.forall hmem hd (Ne.symm hne)

/-- A crossed request does not return null, though no cell is large enough. -/
theorem Heap.not_allocates (h : Heap L) (hs : Shows L s C) (hi : i < L.n) (hat : h.At C i)
    (h₁ : 0x7FFFFFC0 < size) (h₂ : size < 2 ^ 31) (hf : h.free ≠ []) : ¬ Allocates i h size s := by
  rintro ⟨p, s', hrun, hp⟩
  obtain ⟨b, l, hl⟩ := List.exists_cons_of_ne_nil hf
  obtain ⟨s'', hrun'⟩ := h.alloc_crossed hs hi hat h₁ h₂ hl
  have hnull : p = 0 := hp.null.mpr (.inr (h.lt_need h₁))
  rw [hrun] at hrun'
  cases hrun'
  omega

/-- An allocation in a heap that is a partition is exact, unless its size is just below 2^31
and the heap has a free cell. -/
theorem allocates_iff (hm : InMemory s i h) (hsize : size < 2 ^ 32) :
    Allocates i h size s ↔ size ≤ 0x7FFFFFC0 ∨ 2 ^ 31 ≤ size ∨ h.free = [] := by
  obtain ⟨hi, C, hs, hat⟩ := hm
  constructor
  · intro ha
    by_contra hn
    simp only [not_or, Nat.not_le] at hn
    exact h.not_allocates hs hi hat hn.1 hn.2.1 hn.2.2 ha
  · intro hc
    by_cases hpos : 0 < toS32 size
    · have hlt : size < 2 ^ 31 := by
        by_contra hge
        have := toS32_neg (Nat.not_lt.mp hge) hsize
        omega
      have h0 : 0 < size := by
        rw [toS32_of_lt hlt] at hpos
        omega
      by_cases hle : size ≤ 0x7FFFFFC0
      · cases hq : takeFit 0x40 (requestOf size) h.free with
        | none =>
          obtain ⟨s', hrun, hheld⟩ := h.alloc_none (.refl hs (A := ∅) (I := ∅) (by simp) (by simp)) hi hat h0 hle hq
          have hsame : s' = s := Within.eq_self (by have := hheld.within; rwa [written_empty] at this)
          rw [hsame] at hrun
          refine ⟨0, s, hrun, .ofNull (.inr fun b hb => ?_)⟩
          rw [← requestOf_eq hle]
          exact Nat.lt_of_not_le (Blocks.takeFit_eq_none hq b hb)
        | some q => exact h.alloc_takes hs hi hat h0 hle hq
      · have hf : h.free = [] := by
          obtain hc | hc | hc := hc
          · omega
          · omega
          · exact hc
        exact ⟨0, s, h.alloc_full hs hi hat hpos hf, .ofNull (.inr (by simp [hf]))⟩
    · refine ⟨0, s, alloc_nonpos (by omega), .ofNull ?_⟩
      by_cases h0 : size = 0
      · exact .inl h0
      · right
        apply h.lt_need
        by_contra hle
        rw [toS32_of_lt (by omega)] at hpos
        omega

/-- A heap of one free cell. -/
def oneCell : Option (Mach × Accounts) :=
  runArena 0x80000000 0x80001000 2 [.create 0x80000101 0x8000041F]

theorem oneCell_run : (oneCell.map fun q =>
    ((q.2 0).isSome, freeList (layoutOf 0x80000000 0x80001000 2) q.1 0)) =
      some (true, [⟨0x80000120, 0x2E0⟩]) := by
  decide +kernel

theorem oneCell_inMemory : ∃ s G, oneCell = some (s, G) ∧
    ∃ h : Heap (layoutOf 0x80000000 0x80001000 2), InMemory s 0 h ∧ h.free = [⟨0x80000120, 0x2E0⟩] := by
  obtain ⟨⟨s, G⟩, hs, hv⟩ := Option.map_eq_some_iff.mp oneCell_run
  obtain ⟨C, H, hT⟩ := (reached_runArena smallArena hs).tracks
  simp only [Prod.mk.injEq] at hv
  obtain ⟨hlive, hfree⟩ := hv
  rw [hT.account, Option.isSome_map] at hlive
  obtain ⟨h, hh⟩ := Option.isSome_iff_exists.mp hlive
  obtain ⟨hi, hat⟩ := hT.live 0 h hh
  exact ⟨s, G, hs, h, ⟨hi, C, hT.shows, hat⟩, by rw [← hfree, (hT.lists hh).1]⟩

theorem oneCell_allocates : ∃ s G, oneCell = some (s, G) ∧
    ∃ h : Heap (layoutOf 0x80000000 0x80001000 2), InMemory s 0 h ∧
      (Allocates 0 h 0x2C0 s ↔ 0x2C0 ≤ 0x7FFFFFC0 ∨ 2 ^ 31 ≤ 0x2C0 ∨ h.free = []) := by
  obtain ⟨s, G, hs, h, hm, _⟩ := oneCell_inMemory
  exact ⟨s, G, hs, h, hm, allocates_iff hm (by decide)⟩

/-- A cell of 0x2E0 bytes is handed out for 0x7FFFFFC1. -/
theorem oneCell_crossed : ∃ s G, oneCell = some (s, G) ∧
    ∃ h : Heap (layoutOf 0x80000000 0x80001000 2), InMemory s 0 h ∧ h.free = [⟨0x80000120, 0x2E0⟩] ∧
      ¬ Allocates 0 h 0x7FFFFFC1 s := by
  obtain ⟨s, G, hs, h, hm, hf⟩ := oneCell_inMemory
  obtain ⟨hi, C, hshows, hat⟩ := id hm
  exact ⟨s, G, hs, h, hm, hf, h.not_allocates hshows hi hat (by decide) (by decide) (by simp [hf])⟩

end SdkPort.OSAlloc
