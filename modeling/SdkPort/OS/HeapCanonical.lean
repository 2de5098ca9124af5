import SdkPort.OS.HeapIsolation

/-!
# The free list is a canonical form

What is free and in order with no two cells touching is determined by the regions of the heap
and the cells in use, whatever led there.
-/
namespace SdkPort.OSAlloc

open Runs (run_bind_ok)
open Blocks (Block cover)

variable {L : Layout} {s s₁ s₂ s₃ : Mach} {G G₁ G₂ G₃ : Accounts} {C : Cells} {i : Nat} {h k : Heap L}
  {H : Nat → Option (Heap L)} {lo hi : Nat} {maxHeaps : Int}

/-- Heaps on the same regions with the same cells in use have the same free list. -/
theorem Heap.free_unique (hr : h.regions = k.regions) (ha : ∀ b, b ∈ h.alloc ↔ b ∈ k.alloc) :
    h.free = k.free := by
  have hnodup : ∀ m : Heap L, m.alloc.Nodup := by
    intro m
    have hn := m.nodup
    rw [addrs_append] at hn
    exact hn.of_append_right.of_map _
  have hperm : h.alloc.Perm k.alloc := (List.perm_ext_iff_of_nodup (hnodup h) (hnodup k)).mpr ha
  refine Blocks.canon_unique h.canon k.canon fun x => ?_
  have h₁ := h.cover_eq x
  have h₂ := k.cover_eq x
  rw [Blocks.cover_append] at h₁ h₂
  rw [Blocks.cover_perm hperm, hr] at h₁
  omega

/-- A heap of one region with nothing in use is one free cell. -/
theorem Heap.free_of_alloc_nil {r : Block} (hr : h.regions = [r]) (ha : h.alloc = [])
    (h0 : 0 < r.size) : h.free = [r] := by
  refine Blocks.canon_unique h.canon (Blocks.canon_cons.mpr ⟨by simp, h0, Blocks.canon_nil⟩) fun x => ?_
  have h₁ := h.cover_eq x
  rw [ha, List.append_nil, hr] at h₁
  rw [h₁]

/-- Allocating and giving back. -/
def Call.Serves : Call → Prop
  | .alloc _ _ | .free _ _ => True
  | _ => False

/-- Runs that only allocate and give back. -/
inductive Service (L : Layout) (s : Mach) (G : Accounts) : Mach → Accounts → Prop where
  | refl : Service L s G s G
  | call {s₁ s₂ : Mach} {G₁ : Accounts} {v : Int} (c : Call) (h : Service L s G s₁ G₁)
      (hk : c.Serves) (hc : c.Allowed L G₁) (hrun : c.run s₁ = .ok (v, s₂)) :
      Service L s G s₂ (c.settle G₁ v)

/-- Give back pointers one after the other. -/
def freeAll (heap : Int) : List Nat → M Unit
  | [] => pure ()
  | p :: ps => do
    OSFreeToHeap heap p
    freeAll heap ps

theorem Service.reached (hr : Reached lo hi maxHeaps s G)
    (h : Service (layoutOf lo hi maxHeaps) s G s₁ G₁) : Reached lo hi maxHeaps s₁ G₁ := by
  induction h with
  | refl => exact hr
  | call c _ _ hc hrun ih => exact .call c ih hc hrun

theorem Accounts.set_map (G : Accounts) (heap : Int) (f : Account → Account) (i : Nat) :
    G.set heap ((G.of heap).map f) i = if (i : Int) = heap then (G i).map f else G i := by
  unfold Accounts.set Accounts.of
  by_cases h0 : 0 ≤ heap
  · rw [if_pos h0, if_pos h0, Function.update_apply]
    by_cases hi : i = heap.toNat
    · rw [if_pos hi, if_pos (by omega), hi]
    · rw [if_neg hi, if_neg (by omega)]
  · rw [if_neg h0, if_neg (by omega)]

/-- Allocating and giving back keep the regions of all heaps. -/
theorem Call.settle_regions {c : Call} (hk : c.Serves) (G : Accounts) (v : Int) (i : Nat) :
    (c.settle G v i).map (·.regions) = (G i).map (·.regions) := by
  cases c with
  | alloc heap size =>
    rw [Call.settle]
    split
    · rfl
    · rw [Accounts.set_map]
      split
      · cases G i <;> rfl
      · rfl
  | free heap ptr =>
    rw [Call.settle, Accounts.set_map]
    split
    · cases G i <;> rfl
    · rfl
  | create _ _ => exact hk.elim
  | addToHeap _ _ _ => exact hk.elim
  | destroy _ => exact hk.elim

theorem Service.regions (h : Service L s G s₁ G₁) (i : Nat) :
    (G₁ i).map (·.regions) = (G i).map (·.regions) := by
  induction h with
  | refl => rfl
  | call c _ hk _ _ ih => rw [Call.settle_regions hk, ih]

/-- Giving back everything, in any order. -/
theorem Reached.freeAll (hr : Reached lo hi maxHeaps s G) {a : Account} (ha : G i = some a) {ps : List Nat}
    (hp : ps.Perm a.live) : ∃ s₁ G₁, freeAll i ps s = .ok ((), s₁) ∧ Reached lo hi maxHeaps s₁ G₁ ∧
      G₁ i = some ⟨a.regions, []⟩ := by
  induction ps generalizing s G a with
  | nil =>
    refine ⟨s, G, rfl, hr, ?_⟩
    rw [ha, ← List.nil_perm.mp hp]
  | cons p ps ih =>
    have hmem : p ∈ a.live := hp.subset (by simp)
    have hc : (Call.free i p).Allowed (layoutOf lo hi maxHeaps) G :=
      ⟨a, by rw [Accounts.of_natCast]; exact ha, hmem⟩
    obtain ⟨C, H, hT⟩ := hr.tracks
    obtain ⟨v, s₁, D, H', hl⟩ := hT.step hc
    have hG : (Call.free i p).settle G v i = some ⟨a.regions, a.live.erase p⟩ := by
      rw [Call.settle, Accounts.set_map, if_pos rfl, ha]
      rfl
    have hp' : ps.Perm (a.live.erase p) := by
      have := hp.erase p
      rwa [List.erase_cons_head] at this
    obtain ⟨s₂, G₂, hrun, hr₂, hG₂⟩ := ih (.call _ hr hc hl.run) hG hp'
    refine ⟨s₂, G₂, ?_, hr₂, hG₂⟩
    have hfree : OSFreeToHeap i p s = .ok ((), s₁) := by
      obtain ⟨⟨_, s'⟩, h₁, h₂⟩ := Runs.bind_eq_ok.mp
        (show (OSFreeToHeap i p s >>= fun q => (pure 0 : M Int) q.2) = .ok (v, s₁) from hl.run)
      cases h₂
      exact h₁
    rw [OSAlloc.freeAll, run_bind_ok hfree]
    exact hrun

/-- Lists of the same regions with the same cells in use. -/
theorem Reached.free_unique (h₂ : Reached lo hi maxHeaps s₂ G₂) (h₃ : Reached lo hi maxHeaps s₃ G₃)
    (hr : (G₂ i).map (·.regions) = (G₃ i).map (·.regions)) (hn : (G₂ i).isSome)
    (ha : ∀ b, b ∈ allocList (layoutOf lo hi maxHeaps) s₂ i ↔ b ∈ allocList (layoutOf lo hi maxHeaps) s₃ i) :
    freeList (layoutOf lo hi maxHeaps) s₂ i = freeList (layoutOf lo hi maxHeaps) s₃ i := by
  obtain ⟨C₂, H₂, hT₂⟩ := h₂.tracks
  obtain ⟨C₃, H₃, hT₃⟩ := h₃.tracks
  rw [hT₂.account, hT₃.account] at hr
  rw [hT₂.account] at hn
  cases hh₂ : H₂ i with
  | none =>
    rw [hh₂] at hn
    cases hn
  | some h =>
    cases hh₃ : H₃ i with
    | none =>
      rw [hh₂, hh₃] at hr
      cases hr
    | some k =>
      rw [hh₂, hh₃] at hr
      obtain ⟨hf₂, hl₂⟩ := hT₂.lists hh₂
      obtain ⟨hf₃, hl₃⟩ := hT₃.lists hh₃
      rw [hl₂, hl₃] at ha
      rw [hf₂, hf₃]
      exact Heap.free_unique (Option.some.inj hr) ha

theorem Reached.free_of_empty {r : Block} (hr : Reached lo hi maxHeaps s G) (ha : G i = some ⟨[r], []⟩)
    (h0 : 0 < r.size) : freeList (layoutOf lo hi maxHeaps) s i = [r] := by
  obtain ⟨C, H, hT⟩ := hr.tracks
  rw [hT.account, Option.map_eq_some_iff] at ha
  obtain ⟨h, hh, he⟩ := ha
  rw [(hT.lists hh).1]
  refine h.free_of_alloc_nil (congrArg Account.regions he) ?_ h0
  exact List.map_eq_nil_iff.mp (congrArg Account.live he)

/-- A heap that has become another on the same regions. -/
theorem Tracks.becomes (hT : Tracks L s G C H) (hh : H i = some h) (hl : h.Becomes i s s₁ k)
    (hr : k.regions = h.regions) :
    ∃ D, Tracks L s₁ (Function.update G i (some k.account)) D (Function.update H i (some k)) := by
  refine hT.lands (hT.live i h hh).1 hl (fun x hx y h₁ h₂ => ?_) fun j m hj hm x => ?_
  · exact Heap.touched_covered hx (fun _ hx => by rwa [hr]) h₁ h₂
  · rw [hr]
    exact hT.apart i j h m hj.symm hh hm x

/-- Giving back what was just allocated. -/
theorem Reached.alloc_free (hr : Reached lo hi maxHeaps s G) {size p : Nat} (hs : size ≤ 0x7FFFFFC0)
    (hrun : OSAllocFromHeap i size s = .ok (p, s₁)) (hp : p ≠ 0) :
    ∃ s₂, OSFreeToHeap i p s₁ = .ok ((), s₂) ∧
      freeList (layoutOf lo hi maxHeaps) s₂ i = freeList (layoutOf lo hi maxHeaps) s i := by
  obtain ⟨C, H, hT⟩ := hr.tracks
  have hh₀ : Holds (layoutOf lo hi maxHeaps) ∅ ∅ s s C := .refl hT.shows (by simp) (by simp)
  have hfails : ∀ {D : Cells} {A I : Set Nat},
      Runs.Gives (Holds (layoutOf lo hi maxHeaps) A I s) (OSAllocFromHeap i size s) 0 D → False := by
    rintro D A I ⟨s', hrun', _⟩
    rw [hrun] at hrun'
    cases hrun'
    exact hp rfl
  rcases Nat.eq_zero_or_pos size with rfl | h0
  · exact (hfails ⟨s, rfl, hh₀⟩).elim
  cases hG : G.of i with
  | none =>
    refine (hfails (A := ∅) (I := ∅) (D := C) ?_).elim
    unfold OSAllocFromHeap
    rw [toS32_of_lt (by omega), if_neg (by omega)]
    exact Runs.gives_bind (hh₀.openHeap_none (hT.dead_of hG)) fun s₁ h₁ => Runs.gives_pure 0 h₁
  | some a =>
    obtain ⟨j, h, hij, hh, rfl, hi, hat⟩ := hT.live_of hG
    have hj : i = j := by omega
    subst hj
    cases ht : Blocks.takeFit 0x40 (requestOf size) h.free with
    | none => exact (hfails (h.alloc_none hh₀ hi hat h0 hs ht)).elim
    | some q =>
      obtain ⟨s', hrun', hl⟩ := h.alloc_some hT.shows hi hat h0 hs ht
      rw [hrun] at hrun'
      cases hrun'
      generalize hk : h.taken ht (requestOf_spec hs).1 (requestOf_least h0 hs) = k at hl
      have hkr : k.regions = h.regions := hk ▸ rfl
      have hka : k.alloc = q.1 :: h.alloc := hk ▸ rfl
      obtain ⟨D₁, hT₁⟩ := hT.becomes hh hl hkr
      have hk₁ : Function.update H i (some k) i = some k := Function.update_self ..
      have hmem : q.1 ∈ k.alloc := by simp [hka]
      obtain ⟨s₂, hfree, hl₂⟩ := k.free_gives hT₁.shows hi (hT₁.live i k hk₁).2 hmem
      obtain ⟨D₂, hT₂⟩ := hT₁.becomes hk₁ hl₂ rfl
      refine ⟨s₂, hfree, ?_⟩
      rw [(hT₂.lists (Function.update_self ..)).1, (hT.lists hh).1]
      refine Heap.free_unique hkr fun b => ?_
      show b ∈ k.alloc.erase q.1 ↔ _
      rw [hka, List.erase_cons_head]

/-- Two runs of allocating and giving back from a fresh heap to the same cells in use end with the
same free list; with nothing in use it is that of the fresh heap, and what an allocation takes
its return restores. -/
theorem reached_canonical {start stop : Nat} (hr : Reached lo hi maxHeaps s G)
    (hc : (Call.create start stop).Allowed (layoutOf lo hi maxHeaps) G)
    (hrun : OSCreateHeap start stop s = .ok (((i : Nat) : Int), s₁)) :
    (∀ s₂ G₂ s₃ G₃,
      Service (layoutOf lo hi maxHeaps) s₁ ((Call.create start stop).settle G i) s₂ G₂ →
      Service (layoutOf lo hi maxHeaps) s₁ ((Call.create start stop).settle G i) s₃ G₃ →
      (∀ b, b ∈ allocList (layoutOf lo hi maxHeaps) s₂ i ↔ b ∈ allocList (layoutOf lo hi maxHeaps) s₃ i) →
      freeList (layoutOf lo hi maxHeaps) s₂ i = freeList (layoutOf lo hi maxHeaps) s₃ i) ∧
    (∀ s₂ G₂, Service (layoutOf lo hi maxHeaps) s₁ ((Call.create start stop).settle G i) s₂ G₂ →
      ∃ a, G₂ i = some a ∧ ∀ ps : List Nat, ps.Perm a.live → ∃ s₃, freeAll i ps s₂ = .ok ((), s₃) ∧
        freeList (layoutOf lo hi maxHeaps) s₃ i = freeList (layoutOf lo hi maxHeaps) s₁ i) ∧
    ∀ s₂ G₂, Reached lo hi maxHeaps s₂ G₂ → ∀ j size p s₃, size ≤ 0x7FFFFFC0 →
      OSAllocFromHeap (j : Nat) size s₂ = .ok (p, s₃) → p ≠ 0 →
      ∃ s₄, OSFreeToHeap j p s₃ = .ok ((), s₄) ∧
        freeList (layoutOf lo hi maxHeaps) s₄ j = freeList (layoutOf lo hi maxHeaps) s₂ j := by
  have hr₁ : Reached lo hi maxHeaps s₁ ((Call.create start stop).settle G i) := .call _ hr hc hrun
  have hG₁ : (Call.create start stop).settle G i i = some ⟨[rangeOf start stop], []⟩ := by
    rw [Call.settle, Accounts.set_natCast, Function.update_self]
  have h0 : 0 < (rangeOf start stop).size := by
    have := hc.1.least
    omega
  refine ⟨?_, ?_, ?_⟩
  · intro s₂ G₂ s₃ G₃ h₂ h₃ ha
    refine (h₂.reached hr₁).free_unique (h₃.reached hr₁) ?_ ?_ ha
    · rw [h₂.regions, h₃.regions]
    · have := h₂.regions i
      rw [hG₁] at this
      cases hG₂ : G₂ i with
      | none =>
        rw [hG₂] at this
        cases this
      | some a => rfl
  · intro s₂ G₂ h₂
    have hregions := h₂.regions i
    rw [hG₁] at hregions
    obtain ⟨a, ha, hreg⟩ := Option.map_eq_some_iff.mp hregions
    refine ⟨a, ha, fun ps hp => ?_⟩
    obtain ⟨s₃, G₃, hrun₃, hr₃, hG₃⟩ := (h₂.reached hr₁).freeAll ha hp
    refine ⟨s₃, hrun₃, ?_⟩
    rw [hreg] at hG₃
    rw [hr₃.free_of_empty hG₃ h0, hr₁.free_of_empty hG₁ h0]
  · intro s₂ G₂ h₂ j size p s₃ hs hrun₂ hp
    exact h₂.alloc_free hs hrun₂ hp

/-- A fresh heap, as the first call of a run. -/
def freshHeap : Option (Mach × Int × Mach) :=
  (runArena 0x80000000 0x80001000 2 []).bind fun p =>
    match OSCreateHeap 0x80000101 0x8000041F p.1 with
    | .ok (v, s₁) => some (p.1, v, s₁)
    | .error _ => none

theorem freshHeap_run : (freshHeap.map fun q =>
    (q.2.1, freeList (layoutOf 0x80000000 0x80001000 2) q.2.2 0)) = some (0, [⟨0x80000120, 0x2E0⟩]) := by
  decide +kernel

theorem freshHeap_canonical : ∃ s s₁, OSCreateHeap 0x80000101 0x8000041F s = .ok (0, s₁) ∧
    ∀ s₂ G₂, Service (layoutOf 0x80000000 0x80001000 2) s₁
        ((Call.create 0x80000101 0x8000041F).settle (fun _ => none) 0) s₂ G₂ →
      ∃ a, G₂ 0 = some a ∧ ∀ ps : List Nat, ps.Perm a.live → ∃ s₃, freeAll 0 ps s₂ = .ok ((), s₃) ∧
        freeList (layoutOf 0x80000000 0x80001000 2) s₃ 0 = [⟨0x80000120, 0x2E0⟩] := by
  obtain ⟨⟨s, v, s₁⟩, hs, hv⟩ := Option.map_eq_some_iff.mp freshHeap_run
  obtain ⟨⟨s', G⟩, ha, hcreate⟩ := Option.bind_eq_some_iff.mp hs
  have hr := reached_runArena smallArena ha
  have hG : G = fun _ => none := by
    unfold runArena at ha
    split at ha
    · cases ha
      rfl
    · cases ha
  subst hG
  simp only at hcreate
  split at hcreate
  · rename_i w s₂ hrun
    cases hcreate
    simp only [Prod.mk.injEq] at hv
    obtain ⟨rfl, hfree⟩ := hv
    have hc : (Call.create 0x80000101 0x8000041F).Allowed (layoutOf 0x80000000 0x80001000 2)
        fun _ => none := by
      decide +kernel
    refine ⟨s, s₁, hrun, ?_⟩
    rw [← hfree]
    exact (reached_canonical (i := 0) hr hc hrun).2.1
  · cases hcreate

end SdkPort.OSAlloc
