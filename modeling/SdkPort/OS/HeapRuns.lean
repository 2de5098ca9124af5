import SdkPort.OS.HeapInit
import Mathlib.Data.List.Nodup

/-!
# Runs of the allocator

A run starts with `OSInitAlloc` and goes on with calls. Beside it goes the account that the
caller keeps: the ranges given to each heap and the pointers received from it.
-/
namespace SdkPort.OSAlloc

open Gc (u32 GcMem)
open Linked (firstOf)
open Runs (Gives)
open Blocks (Block cover total)

/-- The ranges given to a heap and the pointers in use. -/
structure Account where
  regions : List Block
  live : List Nat
  deriving DecidableEq, Repr

/-- The accounts of the heaps that exist. -/
abbrev Accounts := Nat → Option Account

inductive Call where
  | create (start stop : Nat)
  | addToHeap (heap : Int) (start stop : Nat)
  | alloc (heap : Int) (size : Nat)
  | free (heap : Int) (ptr : Nat)
  | destroy (heap : Int)
  deriving DecidableEq, Repr

namespace Call

/-- The call, with the value it returns. -/
def run : Call → M Int
  | create start stop => OSCreateHeap start stop
  | addToHeap heap start stop => do
    OSAddToHeap heap start stop
    pure 0
  | alloc heap size => do
    let p ← OSAllocFromHeap heap size
    pure (p : Int)
  | free heap ptr => do
    OSFreeToHeap heap ptr
    pure 0
  | destroy heap => do
    OSDestroyHeap heap
    pure 0

/-- The heap a call is about, given what it returned. -/
def names (v : Int) : Call → Int
  | create _ _ => v
  | addToHeap heap _ _ | alloc heap _ | free heap _ | destroy heap => heap

end Call

namespace Accounts

/-- The account of a heap given by its number. -/
def of (G : Accounts) (heap : Int) : Option Account := if 0 ≤ heap then G heap.toNat else none

def set (G : Accounts) (heap : Int) (a : Option Account) : Accounts :=
  if 0 ≤ heap then Function.update G heap.toNat a else G

end Accounts

/-- The accounts after a call has returned `v`. -/
def Call.settle (G : Accounts) (v : Int) : Call → Accounts
  | create start stop => G.set v (some ⟨[rangeOf start stop], []⟩)
  | addToHeap heap start stop =>
    G.set heap ((G.of heap).map fun a => { a with regions := rangeOf start stop :: a.regions })
  | alloc heap _ =>
    if v = 0 then G else G.set heap ((G.of heap).map fun a => { a with live := v.toNat :: a.live })
  | free heap ptr => G.set heap ((G.of heap).map fun a => { a with live := a.live.erase ptr })
  | destroy heap => G.set heap none

/-- A range in the arena that is apart from the array and from the ranges of all heaps. -/
structure Vacant (L : Layout) (G : Accounts) (r : Block) : Prop where
  low : L.array ≤ r.addr
  high : r.stop ≤ L.hi
  array : Blocks.Disjoint r ⟨L.array, 12 * L.n⟩
  least : 0x40 ≤ r.size
  apart : ∀ i < L.n, ∀ a ∈ G i, ∀ b ∈ a.regions, Blocks.Disjoint r b

/-- The calls that a caller may make. -/
def Call.Allowed (L : Layout) (G : Accounts) : Call → Prop
  | create start stop => Vacant L G (rangeOf start stop) ∧ (rangeOf start stop).size < 2 ^ 31
  | addToHeap heap start stop => Vacant L G (rangeOf start stop) ∧
    ∀ a ∈ G.of heap, total a.regions + (rangeOf start stop).size < 2 ^ 31
  | alloc _ size => size ≤ 0x7FFFFFC0
  | free heap ptr => ∃ a ∈ G.of heap, ptr ∈ a.live
  | destroy _ => True

/-- The states of runs on an arena, with the accounts. -/
inductive Reached (lo hi : Nat) (maxHeaps : Int) : Mach → Accounts → Prop where
  | init {s s' : Mach} {v : Nat} (ha : Arena s.mem lo hi maxHeaps)
      (hrun : OSInitAlloc lo hi maxHeaps s = .ok (v, s')) : Reached lo hi maxHeaps s' fun _ => none
  | call {s s' : Mach} {G : Accounts} {v : Int} (c : Call) (h : Reached lo hi maxHeaps s G)
      (hc : c.Allowed (layoutOf lo hi maxHeaps) G) (hrun : c.run s = .ok (v, s')) :
      Reached lo hi maxHeaps s' (c.settle G v)

section Runner

instance (L : Layout) (G : Accounts) (r : Block) : Decidable (Vacant L G r) :=
  decidable_of_iff (L.array ≤ r.addr ∧ r.stop ≤ L.hi ∧ Blocks.Disjoint r ⟨L.array, 12 * L.n⟩ ∧
      0x40 ≤ r.size ∧ ∀ i < L.n, ((G i).all fun a => a.regions.all fun b => decide (Blocks.Disjoint r b)) = true) <| by
    constructor
    · rintro ⟨h₁, h₂, h₃, h₄, h₅⟩
      refine ⟨h₁, h₂, h₃, h₄, fun i hi a ha b hb => ?_⟩
      have := h₅ i hi
      rw [Option.mem_def.mp ha, Option.all_some, List.all_eq_true] at this
      simpa using this b hb
    · rintro ⟨h₁, h₂, h₃, h₄, h₅⟩
      refine ⟨h₁, h₂, h₃, h₄, fun i hi => ?_⟩
      cases ha : G i with
      | none => rfl
      | some a => simpa using fun b hb => h₅ i hi a ha b hb

instance (L : Layout) (G : Accounts) (c : Call) : Decidable (c.Allowed L G) :=
  match c with
  | .create start stop => inferInstanceAs (Decidable (_ ∧ _))
  | .addToHeap heap start stop =>
    match h : G.of heap with
    | none => decidable_of_iff (Vacant L G (rangeOf start stop)) (by simp [Call.Allowed, h])
    | some a => decidable_of_iff (Vacant L G (rangeOf start stop) ∧
        total a.regions + (rangeOf start stop).size < 2 ^ 31) (by simp [Call.Allowed, h])
  | .alloc heap size => inferInstanceAs (Decidable (size ≤ 0x7FFFFFC0))
  | .free heap ptr =>
    match h : G.of heap with
    | none => isFalse (by simp [Call.Allowed, h])
    | some a => decidable_of_iff (ptr ∈ a.live) (by simp [Call.Allowed, h])
  | .destroy heap => isTrue trivial

/-- A run of allowed calls. -/
def runCalls (L : Layout) : List Call → Mach → Accounts → Option (Mach × Accounts)
  | [], s, G => some (s, G)
  | c :: cs, s, G =>
    if c.Allowed L G then
      match c.run s with
      | .ok (v, s') => runCalls L cs s' (c.settle G v)
      | .error _ => none
    else none

theorem reached_runCalls {lo hi : Nat} {maxHeaps : Int} {cs : List Call} {s s' : Mach}
    {G G' : Accounts} (h : Reached lo hi maxHeaps s G)
    (hr : runCalls (layoutOf lo hi maxHeaps) cs s G = some (s', G')) : Reached lo hi maxHeaps s' G' := by
  induction cs generalizing s G with
  | nil =>
    cases hr
    exact h
  | cons c cs ih =>
    rw [runCalls] at hr
    split at hr
    · rename_i hc
      split at hr
      · rename_i hrun
        exact ih (.call c h hc hrun) hr
      · cases hr
    · cases hr

/-- A run on an arena that fills the memory. -/
def runArena (lo hi : Nat) (maxHeaps : Int) (cs : List Call) : Option (Mach × Accounts) :=
  match OSInitAlloc lo hi maxHeaps ⟨⟨lo, hi - lo, fun _ => 0⟩, 0, 0, 0, 0, 0⟩ with
  | .ok (_, s) => runCalls (layoutOf lo hi maxHeaps) cs s fun _ => none
  | .error _ => none

theorem reached_runArena {lo hi : Nat} {maxHeaps : Int} {cs : List Call} {s : Mach} {G : Accounts}
    (ha : Arena ⟨lo, hi - lo, fun _ => 0⟩ lo hi maxHeaps) (hr : runArena lo hi maxHeaps cs = some (s, G)) :
    Reached lo hi maxHeaps s G := by
  unfold runArena at hr
  split at hr
  · rename_i hrun
    exact reached_runCalls (.init ha hrun) hr
  · cases hr

end Runner

variable {L : Layout} {A : Set Nat} {s s' : Mach} {G : Accounts} {C : Cells} {i : Nat}

/-- What the caller knows of a heap. -/
def Heap.account (h : Heap L) : Account := ⟨h.regions, h.alloc.map (·.addr + 0x20)⟩

/-- Removing an element from a list without repeated images. -/
theorem map_erase_of_nodup {α β : Type} [DecidableEq α] [DecidableEq β] {f : α → β} {l : List α} {b : α}
    (hn : (l.map f).Nodup) (hb : b ∈ l) : (l.erase b).map f = (l.map f).erase (f b) := by
  induction l with
  | nil => cases hb
  | cons c l ih =>
    rw [List.map_cons, List.nodup_cons] at hn
    by_cases he : c = b
    · subst he
      rw [List.erase_cons_head, List.map_cons, List.erase_cons_head]
    · have hb' := (List.mem_cons.mp hb).resolve_left (Ne.symm he)
      have hf : f c ≠ f b := fun hf => hn.1 (hf ▸ List.mem_map_of_mem hb')
      rw [List.erase_cons_tail (by simpa using he), List.map_cons, ih hn.2 hb', List.map_cons,
        List.erase_cons_tail (by simpa using hf)]

/-- Giving back a cell removes its pointer. -/
theorem Heap.live_erase (h : Heap L) {b : Block} (hb : b ∈ h.alloc) :
    (h.released hb).account.live = h.account.live.erase (b.addr + 0x20) := by
  have hn := h.nodup
  rw [addrs_append] at hn
  refine map_erase_of_nodup (f := fun c : Block => c.addr + 0x20) ?_ hb
  have := hn.of_append_right.map fun x y (hxy : x + 0x20 = y + 0x20) => Nat.add_right_cancel hxy
  rwa [addrs, List.map_map] at this

/-- Memory holds these heaps, on regions of their own, and the accounts tell of them. -/
structure Tracks (L : Layout) (s : Mach) (G : Accounts) (C : Cells) (H : Nat → Option (Heap L)) :
    Prop where
  shows : Shows L s C
  stop_eq : L.stop = 32 * (L.hi / 32)
  live : ∀ i h, H i = some h → i < L.n ∧ h.At C i
  dead : ∀ i < L.n, H i = none → 2 ^ 31 ≤ (C.desc i).size
  account : ∀ i, G i = (H i).map Heap.account
  apart : ∀ i j h k, i ≠ j → H i = some h → H j = some k → ∀ x, cover h.regions x = 0 ∨ cover k.regions x = 0

/-- What a call changed: headers of `A` and the descriptor of the heap it names. No header lies
in another heap, or in what a cell in use offers, except the one given back. -/
structure Effect (A : Set Nat) (s s' : Mach) (c : Call) (v : Int) (H H' : Nat → Option (Heap L)) : Prop where
  cells : ∀ x ∈ A, L.Cell x
  within : Within (Written L A {j | j < L.n ∧ (j : Int) = c.names v}) s s'
  others : ∀ j : Nat, (j : Int) ≠ c.names v → H' j = H j
  foreign : ∀ x ∈ A, ∀ y, x ≤ y → y < x + 32 → ∀ j : Nat, (j : Int) ≠ c.names v → ∀ k ∈ H j,
    cover k.regions y = 0
  own : ∀ x ∈ A, ∀ j : Nat, (j : Int) = c.names v → ∀ h ∈ H j, ∀ b ∈ h.alloc,
    c ≠ .free j (b.addr + 0x20) → x ≤ b.addr ∨ b.stop ≤ x

end SdkPort.OSAlloc
