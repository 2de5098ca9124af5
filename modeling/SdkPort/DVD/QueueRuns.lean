import Mathlib.Data.List.FinRange
import SdkPort.DVD.Queue
import SdkPort.Lib.Rings

/-!
# Runs of the waiting queue

Every sequence of calls after the queue was cleared leaves four lists in memory: blocks
wait in the order they came, and the first of the most urgent list comes out.
-/
namespace SdkPort.DVD

open Gc (u32 GcMem)
open Linked (Rings firstOf lastOf)
open Function (update update_self update_of_ne)

variable {st st' : QueueState} {block : Nat → Prop} {next prev : Nat → Nat} {L : Fin 4 → List Nat} {b v x : Nat}

/-- The calls. -/
inductive QueueCall where
  | push (prio : Fin 4) (blockAddr : Nat)
  | pop
  | dequeue (blockAddr : Nat)
  | check
  | isBlockIn (blockAddr : Nat)

/-- What a call returns, and the state it leaves, unless it fails. -/
def QueueCall.exec (st : QueueState) : QueueCall → Option (Nat × QueueState)
  | push prio blockAddr => (portDVDPushWaitingQueue st prio blockAddr).map fun st => (0, st)
  | pop => portDVDPopWaitingQueue st
  | dequeue blockAddr => portDVDDequeueWaitingQueue st blockAddr
  | check => (portDVDCheckWaitingQueue st).map fun r => (r, st)
  | isBlockIn blockAddr => (portDVDIsBlockInWaitingQueue st blockAddr).map fun r => (r, st)

/-- The most urgent list with a block in it. -/
def urgent (L : Fin 4 → List Nat) : Option (Fin 4) := (List.finRange 4).find? fun i => L i ≠ []

/-- The calls on four lists. -/
def QueueCall.spec (L : Fin 4 → List Nat) : QueueCall → Nat × (Fin 4 → List Nat)
  | push prio blockAddr => (0, update L prio (L prio ++ [blockAddr]))
  | pop =>
    match urgent L with
    | some i => ((L i).headD 0, update L i (L i).tail)
    | none => (0, L)
  | dequeue blockAddr => (1, fun i => (L i).erase blockAddr)
  | check => (if ∃ i, L i ≠ [] then 1 else 0, L)
  | isBlockIn blockAddr => (if ∃ i, blockAddr ∈ L i then 1 else 0, L)

/-- Blocks that do not wait are pushed, blocks that wait are taken out. -/
def QueueCall.Allowed (block : Nat → Prop) (L : Fin 4 → List Nat) : QueueCall → Prop
  | push _ blockAddr => block blockAddr ∧ ∀ i, blockAddr ∉ L i
  | dequeue blockAddr => ∃ i, blockAddr ∈ L i
  | pop | check | isBlockIn _ => True

/-- The sentinels and the links of the blocks are mapped, apart, and none is at null. -/
structure Placed (st : QueueState) (block : Nat → Prop) : Prop where
  base_pos : 0 < st.queuesBase
  base_fits : st.queuesBase + 32 ≤ 2 ^ 32
  base_maps : st.mem.Maps st.queuesBase (st.queuesBase + 32)
  pos : ∀ b, block b → 0 < b
  fits : ∀ b, block b → b + 8 ≤ 2 ^ 32
  maps : ∀ b, block b → st.mem.Maps b (b + 8)
  apart : ∀ b c, block b → block c → b ≠ c → b + 8 ≤ c ∨ c + 8 ≤ b
  beside : ∀ b, block b → b + 8 ≤ st.queuesBase ∨ st.queuesBase + 32 ≤ b

def QueueState.sentinel (st : QueueState) (i : Fin 4) : Nat := st.queuesBase + 8 * i

/-- What has links: sentinels and blocks. -/
def Node (st : QueueState) (block : Nat → Prop) (x : Nat) : Prop := block x ∨ ∃ i, x = st.sentinel i

namespace Placed

theorem node_pos (h : Placed st block) (hx : Node st block x) : 0 < x := by
  obtain hx | ⟨i, rfl⟩ := hx
  · exact h.pos x hx
  · have := h.base_pos
    unfold QueueState.sentinel
    omega

theorem node_fits (h : Placed st block) (hx : Node st block x) : x + 8 ≤ 2 ^ 32 := by
  obtain hx | ⟨i, rfl⟩ := hx
  · exact h.fits x hx
  · have := h.base_fits
    have := i.isLt
    unfold QueueState.sentinel
    omega

theorem node_maps (h : Placed st block) (hx : Node st block x) : st.mem.Maps x (x + 8) := by
  obtain hx | ⟨i, rfl⟩ := hx
  · exact h.maps x hx
  · obtain ⟨hlo, hhi⟩ := h.base_maps
    have := i.isLt
    unfold QueueState.sentinel
    exact ⟨by omega, by omega⟩

theorem node_apart {y : Nat} (h : Placed st block) (hx : Node st block x) (hy : Node st block y) (hne : x ≠ y) :
    x + 8 ≤ y ∨ y + 8 ≤ x := by
  obtain hx | ⟨i, rfl⟩ := hx
  · obtain hy | ⟨j, rfl⟩ := hy
    · exact h.apart x y hx hy hne
    · have := h.beside x hx
      have := j.isLt
      unfold QueueState.sentinel
      omega
  · obtain hy | ⟨j, rfl⟩ := hy
    · have := h.beside y hy
      have := i.isLt
      unfold QueueState.sentinel
      omega
    · unfold QueueState.sentinel at hne ⊢
      omega

theorem sentinel_injective (st : QueueState) : Function.Injective st.sentinel := by
  intro i j hij
  unfold QueueState.sentinel at hij
  exact Fin.ext (by omega)

theorem queueAddr_eq (h : Placed st block) (i : Fin 4) : st.queueAddr i = st.sentinel i := by
  have := h.base_fits
  have := i.isLt
  unfold QueueState.queueAddr QueueState.sentinel PORT_DVD_QUEUE_SIZE u32
  omega

/-- Stores do not move anything. -/
theorem setWord (h : Placed st block) (a v : Nat) : Placed (st.setWord a v) block := by
  have hm : ∀ lo hi, (st.setWord a v).mem.Maps lo hi ↔ st.mem.Maps lo hi := by
    intro lo hi
    simp [GcMem.Maps, QueueState.setWord]
  exact ⟨h.base_pos, h.base_fits, (hm _ _).mpr h.base_maps, h.pos, h.fits, fun b hb => (hm _ _).mpr (h.maps b hb),
    h.apart, h.beside⟩

/-- The links of a node are found in memory. -/
theorem node_ptr (h : Placed st block) (hx : Node st block x) {k : Nat} (hk : k = 0 ∨ k = 4) :
    (st.mem.ptr (u32 (x + k)) 4).isSome := by
  have hf := h.node_fits hx
  obtain ⟨hlo, hhi⟩ := h.node_maps hx
  have hu : u32 (x + k) = x + k := Nat.mod_eq_of_lt (by omega)
  rw [hu, GcMem.ptr_eq ⟨by omega, by omega⟩]
  rfl

theorem load_eq (h : Placed st block) (hx : Node st block x) {k : Nat} (hk : k = 0 ∨ k = 4) :
    st.load (x + k) = some (st.word (x + k)) := if_pos (h.node_ptr hx hk)

theorem store_eq (h : Placed st block) (hx : Node st block x) {k : Nat} (hk : k = 0 ∨ k = 4) (v : Nat) :
    st.store (x + k) v = some (st.setWord (x + k) v) := if_pos (h.node_ptr hx hk)

end Placed

/-- The links in memory. -/
structure Shows (st : QueueState) (block : Nat → Prop) (next prev : Nat → Nat) : Prop where
  placed : Placed st block
  next : ∀ x, Node st block x → st.load x = some (next x)
  prev : ∀ x, Node st block x → st.load (x + 4) = some (prev x)

namespace Shows

theorem load_next (h : Shows st block next prev) (hx : Node st block x) : st.load (x + 0) = some (next x) := h.next x hx

theorem load_setWord_self (h : Placed st block) (hx : Node st block x) (hv : v < 2 ^ 32) {k : Nat} (hk : k = 0 ∨ k = 4) :
    (st.setWord (x + k) v).load (x + k) = some v := by
  have hf := h.node_fits hx
  obtain ⟨hlo, hhi⟩ := h.node_maps hx
  have hu : u32 (x + k) = x + k := Nat.mod_eq_of_lt (by omega)
  have hword : (st.setWord (x + k) v).word (x + k) = v := by
    rw [QueueState.word, QueueState.setWord, hu]
    exact GcMem.load_store_self ⟨by omega, by omega⟩ hv
  rw [(h.setWord _ v).load_eq hx hk, hword]

theorem load_setWord_other {y j k : Nat} (h : Placed st block) (hx : Node st block x) (hy : Node st block y)
    (hj : j = 0 ∨ j = 4) (hk : k = 0 ∨ k = 4) (hne : x ≠ y ∨ j ≠ k) :
    (st.setWord (x + k) v).load (y + j) = st.load (y + j) := by
  have hf := h.node_fits hx
  have hf' := h.node_fits hy
  have hu : u32 (x + k) = x + k := Nat.mod_eq_of_lt (by omega)
  have hu' : u32 (y + j) = y + j := Nat.mod_eq_of_lt (by omega)
  have hword : (st.setWord (x + k) v).word (y + j) = st.word (y + j) := by
    rw [QueueState.word, QueueState.word, QueueState.setWord, hu, hu']
    apply GcMem.load_store_other
    by_cases hxy : x = y
    · omega
    · have := h.node_apart hx hy hxy
      omega
  rw [(h.setWord _ v).load_eq hy hj, h.load_eq hy hj, hword]

/-- A link is set, which does not fail. -/
theorem storeNext (h : Shows st block next prev) (hx : Node st block x) (v : Nat) :
    st.store (x + 0) v = some (st.setWord (x + 0) v) := h.placed.store_eq hx (.inl rfl) v

theorem storePrev (h : Shows st block next prev) (hx : Node st block x) (v : Nat) :
    st.store (x + 4) v = some (st.setWord (x + 4) v) := h.placed.store_eq hx (.inr rfl) v

theorem setNext (h : Shows st block next prev) (hx : Node st block x) (hv : v < 2 ^ 32) :
    Shows (st.setWord (x + 0) v) block (update next x v) prev := by
  refine ⟨h.placed.setWord _ _, ?_, ?_⟩
  · intro y hy
    by_cases hyx : y = x
    · rw [hyx, update_self]
      exact load_setWord_self h.placed hx hv (.inl rfl)
    · rw [update_of_ne hyx, ← h.next y hy]
      exact load_setWord_other h.placed hx hy (.inl rfl) (.inl rfl) (.inl (Ne.symm hyx))
  · intro y hy
    rw [← h.prev y hy]
    exact load_setWord_other h.placed hx hy (.inr rfl) (.inl rfl) (.inr (by decide))

theorem setPrev (h : Shows st block next prev) (hx : Node st block x) (hv : v < 2 ^ 32) :
    Shows (st.setWord (x + 4) v) block next (update prev x v) := by
  refine ⟨h.placed.setWord _ _, ?_, ?_⟩
  · intro y hy
    rw [← h.next y hy]
    exact load_setWord_other h.placed hx hy (.inl rfl) (.inr rfl) (.inr (by decide))
  · intro y hy
    by_cases hyx : y = x
    · rw [hyx, update_self]
      exact load_setWord_self h.placed hx hv (.inr rfl)
    · rw [update_of_ne hyx, ← h.prev y hy]
      exact load_setWord_other h.placed hx hy (.inr rfl) (.inr rfl) (.inl (Ne.symm hyx))

end Shows

/-- Memory holds four lists of waiting blocks. -/
structure Waits (st : QueueState) (block : Nat → Prop) (L : Fin 4 → List Nat) (next prev : Nat → Nat) : Prop where
  shows : Shows st block next prev
  rings : Rings st.sentinel next prev L
  blocks : ∀ i, ∀ x ∈ L i, block x

namespace Waits

theorem own_node {i : Fin 4} (h : Waits st block L next prev) (hx : x = st.sentinel i ∨ x ∈ L i) : Node st block x :=
  hx.elim (fun he => .inr ⟨i, he⟩) fun hm => .inl (h.blocks i x hm)

theorem node_lt (h : Waits st block L next prev) (hx : Node st block x) : x < 2 ^ 32 := by
  have := h.shows.placed.node_fits hx
  omega

theorem sentinel_ne {i : Fin 4} (h : Waits st block L next prev) (hb : block b) : b ≠ st.sentinel i := by
  intro he
  have hb' := h.shows.placed.beside b hb
  have hi := i.isLt
  unfold QueueState.sentinel at he
  omega

/-- A sentinel leads to itself exactly if its list is empty. -/
theorem load_sentinel (h : Waits st block L next prev) (i : Fin 4) :
    ∃ v, st.load (st.queueAddr i + PORT_DVD_QUEUE_NEXT) = some v ∧ (v ≠ st.queueAddr i ↔ L i ≠ []) := by
  refine ⟨next (st.sentinel i), ?_, ?_⟩
  · rw [h.shows.placed.queueAddr_eq]
    exact h.shows.load_next (.inr ⟨i, rfl⟩)
  · rw [h.shows.placed.queueAddr_eq]
    exact not_congr h.rings.next_self

theorem firstWaiting_map (h : Waits st block L next prev) (is : List (Fin 4)) :
    firstWaiting st (is.map Fin.val) = some ((is.find? fun i => L i ≠ []).map Fin.val) := by
  induction is with
  | nil => rfl
  | cons i is ih =>
    obtain ⟨v, hload, hv⟩ := h.load_sentinel i
    rw [List.map_cons, firstWaiting, hload, Option.bind_eq_bind, Option.bind_some]
    by_cases hL : L i ≠ []
    · rw [if_pos (hv.mpr hL), List.find?_cons_of_pos (by simpa using hL)]
      rfl
    · rw [if_neg fun hne => hL (hv.mp hne), List.find?_cons_of_neg (by simpa using hL), ih]

theorem firstWaiting_eq (h : Waits st block L next prev) :
    firstWaiting st (List.range PORT_DVD_MAX_QUEUES) = some ((urgent L).map Fin.val) := by
  have hrange : List.range PORT_DVD_MAX_QUEUES = (List.finRange 4).map Fin.val := List.map_coe_finRange_eq_range.symm
  rw [hrange]
  exact h.firstWaiting_map _

/-- A node that is neither a sentinel nor in a list. -/
def Out (st : QueueState) (L : Fin 4 → List Nat) (x : Nat) : Prop := ∀ i, x ≠ st.sentinel i ∧ x ∉ L i

theorem Out.ne_own {i : Fin 4} {y : Nat} (hx : Out st L x) (hy : y = st.sentinel i ∨ y ∈ L i) : x ≠ y := by
  rintro rfl
  exact hy.elim (hx i).1 (hx i).2

theorem push {i : Fin 4} (h : Waits st block L next prev) (hb : block b) (hfresh : ∀ j, b ∉ L j) :
    ∃ st' next' prev', portDVDPushWaitingQueue st i b = some st' ∧
      Waits st' block (update L i (L i ++ [b])) next' prev' ∧
      ∀ x, x ≠ b → Out st L x → next' x = next x ∧ prev' x = prev x := by
  have hq : Node st block (st.sentinel i) := .inr ⟨i, rfl⟩
  have hp : Node st block (prev (st.sentinel i)) := h.own_node (h.rings.prev_own (.inl rfl))
  have hprev := h.shows.prev _ hq
  have hs₁ := h.shows.storeNext hp b
  have h₁ := h.shows.setNext hp (h.node_lt (.inl hb))
  have hs₂ := h₁.storePrev (x := b) (.inl hb) (prev (st.sentinel i))
  have h₂ := h₁.setPrev (x := b) (.inl hb) (h.node_lt hp)
  have hs₃ := h₂.storeNext (x := b) (.inl hb) (st.sentinel i)
  have h₃ := h₂.setNext (x := b) (.inl hb) (h.node_lt hq)
  have hs₄ := h₃.storePrev (x := st.sentinel i) hq b
  have h₄ := h₃.setPrev (x := st.sentinel i) hq (h.node_lt (.inl hb))
  have hrings := h.rings.push (i := i) (update (update next (prev (st.sentinel i)) b) b (st.sentinel i))
    (update (update prev b (prev (st.sentinel i))) (st.sentinel i) b) (fun j => h.sentinel_ne hb) hfresh
    (fun y => by rw [Function.update_apply, Function.update_apply])
    fun y => by rw [Function.update_apply, Function.update_apply]
  refine ⟨_, _, _, ?_, ⟨h₄, hrings, ?_⟩, ?_⟩
  · simp only [portDVDPushWaitingQueue, PORT_DVD_QUEUE_PREV, PORT_DVD_BLOCK_NEXT, PORT_DVD_BLOCK_PREV,
      h.shows.placed.queueAddr_eq, hprev, hs₁, hs₂, hs₃, hs₄, Option.bind_eq_bind, Option.bind_some]
  · intro j x hx
    by_cases hj : j = i
    · subst hj
      rw [update_self] at hx
      cases List.mem_append.mp hx with
      | inl hx => exact h.blocks j x hx
      | inr hx => exact List.mem_singleton.mp hx ▸ hb
    · rw [update_of_ne hj] at hx
      exact h.blocks j x hx
  · intro x hxb hx
    have hxp := hx.ne_own (h.rings.prev_own (i := i) (.inl rfl))
    have hxq := hx.ne_own (i := i) (.inl rfl)
    exact ⟨(update_of_ne hxb ..).trans (update_of_ne hxp ..), (update_of_ne hxq ..).trans (update_of_ne hxb ..)⟩

theorem erase_blocks (h : Waits st block L next prev) (i : Fin 4) (y : Nat) :
    ∀ j, ∀ x ∈ update L i ((L i).erase y) j, block x := by
  intro j x hx
  by_cases hj : j = i
  · subst hj
    rw [update_self] at hx
    exact h.blocks j x (List.mem_of_mem_erase hx)
  · rw [update_of_ne hj] at hx
    exact h.blocks j x hx

/-- The front of a list comes out, and its links are cleared. -/
theorem popPrio {i : Fin 4} {l : List Nat} (h : Waits st block L next prev) (hL : L i = b :: l) :
    ∃ st' next' prev', popWaitingQueuePrio st i = some (b, st') ∧ Waits st' block (update L i l) next' prev' ∧
      next' b = 0 ∧ prev' b = 0 ∧ ∀ x, Out st L x → next' x = next x ∧ prev' x = prev x := by
  have hq : Node st block (st.sentinel i) := .inr ⟨i, rfl⟩
  have hb : b ∈ L i := by
    rw [hL]
    exact List.mem_cons_self
  have hbn : Node st block b := h.own_node (.inr hb)
  have hfront : next (st.sentinel i) = b := by rw [h.rings.next_eq, hL, Linked.firstOf_cons]
  have hback : prev b = st.sentinel i := hfront ▸ h.rings.prev_next (.inl rfl)
  have hn : Node st block (next b) := h.own_node (h.rings.next_own (.inr hb))
  have hload : st.load (st.sentinel i + 0) = some b := hfront ▸ h.shows.load_next hq
  have hload' := h.shows.load_next hbn
  have hs₁ := h.shows.storeNext hq (next b)
  have h₁ := h.shows.setNext hq (h.node_lt hn)
  have hs₂ := h₁.storePrev (x := next b) hn (st.sentinel i)
  have h₂ := h₁.setPrev (x := next b) hn (h.node_lt hq)
  have hs₃ := h₂.storeNext (x := b) hbn 0
  have h₃ := h₂.setNext (x := b) (v := 0) hbn (by decide)
  have hs₄ := h₃.storePrev (x := b) hbn 0
  have h₄ := h₃.setPrev (x := b) (v := 0) hbn (by decide)
  have hrings := h.rings.remove (update (update next (st.sentinel i) (next b)) b 0)
    (update (update prev (next b) (st.sentinel i)) b 0) hb
    (fun y hy => by rw [update_of_ne hy, Function.update_apply, hback])
    fun y hy => by rw [update_of_ne hy, Function.update_apply, hback]
  have hblocks := h.erase_blocks i b
  rw [hL, List.erase_cons_head] at hrings hblocks
  refine ⟨_, _, _, ?_, ⟨h₄, hrings, hblocks⟩, update_self .., update_self .., ?_⟩
  · simp only [popWaitingQueuePrio, PORT_DVD_QUEUE_NEXT, PORT_DVD_BLOCK_NEXT, PORT_DVD_BLOCK_PREV,
      h.shows.placed.queueAddr_eq, hload, hload', hs₁, hs₂, hs₃, hs₄, Option.bind_eq_bind, Option.bind_some]
  · intro x hx
    have hxq := hx.ne_own (i := i) (.inl rfl)
    have hxb := hx.ne_own (.inr hb)
    have hxn := hx.ne_own (h.rings.next_own (.inr hb))
    exact ⟨(update_of_ne hxb ..).trans (update_of_ne hxq ..), (update_of_ne hxb ..).trans (update_of_ne hxn ..)⟩

theorem dequeue {i : Fin 4} (h : Waits st block L next prev) (hb : b ∈ L i) :
    ∃ st' next' prev', portDVDDequeueWaitingQueue st b = some (1, st') ∧
      Waits st' block (update L i ((L i).erase b)) next' prev' ∧ next' b ≠ 0 ∧ prev' b ≠ 0 ∧
      ∀ x, Out st L x → next' x = next x ∧ prev' x = prev x := by
  have hbn : Node st block b := h.own_node (.inr hb)
  have hp : Node st block (prev b) := h.own_node (h.rings.prev_own (.inr hb))
  have hn : Node st block (next b) := h.own_node (h.rings.next_own (.inr hb))
  have hp0 := h.shows.placed.node_pos hp
  have hn0 := h.shows.placed.node_pos hn
  have hload := h.shows.load_next hbn
  have hload' := h.shows.prev b hbn
  have hs₁ := h.shows.storeNext hp (next b)
  have h₁ := h.shows.setNext hp (h.node_lt hn)
  have hs₂ := h₁.storePrev (x := next b) hn (prev b)
  have h₂ := h₁.setPrev (x := next b) hn (h.node_lt hp)
  have hrings := h.rings.remove (update next (prev b) (next b)) (update prev (next b) (prev b)) hb
    (fun y _ => Function.update_apply ..) fun y _ => Function.update_apply ..
  refine ⟨_, _, _, ?_, ⟨h₂, hrings, h.erase_blocks i b⟩, ?_, ?_, ?_⟩
  · have hlinks : ¬(prev b = 0 ∨ next b = 0) := by omega
    simp only [portDVDDequeueWaitingQueue, PORT_DVD_BLOCK_NEXT, PORT_DVD_BLOCK_PREV, hload, hload', if_neg hlinks, hs₁,
      hs₂, Option.bind_eq_bind, Option.bind_some]
  · rw [Function.update_apply]
    split <;> omega
  · rw [Function.update_apply]
    split <;> omega
  · intro x hx
    have hxp := hx.ne_own (h.rings.prev_own (.inr hb))
    have hxn := hx.ne_own (h.rings.next_own (.inr hb))
    exact ⟨update_of_ne hxp .., update_of_ne hxn ..⟩

/-- A block is in one list only. -/
theorem erase_eq {i : Fin 4} (h : Waits st block L next prev) (hb : b ∈ L i) :
    (fun j => (L j).erase b) = update L i ((L i).erase b) := by
  funext j
  by_cases hj : j = i
  · rw [hj, update_self]
  · rw [update_of_ne hj]
    exact List.erase_of_not_mem fun hm => hj (h.rings.disjoint j i b hm hb)

/-- A walk along the rest of a list finds what is in it. -/
theorem searchQueue_eq {i : Fin 4} {u w : List Nat} {n : Nat} (h : Waits st block L next prev) (hL : L i = u ++ w)
    (hn : w.length < n) :
    searchQueue st (st.sentinel i) b n (firstOf (st.sentinel i) w) = some (decide (b ∈ w)) := by
  induction w generalizing u n with
  | nil =>
    cases n with
    | zero => cases hn
    | succ n =>
      rw [Linked.firstOf_nil, searchQueue, if_pos rfl]
      rfl
  | cons y w ih =>
    cases n with
    | zero => cases hn
    | succ n =>
      have hy : y ∈ L i := by
        rw [hL]
        exact List.mem_append_right _ List.mem_cons_self
      have hne : y ≠ st.sentinel i := fun he => h.rings.sentinel i i (he ▸ hy)
      rw [Linked.firstOf_cons, searchQueue, if_neg hne]
      by_cases hyb : y = b
      · rw [if_pos hyb, hyb]
        simp
      · have hd := h.rings.dll i
        rw [hL] at hd
        have hnext : st.load (y + PORT_DVD_BLOCK_NEXT) = some (firstOf (st.sentinel i) w) := by
          rw [PORT_DVD_BLOCK_NEXT, h.shows.load_next (h.own_node (.inr hy)), hd.links.2]
        rw [List.append_cons] at hL
        rw [if_neg hyb, hnext, Option.bind_eq_bind, Option.bind_some, ih hL (Nat.lt_of_succ_lt_succ hn)]
        simp [Ne.symm hyb]

/-- The walk has steps enough for any list. -/
theorem length_lt (h : Waits st block L next prev) (i : Fin 4) : (L i).length < searchFuel := by
  have hsub : L i ⊆ List.range (2 ^ 32) := by
    intro x hx
    exact List.mem_range.mpr (h.node_lt (h.own_node (.inr hx)))
  have hle := (List.subperm_of_subset (h.rings.dll i).nodup hsub).length_le
  rw [List.length_range] at hle
  exact Nat.lt_succ_of_le hle

theorem searchFrom_eq (h : Waits st block L next prev) (is : List (Fin 4)) :
    searchFrom st b (is.map Fin.val) = some (if ∃ i ∈ is, b ∈ L i then 1 else 0) := by
  induction is with
  | nil => rfl
  | cons i is ih =>
    have hfront : st.load (st.sentinel i + PORT_DVD_QUEUE_NEXT) = some (firstOf (st.sentinel i) (L i)) := by
      rw [PORT_DVD_QUEUE_NEXT, h.shows.load_next (.inr ⟨i, rfl⟩), h.rings.next_eq]
    have hwalk := h.searchQueue_eq (b := b) (u := []) (i := i) rfl (h.length_lt i)
    simp only [List.map_cons, searchFrom, h.shows.placed.queueAddr_eq, hfront, hwalk, ih, Option.bind_eq_bind,
      Option.bind_some]
    by_cases hb : b ∈ L i
    · have hL : L i ≠ [] := List.ne_nil_of_mem hb
      rw [if_pos (fun he => hL (h.rings.next_self.mp (by rw [h.rings.next_eq, he]))), decide_eq_true hb]
      simp [hb]
    · rw [decide_eq_false hb]
      simp [hb]

theorem isBlockIn (h : Waits st block L next prev) :
    portDVDIsBlockInWaitingQueue st b = some (if ∃ i, b ∈ L i then 1 else 0) := by
  have hrange : List.range PORT_DVD_MAX_QUEUES = (List.finRange 4).map Fin.val := List.map_coe_finRange_eq_range.symm
  rw [portDVDIsBlockInWaitingQueue, hrange, h.searchFrom_eq]
  simp

end Waits

section Clear

theorem Placed.shows (h : Placed st block) : Shows st block (fun x => st.word x) fun x => st.word (x + 4) :=
  ⟨h, fun _ hx => h.load_eq (k := 0) hx (.inl rfl), fun _ hx => h.load_eq (k := 4) hx (.inr rfl)⟩

/-- Sentinels lead to themselves as far as queues are cleared; blocks keep their links. -/
theorem clearUpTo_shows (h : Placed st block) {n : Nat} (hn : n ≤ 4) :
    ∃ st' next prev, clearUpTo st n = some st' ∧ Shows st' block next prev ∧
      (∀ i : Fin 4, i < n → next (st'.sentinel i) = st'.sentinel i ∧ prev (st'.sentinel i) = st'.sentinel i) ∧
      ∀ b, block b → st'.load b = st.load b ∧ st'.load (b + 4) = st.load (b + 4) := by
  induction n with
  | zero => exact ⟨st, _, _, rfl, h.shows, nofun, fun _ _ => ⟨rfl, rfl⟩⟩
  | succ n ih =>
    obtain ⟨st₁, next, prev, hclear, hs, hself, hkeep⟩ := ih (by omega)
    let i : Fin 4 := ⟨n, by omega⟩
    have hq : Node st₁ block (st₁.sentinel i) := .inr ⟨i, rfl⟩
    have hlt := hs.placed.node_fits hq
    have hs₁ := hs.storeNext hq (st₁.sentinel i)
    have h₁ := hs.setNext (v := st₁.sentinel i) hq (by omega)
    have hs₂ := h₁.storePrev (x := st₁.sentinel i) hq (st₁.sentinel i)
    have h₂ := h₁.setPrev (x := st₁.sentinel i) (v := st₁.sentinel i) hq (by omega)
    have haddr : st₁.queueAddr n = st₁.sentinel i := hs.placed.queueAddr_eq i
    refine ⟨_, _, _, ?_, h₂, ?_, ?_⟩
    · simp only [clearUpTo, hclear, haddr, PORT_DVD_QUEUE_NEXT, PORT_DVD_QUEUE_PREV, hs₁, hs₂, Option.bind_eq_bind,
        Option.bind_some]
    · intro j hj
      by_cases hji : j = i
      · subst hji
        exact ⟨update_self .., update_self ..⟩
      · have hne : st₁.sentinel j ≠ st₁.sentinel i := fun he => hji (Placed.sentinel_injective _ he)
        have hjn : j < n := by
          have hval : (j : Nat) ≠ n := fun he => hji (Fin.ext he)
          omega
        obtain ⟨hnext, hprev⟩ := hself j hjn
        exact ⟨(update_of_ne hne ..).trans hnext, (update_of_ne hne ..).trans hprev⟩
    · intro b hb
      have hne : b ≠ st₁.sentinel i := by
        have hbeside := hs.placed.beside b hb
        unfold QueueState.sentinel
        omega
      have hbn : Node st₁ block b := .inl hb
      have hn₁ := (h₂.next b hbn).trans (congrArg some (update_of_ne hne ..))
      have hp₁ := (h₂.prev b hbn).trans (congrArg some (update_of_ne hne ..))
      exact ⟨(hn₁.trans (hs.next b hbn).symm).trans (hkeep b hb).1, (hp₁.trans (hs.prev b hbn).symm).trans (hkeep b hb).2⟩

/-- A cleared queue holds nothing. -/
theorem clear_waits (h : Placed st block) :
    ∃ st' next prev, portDVDClearWaitingQueue st = some st' ∧ Waits st' block (fun _ => []) next prev ∧
      ∀ b, block b → st'.load b = st.load b ∧ st'.load (b + 4) = st.load (b + 4) := by
  obtain ⟨st', next, prev, hclear, hs, hself, hkeep⟩ := clearUpTo_shows h (Nat.le_refl 4)
  exact ⟨st', next, prev, hclear, ⟨hs, .empty (Placed.sentinel_injective _) (fun i => (hself i i.isLt).1)
    fun i => (hself i i.isLt).2, nofun⟩, hkeep⟩

end Clear

section Runs

/-- The states calls lead to after the queue was cleared, each with the lists it should hold. -/
inductive QueueRun (block : Nat → Prop) : QueueState → (Fin 4 → List Nat) → Prop
  | clear {st st' : QueueState} : Placed st block → portDVDClearWaitingQueue st = some st' → QueueRun block st' fun _ => []
  | call {st st' : QueueState} {L : Fin 4 → List Nat} {c : QueueCall} {r : Nat} : QueueRun block st L →
      c.Allowed block L → c.exec st = some (r, st') → QueueRun block st' (c.spec L).2

/-- A call returns what it should and leaves the lists it should. -/
theorem Waits.call (h : Waits st block L next prev) {c : QueueCall} (hc : c.Allowed block L) :
    ∃ st' next' prev', c.exec st = some ((c.spec L).1, st') ∧ Waits st' block (c.spec L).2 next' prev' := by
  cases c with
  | push prio b =>
    obtain ⟨st', next', prev', hpush, hw, -⟩ := h.push (i := prio) hc.1 hc.2
    refine ⟨st', next', prev', ?_, hw⟩
    rw [QueueCall.exec, hpush]
    rfl
  | pop =>
    rw [QueueCall.exec, QueueCall.spec, portDVDPopWaitingQueue, h.firstWaiting_eq, Option.bind_eq_bind, Option.bind_some]
    cases hu : urgent L with
    | none => exact ⟨st, next, prev, rfl, h⟩
    | some i =>
      have hne : L i ≠ [] := by simpa using List.find?_some hu
      obtain ⟨b, l, hL⟩ := List.exists_cons_of_ne_nil hne
      obtain ⟨st', next', prev', hpop, hw, -⟩ := h.popPrio hL
      have hspec : QueueCall.pop.spec L = (b, update L i l) := by
        rw [QueueCall.spec, hu]
        dsimp only
        rw [hL]
        rfl
      rw [QueueCall.spec, hu] at hspec
      rw [hspec]
      exact ⟨st', next', prev', hpop, hw⟩
  | dequeue b =>
    obtain ⟨i, hb⟩ := hc
    obtain ⟨st', next', prev', hde, hw, -⟩ := h.dequeue hb
    refine ⟨st', next', prev', hde, ?_⟩
    rw [QueueCall.spec, h.erase_eq hb]
    exact hw
  | check =>
    refine ⟨st, next, prev, ?_, h⟩
    have hsome : ((urgent L).map Fin.val).isSome ↔ ∃ i, L i ≠ [] := by
      rw [Option.isSome_map, urgent, List.find?_isSome]
      simp
    rw [QueueCall.exec, QueueCall.spec, portDVDCheckWaitingQueue, h.firstWaiting_eq, Option.map_some, Option.map_some]
    by_cases hL : ∃ i, L i ≠ []
    · rw [if_pos hL, if_pos (hsome.mpr hL)]
    · rw [if_neg hL, if_neg fun hs => hL (hsome.mp hs)]
  | isBlockIn b =>
    refine ⟨st, next, prev, ?_, h⟩
    rw [QueueCall.exec, QueueCall.spec, h.isBlockIn]
    rfl

theorem QueueRun.waits (h : QueueRun block st L) : ∃ next prev, Waits st block L next prev := by
  induction h with
  | clear hp hclear =>
    obtain ⟨st', next, prev, hclear', hw, -⟩ := clear_waits hp
    cases hclear.symm.trans hclear'
    exact ⟨next, prev, hw⟩
  | call _ hc hr ih =>
    obtain ⟨next, prev, hw⟩ := ih
    obtain ⟨st', next', prev', hr', hw'⟩ := hw.call hc
    cases hr.symm.trans hr'
    exact ⟨next', prev', hw'⟩

end Runs

/-- The waiting queue refines four lists: whatever was called before, memory holds the lists
the calls make, the links around each sentinel agree, and a call returns what it does on
the lists. Null is returned for a block only by empty lists. -/
theorem queueRun_refines (h : QueueRun block st L) :
    (∃ next prev, Shows st block next prev ∧ Rings st.sentinel next prev L ∧
      ∀ i x, x = st.sentinel i ∨ x ∈ L i → prev (next x) = x ∧ next (prev x) = x) ∧
    (∀ c : QueueCall, c.Allowed block L → ∃ st', c.exec st = some ((c.spec L).1, st')) ∧
    ((QueueCall.pop.spec L).1 = 0 ↔ ∀ i, L i = []) := by
  obtain ⟨next, prev, hw⟩ := h.waits
  refine ⟨⟨next, prev, hw.shows, hw.rings, ?_⟩, ?_, ?_⟩
  · intro i x hx
    exact ⟨hw.rings.prev_next hx, hw.rings.next_prev hx⟩
  · intro c hc
    obtain ⟨st', _, _, hr, _⟩ := hw.call hc
    exact ⟨st', hr⟩
  · rw [QueueCall.spec]
    cases hu : urgent L with
    | none => simpa [urgent] using hu
    | some i =>
      have hne : L i ≠ [] := by simpa using List.find?_some hu
      obtain ⟨b, l, hL⟩ := List.exists_cons_of_ne_nil hne
      have hpos := hw.shows.placed.pos b (hw.blocks i b (by simp [hL]))
      constructor
      · intro h0
        have hb : b = 0 := by simpa [hL] using h0
        omega
      · intro hall
        exact absurd (hall i) hne

section Trial

/-- A queue below a pool of blocks. -/
def trialQueue : QueueState := ⟨0x1000, ⟨0x1000, 0x100, fun _ => 0xFF⟩⟩

def trialPool (b : Nat) : Prop := b = 0x1040 ∨ b = 0x1080

theorem trialQueue_placed : Placed trialQueue trialPool := by
  refine ⟨by decide, by decide, ⟨by decide, by decide⟩, ?_, ?_, ?_, ?_, ?_⟩
  · rintro b (rfl | rfl) <;> decide
  · rintro b (rfl | rfl) <;> decide
  · rintro b (rfl | rfl) <;> exact ⟨by decide, by decide⟩
  · rintro b c (rfl | rfl) (rfl | rfl) hne <;> omega
  · rintro b (rfl | rfl) <;> decide

/-- The queue is cleared, and two blocks are pushed with the priorities given. -/
def trialPushed (i j : Fin 4) : Option QueueState := do
  let st ← portDVDClearWaitingQueue trialQueue
  let x ← QueueCall.exec st (.push i 0x1040)
  let y ← QueueCall.exec x.2 (.push j 0x1080)
  some y.2

theorem trialPushed_run : ∃ st, trialPushed 2 1 = some st ∧
    QueueRun trialPool st (update (update (fun _ => []) 2 [0x1040]) 1 [0x1080]) := by
  obtain ⟨st₀, _, _, hclear, hw₀, -⟩ := clear_waits trialQueue_placed
  obtain ⟨st₁, _, _, hr₁, hw₁⟩ := hw₀.call (c := .push 2 0x1040) ⟨.inl rfl, nofun⟩
  obtain ⟨st₂, _, _, hr₂, -⟩ := hw₁.call (c := .push 1 0x1080) ⟨.inr rfl, by decide⟩
  have h₁ := (QueueRun.clear trialQueue_placed hclear).call (c := .push 2 0x1040) ⟨.inl rfl, nofun⟩ hr₁
  have h₂ := h₁.call (c := .push 1 0x1080) ⟨.inr rfl, by decide⟩ hr₂
  refine ⟨st₂, ?_, h₂⟩
  simp only [trialPushed, hclear, hr₁, hr₂, Option.bind_eq_bind, Option.bind_some]

theorem trialQueue_refines : ∃ st st', trialPushed 2 1 = some st ∧ QueueCall.pop.exec st = some (0x1080, st') := by
  obtain ⟨st, hst, hrun⟩ := trialPushed_run
  obtain ⟨st', hpop⟩ := (queueRun_refines hrun).2.1 .pop trivial
  exact ⟨st, st', hst, hpop⟩

end Trial

end SdkPort.DVD
