import SdkPort.OS.MutexField
import SdkPort.Lib.Waves

/-!
# Waves along owners end

A wave follows the owner of the mutex that the changed thread waits for, and owners may
wait for each other in a circle. Promoting takes every thread it meets to one priority,
and re-evaluating after one thread has changed makes all threads it meets better or all
worse. Either way a thread changes at most once.
-/
namespace SdkPort.OSThread

namespace Sched

open Inherit (Turn Settled demands)
open Runs (bind_eq_ok)

variable {W V : Prop} {X D H E : Set Addr} {a b c : Sched} {t u m : Addr} {p n : Nat} {d : Turn}

/-- The addresses of threads. -/
def slots : Finset Addr := Finset.Icc 1 PORT_MAX_THREADS

theorem mem_slots : t ∈ slots ↔ Slot t := by
  rw [slots, Finset.mem_Icc, Slot, Nat.one_le_iff_ne_zero]

theorem Core.mem_slots (h : Core X a) (hl : a.live t) : t ∈ slots := Sched.mem_slots.mpr (h.slot t hl.1)

/-- How many threads a wave may still change. -/
def due (d : Turn) (a : Sched) : Nat := (slots.filter fun t => d.Due (a.prio t)).card

theorem due_le (d : Turn) (a : Sched) : a.due d ≤ PORT_MAX_THREADS :=
  (Finset.card_filter_le _ _).trans (Nat.le_of_eq (Nat.card_Icc 1 PORT_MAX_THREADS))

/-- What one step of a wave does, if it goes on. -/
theorem Shape.wave (hs : Shape X D ∅ a) (hX : Adrift X a) (h0 : ¬ a.suspended t) (hp : p ≤ 31)
    {r : Addr × Sched} (hr : a.setEffectivePriority t p = .ok r) (hz : r.1 ≠ 0) :
    a.live t ∧ (a.tcb t).state = .waiting ∧ r.1 = a.nextOwner t ∧ Shape X D ∅ r.2 ∧
      r.2.prio = Function.update a.prio t p := by
  have hl : a.live t := by
    by_contra hl
    simp only [Sched.live, not_and_or, not_not] at hl
    rcases hl with hl | hl <;> rw [Sched.setEffectivePriority, hl] at hr <;> cases hr <;> exact hz rfl
  obtain ⟨hprio, hwait, hnot⟩ := setEffectivePriority_prio hl hr
  have hst : (a.tcb t).state = .waiting := by
    by_contra hst
    exact hz (hnot hst)
  have hc := hs.core.setEffectivePriority hX h0 hp hr
  exact ⟨hl, hst, hwait hst, hs.reprio hc (Reprio.setEffectivePriority h0 hr), hprio⟩

theorem Core.setEffectivePriority_ok (h : Core ∅ a) (t : Addr) (p : Nat) :
    ∃ r, a.setEffectivePriority t p = .ok r :=
  Sched.setEffectivePriority_ok (fun hs => ((h.placed t (Set.notMem_empty t)).waiting hs).ne_null) p

/-- Promoting ends, whoever waits for whom. -/
theorem Shape.promoteThread_ends (hs : Shape ∅ D ∅ a) (hp : p ≤ 31) (hn : a.due (.better p) < n) :
    ∃ b, Sched.promoteThread p n a t = .ok b := by
  induction n generalizing a t with
  | zero => exact absurd hn (Nat.not_lt_zero _)
  | succ n ih =>
    rw [Sched.promoteThread]
    by_cases hsus : a.suspended t
    · exact ⟨a, if_pos hsus⟩
    rw [if_neg hsus]
    by_cases hle : a.prio t ≤ p
    · exact ⟨a, if_pos hle⟩
    rw [if_neg hle]
    obtain ⟨r, hr⟩ := hs.core.setEffectivePriority_ok t p
    rw [hr]
    by_cases hz : r.1 = 0
    · exact ⟨r.2, if_pos hz⟩
    obtain ⟨hl, _, _, hs', hprio⟩ := hs.wave (fun _ hx => hx.elim) hsus hp hr hz
    have hm : (Turn.better p).Moves (a.prio t) p := ⟨rfl, Nat.lt_of_not_le hle⟩
    have hlt := hm.card_lt (hs.core.mem_slots hl)
    rw [← hprio] at hlt
    obtain ⟨b, hb⟩ := ih hs' (Nat.lt_of_lt_of_le hlt (Nat.le_of_lt_succ hn)) (t := r.1)
    exact ⟨b, (if_neg hz).trans hb⟩

/-- Where all threads but one are settled, re-evaluating that one ends: the thread it
blocks either stays settled or changes in the same direction. -/
theorem Shape.updatePriority_ends (hs : Shape ∅ ∅ ∅ a) (hw : Waits ∅ a) (he : Exact (insert t ∅) a)
    (ht : t ≠ 0) (hd : a.suspended t ∨ a.effectivePriority t = a.prio t ∨
      d.Moves (a.prio t) (a.effectivePriority t)) (hn : a.due d < n) :
    ∃ b, Sched.updatePriority n a t = .ok b := by
  induction n generalizing a t with
  | zero => exact absurd hn (Nat.not_lt_zero _)
  | succ n ih =>
    rw [Sched.updatePriority, if_neg ht]
    by_cases hsus : a.suspended t
    · exact ⟨a, if_pos hsus⟩
    rw [if_neg hsus]
    by_cases heq : a.prio t = a.effectivePriority t
    · exact ⟨a, if_pos heq⟩
    rw [if_neg heq]
    have hm : d.Moves (a.prio t) (a.effectivePriority t) := by
      rcases hd with h | h | h
      · exact absurd h hsus
      · exact absurd h.symm heq
      · exact h
    obtain ⟨r, hr⟩ := hs.core.setEffectivePriority_ok t (a.effectivePriority t)
    rw [hr]
    by_cases hz : r.1 = 0
    · exact ⟨r.2, if_pos hz⟩
    have hX : Adrift ∅ a := fun _ hx => hx.elim
    have hrep := Reprio.setEffectivePriority hsus hr
    obtain ⟨hl, hst, hnext, hs', hprio⟩ := hs.wave hX hsus (hs.core.effectivePriority_le t) hr hz
    have hlt := hm.card_lt (hs.core.mem_slots hl)
    rw [← hprio] at hlt
    have hb : a.blocks t r.1 := by
      rw [hnext]
      exact hs.blocks_nextOwner hw (Set.notMem_empty t) hst (hnext ▸ hz)
    have hne : r.1 ≠ t := fun he => hs.not_blocks_self (he ▸ hb)
    have hnew : r.2.suspended r.1 ∨ r.2.effectivePriority r.1 = r.2.prio r.1 ∨
        d.Moves (r.2.prio r.1) (r.2.effectivePriority r.1) := by
      by_cases hsus' : a.suspended r.1
      · exact .inl ((hrep.not_suspended r.1).mpr hsus')
      have hset := he r.1 (by simp [hne]) (hs.live_of_blocks hb) hsus'
      have hleast := hs'.core.effectivePriority_isLeast r.1
      have hbase : r.2.base r.1 = a.base r.1 := hrep.base r.1
      rw [Inherit.demands_congr hbase (fun w => hrep.blocks hs.core hs'.core w r.1)
        (fun w _ => congrFun hprio w)] at hleast
      have hkeep : r.2.prio r.1 = a.prio r.1 := by rw [hprio, Function.update_of_ne hne]
      rw [hkeep]
      exact .inr (hm.next hset hb hleast)
    obtain ⟨b, hb⟩ := ih hs' (hw.reprio hrep) (he.setEffectivePriority hs hX hsus hr) hz hnew
      (Nat.lt_of_lt_of_le hlt (Nat.le_of_lt_succ hn))
    exact ⟨b, (if_neg hz).trans hb⟩

/-- The wave from the thread that a changed waiter blocks. -/
theorem Fit.updateOwner_ends (h : Fit True V ∅ ∅ ∅ (insert (a.nextOwner t) ∅) a)
    (h0 : (a.tcb t).mutex ≠ 0 → a.nextOwner t ≠ 0) (hn : PORT_MAX_THREADS < n) :
    ∃ b, a.updateOwner n t = .ok b := by
  unfold Sched.updateOwner
  by_cases hm : (a.tcb t).mutex = 0
  · exact ⟨a, if_pos hm⟩
  rw [if_neg hm]
  have hne := h0 hm
  have he := h.exact trivial
  rw [nextOwner, if_neg hm] at hne he
  set o := (a.mtx (a.tcb t).mutex).thread
  by_cases heq : a.effectivePriority o = a.prio o
  · exact h.shape.updatePriority_ends (d := .better 0) (h.waits trivial) he hne (.inr (.inl heq))
      (Nat.lt_of_le_of_lt (due_le _ a) hn)
  · obtain ⟨d, hd⟩ := Turn.exists_moves (Ne.symm heq)
    exact h.shape.updatePriority_ends (d := d) (h.waits trivial) he hne (.inr (.inr hd))
      (Nat.lt_of_le_of_lt (due_le _ a) hn)

/-- A step that may only overflow a counter. -/
def Ends (x : Except Fault β) : Prop := (∃ v, x = .ok v) ∨ x = .error .overflow

theorem Ends.bind {x : Except Fault β} {f : β → Except Fault γ} (hx : Ends x)
    (hf : ∀ v, x = .ok v → Ends (f v)) : Ends (x >>= f) := by
  rcases hx with ⟨v, rfl⟩ | rfl
  · exact hf v rfl
  · exact .inr rfl

theorem ends_checkS32 (v : Int) : Ends (checkS32 v) := by
  unfold checkS32
  split
  · exact .inl ⟨_, rfl⟩
  · exact .inr rfl

/-- A counter that overflows stops a call before it changes anything. -/
theorem Fit.suspendThread_ends (h : Fine True a) (hn : PORT_MAX_THREADS < n) (t : Addr) :
    Ends (a.suspendThread n t) := by
  refine (ends_checkS32 _).bind fun inc hinc => ?_
  have hi := checkS32_eq hinc
  subst hi
  split
  · rename_i hz
    rw [hz]
    refine .bind (.inl ?_) fun b _ => .inl ⟨_, rfl⟩
    unfold Sched.suspendRequeue
    simp only [modT_tcb, Function.update_self]
    cases hst : (a.tcb t).state with
    | running => exact ⟨_, rfl⟩
    | ready => exact ⟨_, rfl⟩
    | waiting =>
      refine (h.parked hst).updateOwner_ends (fun hm => ?_) hn
      have hne := (h.nextOwner_ne hst (by simpa [park] using hm)).2
      simpa [nextOwner, park] using hne
    | unused => exact ⟨_, rfl⟩
    | moribund => exact ⟨_, rfl⟩
  · exact .inl ⟨_, rfl⟩

theorem Fit.resumeThread_ends (h : Fine True a) (hn : PORT_MAX_THREADS < n) (t : Addr) :
    Ends (a.resumeThread n t) := by
  refine (ends_checkS32 _).bind fun dec hdec => ?_
  split
  · exact .inl ⟨_, rfl⟩
  split
  · rename_i hz
    rw [hz]
    refine .bind (.inl ?_) fun b _ => .inl ⟨_, rfl⟩
    unfold Sched.resumeRequeue
    simp only [modT_tcb, Function.update_self]
    cases hst : (a.tcb t).state with
    | running => exact ⟨_, rfl⟩
    | ready => exact ⟨_, rfl⟩
    | waiting =>
      refine (h.refreshed hst).updateOwner_ends (fun hm => ?_) hn
      have hne := (h.nextOwner_ne hst (by simpa [refresh] using hm)).2
      simpa [nextOwner, refresh] using hne
    | unused => exact ⟨_, rfl⟩
    | moribund => exact ⟨_, rfl⟩
  · exact .inl ⟨_, rfl⟩

/-- The contended branch always gets to sleep. -/
theorem Fit.blockOn_ends (h : Fine W a) (hr : a.CurrentRuns) (hm : MutexAddr m)
    (hn : PORT_MAX_THREADS < n) : ∃ c b, a.blockOn n m = .ok b ∧ b = c.sleepThread (.mutex m) ∧
      Reprio (a.modT a.currentThread ({ · with mutex := m })) c ∧ Core ∅ c := by
  set a₁ := a.modT a.currentThread ({ · with mutex := m }) with ha₁
  have h₁ : Fine W a₁ := h.modWords
    ⟨rfl, rfl, rfl, rfl, (h.shape.core.bounded _).suspend, Iff.rfl⟩ (fun _ => hm) (by simp [hr.2])
  have hr₁ : a₁.CurrentRuns := ⟨hr.1, by simp [ha₁, hr.2]⟩
  have hp31 := hr₁.prio_le h₁.shape.core (by simp)
  obtain ⟨c, hc⟩ := h₁.shape.promoteThread_ends (t := (a₁.mtx m).thread) hp31
    (Nat.lt_of_le_of_lt (due_le _ a₁) hn)
  obtain ⟨hcc, hrep⟩ := h₁.shape.core.promoteThread (fun _ hx => hx.elim) hp31 hc
  refine ⟨c, _, ?_, rfl, hrep, hcc⟩
  rw [Sched.blockOn, ← ha₁, hc]
  rfl

theorem Fit.lockMutex_ends (h : Fine W a) (hr : a.CurrentRuns) (hm : MutexAddr m)
    (hn : PORT_MAX_THREADS < n) : Ends (a.lockMutex n m) := by
  unfold Sched.lockMutex
  split
  · exact (ends_checkS32 _).bind fun _ _ => .inl ⟨_, rfl⟩
  split
  · exact (ends_checkS32 _).bind fun _ _ => .inl ⟨_, rfl⟩
  · obtain ⟨_, b, hb, _⟩ := h.blockOn_ends hr hm hn
    exact .inl ⟨b, hb⟩

end Sched

end SdkPort.OSThread
