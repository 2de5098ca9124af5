import SdkPort.OS.RepWave
import SdkPort.OS.SchedEnd

/-!
# Selecting and waking in memory

The functions that give the processor away and those that empty a wait queue
compute their counterparts over lists. They cannot fail on a sound state.
-/
namespace SdkPort.OSThread

open Linked (firstOf)
open Runs (Gives Lockstep gives_bind gives_pure lockstep_of_gives lockstep_bind run_bind_ok)
open Sched (Core Shape Adrift Moved Idle)

variable {X D H : Set Addr} {s : St} {a : Sched} {t m : Addr} {q : QueueAddr} {n : Nat}

theorem Rep.preempt (h : Rep s a) (ht : t ≠ 0) (hf : ∀ r, t ∉ listOf a .link r) :
    Gives Rep (preempt t s) () (a.preempt t) := by
  unfold OSThread.preempt Sched.preempt
  exact gives_bind (h.tcbSet ht _) fun s₁ h₁ => h₁.portSetRun ht hf

/-- A running thread is in no list of links. -/
theorem Sched.Core.fresh_idle (h : Core X a) (hi : (a.tcb t).home = none) (r : QueueAddr) :
    t ∉ listOf a .link r :=
  (h.exempt hi).fresh (Set.mem_insert t X) r

theorem Rep.preempt_running (h : Rep s a) (hc : Core X a)
    (hs : (a.tcb a.currentThread).state = .running) :
    Gives Rep (OSThread.preempt a.currentThread s) () (a.preempt a.currentThread) := by
  have ht : a.currentThread ≠ 0 := (hc.slot _ (by rw [hs]; exact nofun)).1
  refine h.preempt ht (hc.fresh_idle (Tcb.home_idle ?_ ?_))
  · rw [hs]
    exact nofun
  · rw [hs]
    exact nofun

theorem Rep.portSelectThread (h : Rep s a) (hc : Core X a) (hX : a.currentThread ∉ X)
    (yield : Bool) : ∃ v, Gives Rep (portSelectThread yield s) v (a.selectThread yield) := by
  unfold OSThread.portSelectThread Sched.selectThread
  obtain ⟨s₁, he₁, h₁⟩ := h.getReschedule
  rw [run_bind_ok he₁]
  by_cases hr : 0 < a.reschedule
  · simp only [hr, if_true]
    exact ⟨0, gives_pure _ h₁⟩
  · simp only [hr, if_false]
    obtain ⟨s₂, he₂, h₂⟩ := h₁.getCurrent
    rw [run_bind_ok he₂]
    by_cases hz : a.currentThread = 0
    · simp only [hz, if_true]
      exact h₂.selectNext hc
    · simp only [hz, if_false]
      obtain ⟨s₃, he₃, h₃⟩ := h₂.tcbGet hz (·.state)
      rw [run_bind_ok he₃]
      by_cases hs : (a.tcb a.currentThread).state = .running
      · have hpre := (hc.preempt (q := .null) hX hs).1
        simp only [hs, if_true]
        cases yield with
        | true =>
          simp only [if_true]
          obtain ⟨s₄, he₄, h₄⟩ := h₃.preempt_running hc hs
          rw [run_bind_ok he₄]
          exact h₄.selectNext hpre
        | false =>
          obtain ⟨s₄, he₄, h₄⟩ := h₃.getBits
          obtain ⟨s₅, he₅, h₅⟩ := h₄.tcbGet hz (·.priority)
          simp only [Bool.false_eq_true, if_false]
          rw [run_bind_ok he₄, run_bind_ok he₅]
          by_cases hle : (a.tcb a.currentThread).priority ≤ portCntlzw a.runQueueBits
          · simp only [Sched.prio, hle, if_true]
            exact ⟨0, gives_pure _ h₅⟩
          · simp only [Sched.prio, hle, if_false]
            obtain ⟨s₆, he₆, h₆⟩ := h₅.preempt_running hc hs
            rw [run_bind_ok he₆]
            exact h₆.selectNext hpre
      · simp only [hs, if_false]
        exact h₃.selectNext hc

theorem Rep.portOSReschedule (h : Rep s a) (hc : Core X a) (hX : a.currentThread ∉ X) :
    Gives Rep (portOSReschedule s) () a.osReschedule := by
  unfold OSThread.portOSReschedule Sched.osReschedule
  refine gives_bind h.getHint fun s₁ h₁ => ?_
  cases hh : a.runQueueHint with
  | true =>
    simp only [if_true]
    obtain ⟨v, hv⟩ := h₁.portSelectThread hc hX false
    exact gives_bind hv fun s₂ h₂ => gives_pure _ h₂
  | false =>
    simp only [Bool.false_eq_true, if_false]
    exact gives_pure _ h₁

/-- One turn of the waking loop. -/
theorem Rep.wakeupLoop (h : Rep s a) (hc : Core X a) (hq : q.isWait) (n : Nat) {l : List Addr}
    (hl : a.queue q = l) (hn : l.length < n) :
    Gives Rep (wakeupLoop q n s) () (Sched.wakeAll q a l) := by
  induction n generalizing s a l with
  | zero => omega
  | succ n ih =>
    unfold OSThread.wakeupLoop
    refine gives_bind (h.qHead hq.ne_null) fun s₁ h₁ => ?_
    cases l with
    | nil =>
      rw [hl]
      exact gives_pure _ h₁
    | cons t l =>
      have hm : t ∈ a.queue q := by simp [hl]
      have ht : t ≠ 0 := (hc.mem_slot hm).1
      have hst : t ∉ X ∧ (a.tcb t).state = .waiting ∧ (a.tcb t).queue = q :=
        (hc.mem_wait hq).mp hm
      have hout := hst.2.2 ▸ hc.takeWait hst.1 hst.2.1
      have hrem := h₁.portRemoveHead hq.ne_null hl
      rw [hq.field] at hrem
      have hwake := (hc.wakeOne hq hm).1
      have hrest := Sched.wakeOne_queue hq hl
      rw [hl, Linked.firstOf_cons, if_neg ht]
      refine gives_bind hrem fun s₂ h₂ => ?_
      refine gives_bind (h₂.tcbSet ht _) fun s₃ h₃ => ?_
      refine gives_bind (h₃.tcbGet ht _) fun s₄ h₄ => ?_
      have hsus : (((a.removeItem q t).modT t ({ · with state := .ready })).tcb t).suspend =
          (a.tcb t).suspend := by simp
      have hlen : l.length < n := by simpa using hn
      by_cases h0 : a.suspended t
      · have he : a.wakeOne q t = (a.removeItem q t).modT t ({ · with state := .ready }) := by
          simp [Sched.wakeOne, h0]
        simp only [hsus, show 0 < (a.tcb t).suspend from h0, not_true, if_false]
        rw [← he] at h₄
        exact ih h₄ hwake hrest hlen
      · have he : a.wakeOne q t =
            ((a.removeItem q t).modT t ({ · with state := .ready })).setRun t := by
          simp [Sched.wakeOne, h0]
        simp only [hsus, show ¬ 0 < (a.tcb t).suspend from h0, not_false_eq_true, if_true]
        refine gives_bind (h₄.portSetRun ht ?_) fun s₅ h₅ => ?_
        · exact fun r => hout.fresh (by simp) r
        · rw [← he] at h₅
          exact ih h₅ hwake hrest hlen

theorem Rep.portOSWakeupThread (h : Rep s a) (hc : Core X a) (hX : a.currentThread ∉ X)
    (hq : q.isWait) : Gives Rep (portOSWakeupThread q s) () (a.wakeupThread q) := by
  have hlen : (a.queue q).length < threadFuel := Nat.lt_succ_of_le (hc.length_le q)
  obtain ⟨hw, _, hk, _⟩ := hc.wakeAll hq rfl
  unfold OSThread.portOSWakeupThread Sched.wakeupThread
  refine gives_bind (h.wakeupLoop hc hq _ rfl hlen) fun s₁ h₁ => ?_
  exact h₁.portOSReschedule hw (by rwa [hk.current])

/-- The join queue of a thread is always empty, so waking it only reschedules. -/
theorem Rep.portOSWakeupThread_join (h : Rep s a) (hc : Core X a) (hX : a.currentThread ∉ X) :
    Gives Rep (OSThread.portOSWakeupThread (.join t) s) () (a.wakeupThread (.join t)) := by
  rw [hc.wakeupThread_join]
  unfold OSThread.portOSWakeupThread
  have hloop : Gives Rep (OSThread.wakeupLoop (.join t) threadFuel s) () a := by
    unfold threadFuel OSThread.wakeupLoop
    refine gives_bind (h.qHead (by simp)) fun s₁ h₁ => ?_
    rw [hc.queue_join]
    exact gives_pure _ h₁
  exact gives_bind hloop fun s₁ h₁ => h₁.portOSReschedule hc hX

theorem Rep.unlockAllLoop (h : Rep s a) (hs : Shape ∅ D ∅ a) (ht : t ≠ 0) (n : Nat)
    {l : List Addr} (hl : a.owned t = l) (hn : l.length < n) :
    Gives Rep (unlockAllLoop t n s) () (l.foldl (Sched.unlockHead t) a) := by
  induction n generalizing s a l with
  | zero => omega
  | succ n ih =>
    unfold OSThread.unlockAllLoop
    have hhead : Gives Rep (thrGet t (·.mutexHead) s) (firstOf 0 (a.owned t)) a :=
      ⟨s, by rw [thrGet_ok ht, h.mutexHead], h⟩
    refine gives_bind hhead fun s₁ h₁ => ?_
    cases l with
    | nil =>
      rw [hl]
      exact gives_pure _ h₁
    | cons m l =>
      have hm : m ∈ a.owned t := by simp [hl]
      have hm0 : m ≠ 0 := h₁.owned.ne_nil hm
      have hX : a.currentThread ∉ (∅ : Set Addr) := Set.notMem_empty _
      have hdis := hs.disown hm
      rw [hl, Linked.firstOf_cons, if_neg hm0]
      refine gives_bind (h₁.portMutexPopHead ht hl) fun s₂ h₂ => ?_
      refine gives_bind (h₂.coreSet hm0 _) fun s₃ h₃ => ?_
      refine gives_bind (h₃.coreSet hm0 _) fun s₄ h₄ => ?_
      have he : ((a.setOwned t ((a.owned t).erase m)).modM m ({ · with count := 0 })).modM m
          ({ · with thread := 0 }) = a.disown t m := by
        simp [Sched.disown, Sched.modM]
      rw [he] at h₄
      refine gives_bind (h₄.portOSWakeupThread hdis.core hX (QueueAddr.mutex_isWait m)) ?_
      intro s₅ h₅
      refine ih h₅ (hs.unlockHead hX hm) ?_ (by simpa using hn)
      have hmv := (hdis.core.wakeupThread hX (QueueAddr.mutex_isWait m)).2.1
      change ((a.disown t m).wakeupThread (.mutex m)).owned t = l
      rw [hmv.owned]
      simp [Sched.disown, hl]

theorem Rep.portOSUnlockAllMutex (h : Rep s a) (hs : Shape ∅ D ∅ a) (ht : t ≠ 0) :
    Gives Rep (portOSUnlockAllMutex t s) () (a.unlockAllMutex t) :=
  h.unlockAllLoop hs ht _ rfl (Nat.lt_succ_of_le (hs.length_owned t))

end SdkPort.OSThread
