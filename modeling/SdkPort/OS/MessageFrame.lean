import SdkPort.OS.Calls

/-!
# Calls that leave the messages alone

Only the calls for a message queue touch what it stores. Every other operation of
the scheduler keeps the contents of all message queues.
-/
namespace SdkPort.OSThread

namespace Sched

open Runs (bind_eq_ok)

variable {a b : Sched} {t m : Addr} {q : QueueAddr} {n : Nat}

@[simp] theorem selectNext_msgq (a : Sched) : a.selectNext.msgq = a.msgq := by
  unfold selectNext
  split
  · rfl
  · split <;> rfl

@[simp] theorem preempt_msgq (a : Sched) (t : Addr) : (a.preempt t).msgq = a.msgq := rfl

/-- Choosing a thread moves threads between queues, nothing else. -/
@[simp] theorem selectThread_msgq (a : Sched) (yield : Bool) : (a.selectThread yield).msgq = a.msgq := by
  unfold selectThread
  split_ifs <;> simp

@[simp] theorem osReschedule_msgq (a : Sched) : a.osReschedule.msgq = a.msgq := by
  unfold osReschedule
  split <;> simp

@[simp] theorem wakeOne_msgq (a : Sched) (q : QueueAddr) (t : Addr) :
    (a.wakeOne q t).msgq = a.msgq := by
  unfold wakeOne
  split <;> simp

/-- Threads are woken one by one. -/
@[simp] theorem wakeAll_msgq (q : QueueAddr) (a : Sched) (l : List Addr) :
    (wakeAll q a l).msgq = a.msgq := by
  induction l generalizing a with
  | nil => rfl
  | cons t l ih => exact (ih (a.wakeOne q t)).trans (wakeOne_msgq a q t)

@[simp] theorem wakeupThread_msgq (a : Sched) (q : QueueAddr) : (a.wakeupThread q).msgq = a.msgq := by
  simp [wakeupThread]

/-- By induction on the mutexes that are left. -/
@[simp] theorem unlockAllMutex_msgq (a : Sched) (t : Addr) : (a.unlockAllMutex t).msgq = a.msgq := by
  unfold unlockAllMutex
  generalize a.owned t = l
  induction l generalizing a with
  | nil => rfl
  | cons m l ih =>
    rw [List.foldl_cons, ih]
    simp [unlockHead]

@[simp] theorem createThread_msgq (a : Sched) (slot : Nat) (priority : Int) (attr : Nat) :
    (a.createThread slot priority attr).msgq = a.msgq := by
  unfold createThread
  split <;> rfl

@[simp] theorem sleepThread_msgq (a : Sched) (q : QueueAddr) : (a.sleepThread q).msgq = a.msgq := by
  simp [sleepThread, enqueueCurrent]

@[simp] theorem blockIf_msgq (a : Sched) (flags : Nat) (q : QueueAddr) :
    (a.blockIf flags q).msgq = a.msgq := by
  unfold blockIf
  split <;> simp

@[simp] theorem retire_msgq (a : Sched) (t : Addr) (val : Option Nat) :
    (a.retire t val).msgq = a.msgq := by
  unfold retire
  split <;> rfl

@[simp] theorem bury_msgq (a : Sched) (t : Addr) (val : Option Nat) : (a.bury t val).msgq = a.msgq := by
  simp [bury]

@[simp] theorem joinThread_msgq (a : Sched) (t : Addr) : (a.joinThread t).msgq = a.msgq := by
  unfold joinThread
  split <;> rfl

@[simp] theorem release_msgq (a : Sched) (t m : Addr) : (a.release t m).msgq = a.msgq := by
  unfold release dropBoost
  split <;> rfl

/-- A thread that is in a queue finds its new place there. -/
theorem setEffectivePriority_msgq {p : Nat} {r : Addr × Sched}
    (h : a.setEffectivePriority t p = .ok r) : r.2.msgq = a.msgq := by
  unfold setEffectivePriority at h
  split at h
  · cases h
    rfl
  · split at h
    · cases h
    · cases h
      rfl
  · cases h
    rfl
  · cases h
    rfl

/-- The walk up the chain of owners, by induction on its length. -/
theorem updatePriority_msgq (h : updatePriority n a t = .ok b) : b.msgq = a.msgq := by
  induction n generalizing a t with
  | zero => cases h
  | succ n ih =>
    rw [updatePriority] at h
    split_ifs at h
    · cases h
      rfl
    · cases h
      rfl
    · obtain ⟨r, hr, h⟩ := bind_eq_ok.mp h
      have hm := setEffectivePriority_msgq hr
      split at h
      · cases h
        exact hm
      · exact (ih h).trans hm

theorem promoteThread_msgq {p : Nat} (h : promoteThread p n a t = .ok b) : b.msgq = a.msgq := by
  induction n generalizing a t with
  | zero => cases h
  | succ n ih =>
    rw [promoteThread] at h
    split_ifs at h
    · cases h
      rfl
    · cases h
      rfl
    · obtain ⟨r, hr, h⟩ := bind_eq_ok.mp h
      have hm := setEffectivePriority_msgq hr
      split at h
      · cases h
        exact hm
      · exact (ih h).trans hm

theorem updateOwner_msgq (h : a.updateOwner n t = .ok b) : b.msgq = a.msgq := by
  unfold updateOwner at h
  split at h
  · cases h
    rfl
  · exact updatePriority_msgq h

/-- The priorities of owners may change, and a thread may be chosen. -/
theorem resumeThread_msgq (h : a.resumeThread n t = .ok b) : b.msgq = a.msgq := by
  obtain ⟨d, _, h⟩ := bind_eq_ok.mp h
  split_ifs at h
  · cases h
    rfl
  · obtain ⟨c, hc, h⟩ := bind_eq_ok.mp h
    cases h
    rw [osReschedule_msgq]
    unfold resumeRequeue at hc
    split at hc
    · cases hc
      rfl
    · exact (updateOwner_msgq hc).trans rfl
    · cases hc
      rfl
  · cases h
    rfl

theorem suspendThread_msgq (h : a.suspendThread n t = .ok b) : b.msgq = a.msgq := by
  obtain ⟨d, _, h⟩ := bind_eq_ok.mp h
  split_ifs at h
  · obtain ⟨c, hc, h⟩ := bind_eq_ok.mp h
    cases h
    rw [osReschedule_msgq]
    unfold suspendRequeue at hc
    split at hc
    · cases hc
      rfl
    · cases hc
      rfl
    · exact (updateOwner_msgq hc).trans rfl
    · cases hc
      rfl
  · cases h
    rfl

/-- A canceled thread leaves its queue, and the owner it waited for may fall back. -/
theorem cancelUnlink_msgq {r : Bool × Sched} (h : a.cancelUnlink n t = .ok r) :
    r.2.msgq = a.msgq := by
  unfold cancelUnlink at h
  split at h
  · cases h
    split <;> rfl
  · cases h
    rfl
  · split at h
    · cases h
      rfl
    · obtain ⟨c, hc, h⟩ := bind_eq_ok.mp h
      cases h
      exact (updateOwner_msgq hc).trans rfl
  · cases h
    rfl

theorem cancelThread_msgq (h : a.cancelThread n t = .ok b) : b.msgq = a.msgq := by
  obtain ⟨r, hr, h⟩ := bind_eq_ok.mp h
  have hm := cancelUnlink_msgq hr
  split at h <;> cases h
  · simpa using hm
  · exact hm

theorem changeScheduler_msgq {d : Int} (h : a.changeScheduler d = .ok b) : b.msgq = a.msgq := by
  obtain ⟨c, _, h⟩ := bind_eq_ok.mp h
  cases h
  rfl

theorem acquire_msgq (h : a.acquire t m = .ok b) : b.msgq = a.msgq := by
  obtain ⟨c, _, h⟩ := bind_eq_ok.mp h
  cases h
  rfl

theorem relock_msgq (h : a.relock m = .ok b) : b.msgq = a.msgq := by
  obtain ⟨c, _, h⟩ := bind_eq_ok.mp h
  cases h
  rfl

theorem lockMutex_msgq (h : a.lockMutex n m = .ok b) : b.msgq = a.msgq := by
  unfold lockMutex at h
  split_ifs at h
  · exact acquire_msgq h
  · exact relock_msgq h
  · obtain ⟨c, hc, h⟩ := bind_eq_ok.mp h
    cases h
    rw [sleepThread_msgq]
    exact (promoteThread_msgq hc).trans rfl

theorem unlockMutex_msgq (h : a.unlockMutex m = .ok b) : b.msgq = a.msgq := by
  unfold unlockMutex at h
  split at h
  · obtain ⟨c, _, h⟩ := bind_eq_ok.mp h
    split at h <;> cases h <;> simp
  · cases h
    rfl

theorem tryLockMutex_msgq (h : a.tryLockMutex m = .ok b) : b.msgq = a.msgq := by
  unfold tryLockMutex at h
  split_ifs at h
  · exact acquire_msgq h
  · exact relock_msgq h
  · cases h
    rfl

/-- Unlocking, sleeping and the count that is kept for later touch no messages. -/
theorem waitCond_msgq {k : Nat} (h : a.waitCond k m = .ok b) : b.msgq = a.msgq := by
  unfold waitCond at h
  split at h
  · cases h
    rfl
  · obtain ⟨c, hc, h⟩ := bind_eq_ok.mp h
    obtain ⟨d, hd, h⟩ := bind_eq_ok.mp h
    cases h
    have h₁ := changeScheduler_msgq hc
    have h₂ := changeScheduler_msgq hd
    simp_all

theorem retryLock_msgq (h : a.retryLock n t m = .ok b) : b.msgq = a.msgq := by
  obtain ⟨c, hc, h⟩ := bind_eq_ok.mp h
  cases h
  have hm := lockMutex_msgq hc
  unfold restoreCount
  split <;> exact hm

/-- By induction on the locks that are retried. -/
theorem processPendingLocks_msgq {k : Nat} (h : processPendingLocks n k a = .ok b) :
    b.msgq = a.msgq := by
  induction k generalizing a with
  | zero => cases h
  | succ k ih =>
    rw [processPendingLocks] at h
    split at h
    · cases h
      rfl
    · obtain ⟨c, hc, h⟩ := bind_eq_ok.mp h
      exact (ih h).trans (retryLock_msgq hc)

/-- A message for another queue, with the threads it wakes. -/
theorem message_msgq_ne {i j : Nat} (h : i ≠ j) (g : MsgQueue → MsgQueue) (q : QueueAddr) :
    ((a.modQ i g).wakeupThread q).msgq j = a.msgq j := by
  rw [wakeupThread_msgq, modQ_msgq, Function.update_of_ne (Ne.symm h)]

end Sched

/-- The call is one on the messages of queue `k`. -/
def Op.Uses (k : Nat) : Op → Prop
  | .initMessageQueue j _ | .send j _ _ | .receive j _ | .jam j _ _ => j = k
  | _ => False

instance (k : Nat) : (o : Op) → Decidable (o.Uses k)
  | .initMessageQueue j _ | .send j _ _ | .receive j _ | .jam j _ _ =>
    inferInstanceAs (Decidable (j = k))
  | .create .. | .resume _ | .suspend _ | .cancel _ | .join _ | .yield | .exit _ | .sleep _
  | .wakeup _ | .disable | .enable | .initMutex _ | .lock _ | .unlock _ | .tryLock _ | .initCond _
  | .waitCond .. | .signalCond _ => .isFalse id

namespace Sched

variable {a b : Sched} {n : Nat}

/-- Only calls on a queue change what it stores. -/
theorem apply_msgq {k : Nat} {o : Op} (hu : ¬ o.Uses k) (hb : a.apply n o = .ok b) :
    b.msgq k = a.msgq k := by
  cases o with
  | create slot p attr =>
    cases hb
    simp
  | resume t => rw [resumeThread_msgq hb]
  | suspend t => rw [suspendThread_msgq hb]
  | cancel t => rw [cancelThread_msgq hb]
  | join t =>
    cases hb
    simp
  | yield =>
    cases hb
    simp [yieldThread]
  | exit v =>
    cases hb
    simp [exitThread]
  | sleep i =>
    cases hb
    simp
  | wakeup i =>
    cases hb
    simp
  | disable => rw [changeScheduler_msgq hb]
  | enable => rw [changeScheduler_msgq hb]
  | initMutex m =>
    cases hb
    rfl
  | lock m => rw [lockMutex_msgq hb]
  | unlock m => rw [unlockMutex_msgq hb]
  | tryLock m => rw [tryLockMutex_msgq hb]
  | initCond i =>
    cases hb
    rfl
  | waitCond i m => rw [waitCond_msgq hb]
  | signalCond i =>
    cases hb
    simp
  | initMessageQueue j c =>
    cases hb
    have hne : k ≠ j := fun he => hu he.symm
    simp [initMessageQueue, hne]
  | send j msg flags =>
    cases hb
    unfold sendMessage
    simp only
    split
    · rw [blockIf_msgq]
    · exact message_msgq_ne hu _ _
  | receive j flags =>
    cases hb
    unfold receiveMessage
    simp only
    split
    · rw [blockIf_msgq]
    · exact message_msgq_ne hu _ _
  | jam j msg flags =>
    cases hb
    unfold jamMessage
    simp only
    split
    · rw [blockIf_msgq]
    · exact message_msgq_ne hu _ _

end Sched

end SdkPort.OSThread
