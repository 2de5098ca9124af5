import SdkPort.OS.RepSync

/-!
# Runs of the interface

A run starts with `portOSThreadInit` and goes on with calls of the interface, each
followed by `portProcessPendingLocks`. Callers observe the rules of the interface:
threads are created in free slots, what belongs to the current thread is called
while a running thread is current, and objects in use are not initialised again.
-/
namespace SdkPort.OSThread

open Runs (Gives Lockstep gives_bind gives_pure lockstep_of_gives lockstep_bind run_bind_ok)
open Sched (Core Shape Sound Fit Fine)

inductive Op where
  | create (slot : Nat) (priority : Int) (attr : Nat)
  | resume (t : Addr)
  | suspend (t : Addr)
  | cancel (t : Addr)
  | join (t : Addr)
  | yield
  | exit (val : Nat)
  | sleep (i : Nat)
  | wakeup (i : Nat)
  | disable
  | enable
  | initMutex (m : Addr)
  | lock (m : Addr)
  | unlock (m : Addr)
  | tryLock (m : Addr)
  | initCond (c : Nat)
  | waitCond (c : Nat) (m : Addr)
  | signalCond (c : Nat)
  | initMessageQueue (k msgCount : Nat)
  | send (k msg flags : Nat)
  | receive (k flags : Nat)
  | jam (k msg flags : Nat)
  deriving DecidableEq, Repr

/-- The call of the interface, with fuel for chains of owners. -/
def Op.exec (n : Nat) : Op → M Unit
  | .create slot p attr => do let _ ← portOSCreateThread slot p attr
  | .resume t => do let _ ← portOSResumeThread n t
  | .suspend t => do let _ ← portOSSuspendThread n t
  | .cancel t => portOSCancelThread n t
  | .join t => do let _ ← portOSJoinThread t
  | .yield => portOSYieldThread
  | .exit val => portOSExitThread val
  | .sleep i => portOSSleepThread (.waitQueue i)
  | .wakeup i => portOSWakeupThread (.waitQueue i)
  | .disable => do let _ ← portOSDisableScheduler
  | .enable => do let _ ← portOSEnableScheduler
  | .initMutex m => portOSInitMutex m
  | .lock m => portOSLockMutex n m
  | .unlock m => portOSUnlockMutex m
  | .tryLock m => do let _ ← portOSTryLockMutex m
  | .initCond c => portOSInitCond c
  | .waitCond c m => portOSWaitCond c m
  | .signalCond c => portOSSignalCond c
  | .initMessageQueue k c => portOSInitMessageQueue k c
  | .send k msg flags => do let _ ← portOSSendMessage k msg flags
  | .receive k flags => do let _ ← portOSReceiveMessage k flags
  | .jam k msg flags => do let _ ← portOSJamMessage k msg flags

/-- A running thread is current. -/
def St.Running (s : St) : Prop := s.currentThread ≠ 0 ∧ (s.thr s.currentThread).state = .running

def St.empty (s : St) (q : QueueAddr) : Prop := (s.queue q).head = 0

instance (t : Addr) : Decidable (Slot t) := inferInstanceAs (Decidable (_ ∧ _))
instance (m : Addr) : Decidable (MutexAddr m) := inferInstanceAs (Decidable (_ ∧ _))
instance (s : St) : Decidable s.Running := inferInstanceAs (Decidable (_ ∧ _))
instance (s : St) (q : QueueAddr) : Decidable (s.empty q) := inferInstanceAs (Decidable (_ = _))

/-- The rules for callers. -/
def Op.Guarded (s : St) : Op → Prop
  | .create slot _ _ => slot < PORT_MAX_THREADS ∧ (s.thr (PORT_THREAD_ADDR slot)).state = .unused
  | .resume t | .suspend t | .cancel t | .join t => Slot t
  | .yield | .exit _ | .sleep _ => s.Running
  | .lock m | .unlock m | .tryLock m | .waitCond _ m => s.Running ∧ MutexAddr m
  | .initMutex m => MutexAddr m ∧ (s.mtx m).thread = 0 ∧ s.empty (.mutex m)
  | .initCond c => s.empty (.cond c)
  | .initMessageQueue k c =>
    s.empty (.msgSend k) ∧ s.empty (.msgRecv k) ∧ 1 ≤ c ∧ c ≤ PORT_MAX_MSGS_PER_Q
  | .send _ _ flags | .receive _ flags | .jam _ _ flags => blocks flags → s.Running
  | .wakeup _ | .signalCond _ | .disable | .enable => True

instance (s : St) : (o : Op) → Decidable (o.Guarded s)
  | .create .. | .initMutex _ | .initMessageQueue .. => inferInstanceAs (Decidable (_ ∧ _))
  | .resume t | .suspend t | .cancel t | .join t => inferInstanceAs (Decidable (Slot t))
  | .yield | .exit _ | .sleep _ => inferInstanceAs (Decidable s.Running)
  | .lock m | .unlock m | .tryLock m | .waitCond _ m =>
    inferInstanceAs (Decidable (s.Running ∧ MutexAddr m))
  | .initCond c => inferInstanceAs (Decidable (s.empty (.cond c)))
  | .send _ _ flags | .receive _ flags | .jam _ _ flags =>
    inferInstanceAs (Decidable (blocks flags → s.Running))
  | .wakeup _ | .signalCond _ | .disable | .enable => .isTrue trivial

/-- A condition wait by the owner of the mutex: the only call that parks a thread
while it names a mutex it is not queued on. -/
def Op.Parks (s : St) : Op → Prop
  | .waitCond _ m => (s.mtx m).thread = s.currentThread
  | _ => False

/-- Whether a call may be made next or pending locks are to be processed first. -/
inductive Phase where
  | idle | pending
  deriving DecidableEq, Repr

/-- The states of a run all of whose calls satisfy `P`. -/
inductive Reached (P : St → Op → Prop) : Phase → St → Prop
  | init {s s' : St} : portOSThreadInit s = .ok ((), s') → Reached P .idle s'
  | call {s s' : St} {o : Op} {n : Nat} : Reached P .idle s → o.Guarded s → P s o →
      o.exec n s = .ok ((), s') → Reached P .pending s'
  | locks {s s' : St} {n k : Nat} : Reached P .pending s →
      portProcessPendingLocks n k s = .ok ((), s') → Reached P .idle s'

/-- No restriction on the calls of a run. -/
def AnyCall : St → Op → Prop := fun _ _ => True

/-- No thread waits on a condition. -/
def NoCondWait : St → Op → Prop := fun s o => ¬ o.Parks s

namespace Sched

/-- The call over lists. -/
def apply (n : Nat) (a : Sched) : Op → Except Fault Sched
  | .create slot p attr => .ok (a.createThread slot p attr)
  | .resume t => a.resumeThread n t
  | .suspend t => a.suspendThread n t
  | .cancel t => a.cancelThread n t
  | .join t => .ok (a.joinThread t)
  | .yield => .ok a.yieldThread
  | .exit val => .ok (a.exitThread val)
  | .sleep i => .ok (a.sleepThread (.waitQueue i))
  | .wakeup i => .ok (a.wakeupThread (.waitQueue i))
  | .disable => a.changeScheduler 1
  | .enable => a.changeScheduler (-1)
  | .initMutex m => .ok (a.initMutex m)
  | .lock m => a.lockMutex n m
  | .unlock m => a.unlockMutex m
  | .tryLock m => a.tryLockMutex m
  | .initCond _ => .ok a
  | .waitCond c m => a.waitCond c m
  | .signalCond c => .ok (a.wakeupThread (.cond c))
  | .initMessageQueue k c => .ok (a.initMessageQueue k c)
  | .send k msg flags => .ok (a.sendMessage k msg flags)
  | .receive k flags => .ok (a.receiveMessage k flags)
  | .jam k msg flags => .ok (a.jamMessage k msg flags)

end Sched

variable {W : Prop} {s s' : St} {a b : Sched} {t m : Addr} {q : QueueAddr} {n : Nat} {o : Op}
  {P : St → Op → Prop} {ph : Phase}

theorem Rep.running (h : Rep s a) : s.Running ↔ a.CurrentRuns := by
  simp only [St.Running, Sched.CurrentRuns, h.current, ← h.tcb]

theorem Rep.empty (h : Rep s a) (q : QueueAddr) : s.empty q ↔ a.queue q = [] := h.head_eq_zero q

/-- Dropping the result of a call. -/
theorem gives_drop {k : M α} {v : α} (h : Gives Rep (k s) v b) :
    Gives Rep ((do let _ ← k) s) () b := gives_bind h fun _ hs => gives_pure _ hs

theorem computes_drop {k : M α} {y : Except Fault Sched} (h : Computes (k s) y) :
    Computes ((do let _ ← k) s) y := by
  rw [← Runs.bind_ok_self y]
  exact lockstep_bind h fun _ _ _ _ hs => hs

/-- Every call computes its counterpart over lists. -/
theorem Rep.exec (h : Rep s a) (hs : Sound a) (hg : o.Guarded s) (n : Nat) :
    Computes (o.exec n s) (a.apply n o) := by
  have hX : a.currentThread ∉ (∅ : Set Addr) := Set.notMem_empty _
  cases o with
  | create slot p attr =>
    have hu : (a.tcb (PORT_THREAD_ADDR slot)).state = .unused := by
      rw [← h.tcb]
      exact hg.2
    obtain ⟨v, hv⟩ := h.portOSCreateThread hs hu p attr
    exact computes_of_gives (gives_drop hv)
  | resume t => exact computes_drop (h.portOSResumeThread hs hg.1 n)
  | suspend t => exact computes_drop (h.portOSSuspendThread hs hg.1 n)
  | cancel t => exact h.portOSCancelThread hs hg.1 n
  | join t =>
    obtain ⟨v, hv⟩ := h.portOSJoinThread hs hg.1
    exact computes_of_gives (gives_drop hv)
  | yield => exact computes_of_gives (h.portOSYieldThread hs)
  | exit v => exact computes_of_gives (h.portOSExitThread hs (h.running.mp hg) v)
  | sleep i => exact computes_of_gives (h.portOSSleepThread hs hX (h.running.mp hg) trivial)
  | wakeup i => exact computes_of_gives (h.portOSWakeupThread hs.core hX trivial)
  | disable => exact computes_drop h.portOSDisableScheduler
  | enable => exact computes_drop h.portOSEnableScheduler
  | initMutex m => exact computes_of_gives (h.portOSInitMutex hg.1.1 ((h.empty _).mp hg.2.2))
  | lock m => exact h.portOSLockMutex hs (h.running.mp hg.1) hg.2 n
  | unlock m => exact h.portOSUnlockMutex hs (h.running.mp hg.1) hg.2.1
  | tryLock m => exact computes_drop (h.portOSTryLockMutex hs (h.running.mp hg.1) hg.2)
  | initCond c => exact computes_of_gives (h.qInit (by simp) ((h.empty _).mp hg))
  | waitCond c m => exact h.portOSWaitCond hs (h.running.mp hg.1) hg.2.1 c
  | signalCond c => exact computes_of_gives (h.portOSWakeupThread hs.core hX trivial)
  | initMessageQueue k c =>
    exact computes_of_gives (h.portOSInitMessageQueue ((h.empty _).mp hg.1) ((h.empty _).mp hg.2.1) c)
  | send k msg flags =>
    obtain ⟨v, hv⟩ := h.portOSSendMessage hs (fun hb => h.running.mp (hg hb)) k msg
    exact computes_of_gives (gives_drop hv)
  | receive k flags =>
    obtain ⟨v, hv⟩ := h.portOSReceiveMessage hs (fun hb => h.running.mp (hg hb)) k
    exact computes_of_gives (gives_drop hv)
  | jam k msg flags =>
    obtain ⟨v, hv⟩ := h.portOSJamMessage hs (fun hb => h.running.mp (hg hb)) k msg
    exact computes_of_gives (gives_drop hv)

/-- A running thread without pending lock names no mutex. -/
theorem Sched.mutex_of_pendingLock (hp : a.pendingLock = none) (hr : a.CurrentRuns) :
    (a.tcb a.currentThread).mutex = 0 := by
  simp only [Sched.pendingLock] at hp
  by_contra h0
  simp [hr.1, hr.2, h0] at hp

/-- Every call keeps the invariant. -/
theorem Rep.fine_apply (h : Rep s a) (hf : Fine W a) (hp : W → a.pendingLock = none) (hg : o.Guarded s)
    (hW : W → ¬ o.Parks s) (hb : a.apply n o = .ok b) : Fine W b := by
  have hX : a.currentThread ∉ (∅ : Set Addr) := Set.notMem_empty _
  have h0 : W → a.CurrentRuns → (a.tcb a.currentThread).mutex = 0 :=
    fun hw => Sched.mutex_of_pendingLock (hp hw)
  cases o with
  | create slot p attr =>
    cases hb
    have hu : (a.tcb (PORT_THREAD_ADDR slot)).state = .unused := by
      rw [← h.tcb]
      exact hg.2
    exact hf.createThread hg.1 hu p attr
  | resume t => exact hf.resumeThread hb
  | suspend t => exact hf.suspendThread hb
  | cancel t => exact hf.cancelThread hb
  | join t =>
    cases hb
    exact hf.joinThread t
  | yield =>
    cases hb
    exact hf.selectThread hX (.inr ⟨rfl, h.running.mp hg⟩)
  | exit v =>
    cases hb
    exact hf.exitThread (h.running.mp hg) v
  | sleep i =>
    cases hb
    have hr := h.running.mp hg
    exact hf.sleepThread hX hr trivial (by simp) fun hw => h0 hw hr
  | wakeup i =>
    cases hb
    exact hf.wakeup trivial (by simp)
  | disable => exact hf.changeScheduler hb
  | enable => exact hf.changeScheduler hb
  | initMutex m =>
    cases hb
    apply hf.initMutex
    rw [← h.mtx]
    exact hg.2.1
  | lock m => exact hf.lockMutex (h.running.mp hg.1) hg.2 hb
  | unlock m => exact hf.unlockMutex (h.running.mp hg.1) hb
  | tryLock m => exact hf.tryLockMutex (h.running.mp hg.1) hg.2 hb
  | initCond c =>
    cases hb
    exact hf
  | waitCond c m =>
    refine hf.waitCond (h.running.mp hg.1) hg.2 (fun hw => ?_) hb
    rw [← h.mtx, ← h.current]
    exact hW hw
  | signalCond c =>
    cases hb
    exact hf.wakeup trivial (by simp)
  | initMessageQueue k c =>
    cases hb
    exact hf.initMessageQueue ((h.empty _).mp hg.1) ((h.empty _).mp hg.2.1) c
  | send k msg flags =>
    cases hb
    exact hf.sendMessage (fun hb => h.running.mp (hg hb)) h0 k msg
  | receive k flags =>
    cases hb
    exact hf.receiveMessage (fun hb => h.running.mp (hg hb)) h0 k
  | jam k msg flags =>
    cases hb
    exact hf.jamMessage (fun hb => h.running.mp (hg hb)) h0 k msg

end SdkPort.OSThread
