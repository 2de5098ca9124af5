import SdkPort.OS.Thread
import SdkPort.Lib.PrioList
import SdkPort.Lib.Runs
import Mathlib.Tactic.Simps.Basic

/-!
# The scheduler over lists

Every queue is the list of its members and every thread has the list of mutexes
it owns; the link words are gone. The operations follow `osthread.c`, so that
each function of the source has its counterpart here; a walk over a list is a
fold, and only the loops along a chain of owners can fail.
-/
namespace SdkPort.OSThread

open PrioList (insertPrio)

structure Sched where
  tcb : Addr → Tcb
  queue : QueueAddr → List Addr
  owned : Addr → List Addr
  mtx : Addr → MutexCore
  msgq : Nat → MsgQueue
  currentThread : Addr
  runQueueBits : BitVec 32
  runQueueHint : Bool
  reschedule : Int

namespace Sched

@[simps -fullyApplied] def modT (a : Sched) (t : Addr) (g : Tcb → Tcb) : Sched :=
  { a with tcb := Function.update a.tcb t (g (a.tcb t)) }

theorem modT_modT (a : Sched) (t : Addr) (g g' : Tcb → Tcb) :
    (a.modT t g).modT t g' = a.modT t fun th => g' (g th) := by
  simp [modT]

@[simps -fullyApplied] def setQueue (a : Sched) (q : QueueAddr) (l : List Addr) : Sched :=
  { a with queue := Function.update a.queue q l }

@[simps -fullyApplied] def setOwned (a : Sched) (t : Addr) (l : List Addr) : Sched :=
  { a with owned := Function.update a.owned t l }

@[simps -fullyApplied] def modM (a : Sched) (m : Addr) (g : MutexCore → MutexCore) : Sched :=
  { a with mtx := Function.update a.mtx m (g (a.mtx m)) }

@[simps -fullyApplied] def modQ (a : Sched) (q : Nat) (g : MsgQueue → MsgQueue) : Sched :=
  { a with msgq := Function.update a.msgq q (g (a.msgq q)) }

theorem modQ_modQ (a : Sched) (q : Nat) (g g' : MsgQueue → MsgQueue) :
    (a.modQ q g).modQ q g' = a.modQ q fun mq => g' (g mq) := by
  simp [modQ]

@[simps -fullyApplied] def setBits (a : Sched) (b : BitVec 32) : Sched := { a with runQueueBits := b }
@[simps -fullyApplied] def setHint (a : Sched) (h : Bool) : Sched := { a with runQueueHint := h }

def prio (a : Sched) (t : Addr) : Nat := (a.tcb t).priority

/-- A suspended thread takes part in nothing until it is resumed. -/
def suspended (a : Sched) (t : Addr) : Prop := 0 < (a.tcb t).suspend

instance (a : Sched) (t : Addr) : Decidable (a.suspended t) := inferInstanceAs (Decidable (_ < _))

def live (a : Sched) (t : Addr) : Prop :=
  (a.tcb t).state ≠ .unused ∧ (a.tcb t).state ≠ .moribund

@[simps! -fullyApplied] def addTail (a : Sched) (q : QueueAddr) (t : Addr) : Sched := a.setQueue q (a.queue q ++ [t])

@[simps! -fullyApplied] def addPrio (a : Sched) (q : QueueAddr) (t : Addr) : Sched :=
  a.setQueue q (insertPrio a.prio t (a.queue q))

@[simps! -fullyApplied] def removeItem (a : Sched) (q : QueueAddr) (t : Addr) : Sched :=
  a.setQueue q ((a.queue q).erase t)

/-- The better of a priority and that of the first thread blocked on a mutex. -/
def blockedPriority (a : Sched) (priority : Nat) (m : Addr) : Nat :=
  match a.queue (.mutex m) with
  | [] => priority
  | b :: _ => if a.prio b < priority then a.prio b else priority

def effectivePriority (a : Sched) (t : Addr) : Nat :=
  (a.owned t).foldl a.blockedPriority (a.tcb t).base

@[simps! -fullyApplied] def setRun (a : Sched) (t : Addr) : Sched :=
  (((a.modT t ({ · with queue := .runQueue (a.prio t) })).addTail (.runQueue (a.prio t)) t).setBits
    (a.runQueueBits ||| prioBit (a.prio t))).setHint true

/-- Clear the bit of a run queue that has become empty. -/
@[simps! -fullyApplied] def clearBit (a : Sched) (q : QueueAddr) (prio : Nat) : Sched :=
  a.setBits (if a.queue q = [] then a.runQueueBits &&& ~~~prioBit prio else a.runQueueBits)

@[simps! -fullyApplied] def unsetRun (a : Sched) (t : Addr) : Sched :=
  ((a.removeItem (a.tcb t).queue t).clearBit (a.tcb t).queue (a.prio t)).modT t
    ({ · with queue := .null })

/-- Change the priority of a thread in a wait queue and sort it in again. -/
@[simps! -fullyApplied] def requeue (a : Sched) (t : Addr) (priority : Nat) : Sched :=
  ((a.removeItem (a.tcb t).queue t).modT t ({ · with priority := priority })).addPrio
    (a.tcb t).queue t

/-- The owner of the mutex a thread names, or null. -/
def nextOwner (a : Sched) (t : Addr) : Addr :=
  if (a.tcb t).mutex = 0 then 0 else (a.mtx (a.tcb t).mutex).thread

def setEffectivePriority (a : Sched) (t : Addr) (priority : Nat) : Except Fault (Addr × Sched) :=
  match (a.tcb t).state with
  | .ready => .ok (0, ((a.unsetRun t).modT t ({ · with priority := priority })).setRun t)
  | .waiting =>
    if (a.tcb t).queue = .null then .error .nullQueue
    else .ok (a.nextOwner t, a.requeue t priority)
  | .running => .ok (0, (a.setHint true).modT t ({ · with priority := priority }))
  | _ => .ok (0, a)

def updatePriority : Nat → Sched → Addr → Except Fault Sched
  | 0, _, _ => .error .fuel
  | n + 1, a, t =>
    if t = 0 then .error .nullThread
    else if a.suspended t then .ok a
    else if a.prio t = a.effectivePriority t then .ok a
    else do
      let r ← a.setEffectivePriority t (a.effectivePriority t)
      if r.1 = 0 then .ok r.2 else updatePriority n r.2 r.1

def promoteThread (priority : Nat) : Nat → Sched → Addr → Except Fault Sched
  | 0, _, _ => .error .fuel
  | n + 1, a, t =>
    if a.suspended t then .ok a
    else if a.prio t ≤ priority then .ok a
    else do
      let r ← a.setEffectivePriority t priority
      if r.1 = 0 then .ok r.2 else promoteThread priority n r.2 r.1

/-- Take the first thread off a run queue and let it run. -/
def dispatch (a : Sched) (priority : Nat) (t : Addr) : Sched :=
  { (((a.removeItem (.runQueue priority) t).clearBit (.runQueue priority) priority).modT t
      ({ · with queue := .null, state := .running })) with currentThread := t }

def selectNext (a : Sched) : Sched :=
  let b := { a with currentThread := 0 }
  if a.runQueueBits = 0 then b
  else
    match a.queue (.runQueue (portCntlzw a.runQueueBits)) with
    | [] => b
    | t :: _ => (b.setHint false).dispatch (portCntlzw a.runQueueBits) t

def preempt (a : Sched) (t : Addr) : Sched := (a.modT t ({ · with state := .ready })).setRun t

def selectThread (a : Sched) (yield : Bool) : Sched :=
  if 0 < a.reschedule then a
  else if a.currentThread = 0 then a.selectNext
  else if (a.tcb a.currentThread).state = .running then
    if yield then (a.preempt a.currentThread).selectNext
    else if a.prio a.currentThread ≤ portCntlzw a.runQueueBits then a
    else (a.preempt a.currentThread).selectNext
  else a.selectNext

def osReschedule (a : Sched) : Sched := if a.runQueueHint then a.selectThread false else a

/-- One thread leaves a wait queue; it becomes runnable unless it is suspended. -/
def wakeOne (a : Sched) (q : QueueAddr) (t : Addr) : Sched :=
  let b := (a.removeItem q t).modT t ({ · with state := .ready })
  if a.suspended t then b else b.setRun t

def wakeAll (q : QueueAddr) (a : Sched) (l : List Addr) : Sched := l.foldl (·.wakeOne q) a

def wakeupThread (a : Sched) (q : QueueAddr) : Sched := (wakeAll q a (a.queue q)).osReschedule

/-- A mutex goes back to having no owner. -/
@[simps! -fullyApplied] def disown (a : Sched) (t m : Addr) : Sched :=
  (a.setOwned t ((a.owned t).erase m)).modM m fun _ => ⟨0, 0⟩

/-- The head of a thread's owned mutexes is released and its waiters woken. -/
def unlockHead (t : Addr) (a : Sched) (m : Addr) : Sched :=
  (a.disown t m).wakeupThread (.mutex m)

def unlockAllMutex (a : Sched) (t : Addr) : Sched := (a.owned t).foldl (unlockHead t) a

def createThread (a : Sched) (slot : Nat) (priority : Int) (attr : Nat) : Sched :=
  if priority < 0 ∨ priority > 31 then a
  else
    let t := PORT_THREAD_ADDR slot
    (((a.modT t fun _ =>
      { state := .ready, attr := attr % 2, base := priority.toNat, priority := priority.toNat,
        suspend := 1, val := 0xFFFFFFFF, queue := .null, mutex := 0 }).setOwned t []).setQueue
          (.join t) []).addTail .active t

def updateOwner (a : Sched) (fuel : Nat) (t : Addr) : Except Fault Sched :=
  if (a.tcb t).mutex = 0 then .ok a
  else updatePriority fuel a (a.mtx (a.tcb t).mutex).thread

/-- Take a waiting thread out, re-evaluate its priority and sort it in again. -/
def refresh (a : Sched) (t : Addr) : Sched :=
  a.requeue t ((a.removeItem (a.tcb t).queue t).effectivePriority t)

def resumeRequeue (a : Sched) (fuel : Nat) (t : Addr) : Except Fault Sched :=
  match (a.tcb t).state with
  | .ready => .ok ((a.modT t ({ · with priority := a.effectivePriority t })).setRun t)
  | .waiting => (a.refresh t).updateOwner fuel t
  | _ => .ok a

def resumeThread (a : Sched) (fuel : Nat) (t : Addr) : Except Fault Sched := do
  let dec ← checkS32 ((a.tcb t).suspend + -1)
  if dec < 0 then .ok (a.modT t ({ · with suspend := 0 }))
  else if dec = 0 then do
    let b ← (a.modT t ({ · with suspend := dec })).resumeRequeue fuel t
    .ok b.osReschedule
  else .ok (a.modT t ({ · with suspend := dec }))

/-- A suspended waiter goes to the end of its queue with the idle priority. -/
def park (a : Sched) (t : Addr) : Sched :=
  ((a.removeItem (a.tcb t).queue t).modT t ({ · with priority := 32 })).addTail (a.tcb t).queue t

def suspendRequeue (a : Sched) (fuel : Nat) (t : Addr) : Except Fault Sched :=
  match (a.tcb t).state with
  | .running => .ok ((a.setHint true).modT t ({ · with state := .ready }))
  | .ready => .ok (a.unsetRun t)
  | .waiting => (a.park t).updateOwner fuel t
  | _ => .ok a

def suspendThread (a : Sched) (fuel : Nat) (t : Addr) : Except Fault Sched := do
  let inc ← checkS32 ((a.tcb t).suspend + 1)
  if (a.tcb t).suspend = 0 then do
    let b ← (a.modT t ({ · with suspend := inc })).suspendRequeue fuel t
    .ok b.osReschedule
  else .ok (a.modT t ({ · with suspend := inc }))

/-- The current thread enters a wait queue. -/
def enqueueCurrent (a : Sched) (q : QueueAddr) : Sched :=
  ((a.modT a.currentThread ({ · with state := .waiting, queue := q })).addPrio q
    a.currentThread).setHint true

def sleepThread (a : Sched) (q : QueueAddr) : Sched := (a.enqueueCurrent q).osReschedule

def yieldThread (a : Sched) : Sched := a.selectThread true

def retire (a : Sched) (t : Addr) (val : Option Nat) : Sched :=
  if (a.tcb t).attr % 2 = 1 then
    (a.removeItem .active t).modT t ({ · with state := .unused })
  else a.modT t fun th => { th with state := .moribund, val := val.getD th.val }

/-- A waiting thread leaves its queue for good. -/
def detach (a : Sched) (t : Addr) : Sched :=
  (a.removeItem (a.tcb t).queue t).modT t ({ · with queue := .null })

def cancelUnlink (a : Sched) (fuel : Nat) (t : Addr) : Except Fault (Bool × Sched) :=
  match (a.tcb t).state with
  | .ready => .ok (true, if a.suspended t then a else a.unsetRun t)
  | .running => .ok (true, a.setHint true)
  | .waiting =>
    if a.suspended t then .ok (true, a.detach t)
    else do
      let b ← (a.detach t).updateOwner fuel t
      .ok (true, b)
  | _ => .ok (false, a)

/-- What remains of a thread after its unlinking: its mutexes are released and
the threads joining it are woken. -/
def bury (a : Sched) (t : Addr) (val : Option Nat) : Sched :=
  ((a.retire t val).unlockAllMutex t).wakeupThread (.join t)

def cancelThread (a : Sched) (fuel : Nat) (t : Addr) : Except Fault Sched := do
  let r ← a.cancelUnlink fuel t
  if r.1 then .ok (r.2.bury t none).osReschedule else .ok r.2

def exitThread (a : Sched) (val : Nat) : Sched :=
  ((a.bury a.currentThread (some val)).setHint true).selectThread false

def changeScheduler (a : Sched) (d : Int) : Except Fault Sched := do
  let count ← checkS32 (a.reschedule + d)
  .ok { a with reschedule := count }

def initMutex (a : Sched) (m : Addr) : Sched :=
  (a.setQueue (.mutex m) []).modM m fun _ => ⟨0, 0⟩

def acquire (a : Sched) (ct m : Addr) : Except Fault Sched := do
  let count ← checkS32 ((a.mtx m).count + 1)
  .ok ((a.modM m fun _ => ⟨ct, count⟩).setOwned ct (a.owned ct ++ [m]))

def relock (a : Sched) (m : Addr) : Except Fault Sched := do
  let count ← checkS32 ((a.mtx m).count + 1)
  .ok (a.modM m ({ · with count := count }))

/-- The contended branch: boost the owner and its chain, then sleep. -/
def blockOn (a : Sched) (fuel : Nat) (m : Addr) : Except Fault Sched := do
  let b := a.modT a.currentThread ({ · with mutex := m })
  let c ← promoteThread (b.prio b.currentThread) fuel b (b.mtx m).thread
  .ok (c.sleepThread (.mutex m))

def lockMutex (a : Sched) (fuel : Nat) (m : Addr) : Except Fault Sched :=
  if (a.mtx m).thread = 0 then a.acquire a.currentThread m
  else if (a.mtx m).thread = a.currentThread then a.relock m
  else a.blockOn fuel m

def dropBoost (a : Sched) (ct : Addr) : Sched :=
  if a.prio ct < (a.tcb ct).base then a.modT ct ({ · with priority := a.effectivePriority ct })
  else a

/-- The owner gives a mutex up; its waiters are still queued. -/
def release (a : Sched) (ct m : Addr) : Sched := (a.disown ct m).dropBoost ct

def unlockMutex (a : Sched) (m : Addr) : Except Fault Sched :=
  if (a.mtx m).thread = a.currentThread then do
    let count ← checkS32 ((a.mtx m).count + -1)
    if count = 0 then .ok ((a.release a.currentThread m).wakeupThread (.mutex m))
    else .ok (a.modM m ({ · with count := count }))
  else .ok a

def tryLockMutex (a : Sched) (m : Addr) : Except Fault Sched :=
  if (a.mtx m).thread = 0 then a.acquire a.currentThread m
  else if (a.mtx m).thread = a.currentThread then a.relock m
  else .ok a

def waitCond (a : Sched) (c : Nat) (m : Addr) : Except Fault Sched :=
  if (a.mtx m).thread ≠ a.currentThread then .ok a
  else do
    let disabled ← (a.release a.currentThread m).changeScheduler 1
    let enabled ← (disabled.wakeupThread (.mutex m)).changeScheduler (-1)
    .ok ((enabled.sleepThread (.cond c)).modT a.currentThread
      ({ · with mutex := m, val := toU32 (a.mtx m).count }))

def joinThread (a : Sched) (t : Addr) : Sched :=
  if (a.tcb t).attr % 2 ≠ 1 ∧ (a.tcb t).state = .moribund then
    (a.removeItem .active t).modT t ({ · with state := .unused })
  else a

def initMessageQueue (a : Sched) (q msgCount : Nat) : Sched :=
  ((a.setQueue (.msgSend q) []).setQueue (.msgRecv q) []).modQ q fun mq =>
    { msgCount := msgCount, firstIndex := 0, usedCount := 0,
      msgs := fun i => if i < PORT_MAX_MSGS_PER_Q then 0 else mq.msgs i }

/-- A full or empty message queue makes the caller sleep if it asked to block. -/
def blockIf (a : Sched) (flags : Nat) (q : QueueAddr) : Sched :=
  if blocks flags then a.sleepThread q else a

def sendMessage (a : Sched) (q msg flags : Nat) : Sched :=
  let mq := a.msgq q
  if mq.msgCount ≤ mq.usedCount then a.blockIf flags (.msgSend q)
  else
    (a.modQ q fun _ => { mq with
      msgs := Function.update mq.msgs ((mq.firstIndex + mq.usedCount) % mq.msgCount) msg
      usedCount := mq.usedCount + 1 }).wakeupThread (.msgRecv q)

def receiveMessage (a : Sched) (q flags : Nat) : Sched :=
  let mq := a.msgq q
  if mq.usedCount = 0 then a.blockIf flags (.msgRecv q)
  else
    (a.modQ q fun _ => { mq with
      firstIndex := (mq.firstIndex + 1) % mq.msgCount
      usedCount := mq.usedCount - 1 }).wakeupThread (.msgSend q)

def jamMessage (a : Sched) (q msg flags : Nat) : Sched :=
  let mq := a.msgq q
  if mq.msgCount ≤ mq.usedCount then a.blockIf flags (.msgSend q)
  else
    (a.modQ q fun _ => { mq with
      msgs := Function.update mq.msgs ((mq.firstIndex + mq.msgCount - 1) % mq.msgCount) msg
      firstIndex := (mq.firstIndex + mq.msgCount - 1) % mq.msgCount
      usedCount := mq.usedCount + 1 }).wakeupThread (.msgRecv q)

/-- Restoring the count a condition wait saved, if the lock was just granted. -/
def restoreCount (a : Sched) (ct m : Addr) (saved : Nat) : Sched :=
  if 0 < saved ∧ (a.mtx m).thread = ct ∧ (a.mtx m).count = 1 then
    (a.modM m ({ · with count := toS32 saved })).modT ct ({ · with val := 0xFFFFFFFF })
  else a

def retryLock (a : Sched) (fuel : Nat) (ct m : Addr) : Except Fault Sched := do
  let b ← (a.modT ct ({ · with mutex := 0 })).lockMutex fuel m
  .ok (b.restoreCount ct m (a.tcb ct).val)

def pendingLock (a : Sched) : Option (Addr × Addr) :=
  let ct := a.currentThread
  if ct = 0 ∨ (a.tcb ct).mutex = 0 ∨ (a.tcb ct).state ≠ .running then none
  else some (ct, (a.tcb ct).mutex)

def processPendingLocks (fuel : Nat) : Nat → Sched → Except Fault Sched
  | 0, _ => .error .fuel
  | n + 1, a =>
    match a.pendingLock with
    | none => .ok a
    | some p => do
      let b ← a.retryLock fuel p.1 p.2
      processPendingLocks fuel n b

end Sched

end SdkPort.OSThread
