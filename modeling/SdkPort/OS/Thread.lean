import SdkPort.OS.ThreadMem

/-!
# Threads, mutexes, condition variables and message queues

The functions of `osthread.c` in the order of the source. A loop over a list of
threads or mutexes is bounded by the number of slots that can be linked; the
loops that follow a chain of owners or retry pending locks take explicit fuel.
-/
namespace SdkPort.OSThread

/-- Which pair of link words of a thread a queue operation uses. -/
inductive LinkField where
  | link | active
  deriving DecidableEq, Repr

def Thread.next : LinkField → Thread → Addr
  | .link, t => t.linkNext
  | .active, t => t.activeNext

def Thread.prev : LinkField → Thread → Addr
  | .link, t => t.linkPrev
  | .active, t => t.activePrev

def Thread.setNext : LinkField → Addr → Thread → Thread
  | .link, v, t => { t with linkNext := v }
  | .active, v, t => { t with activeNext := v }

def Thread.setPrev : LinkField → Addr → Thread → Thread
  | .link, v, t => { t with linkPrev := v }
  | .active, v, t => { t with activePrev := v }

def threadFuel : Nat := PORT_MAX_THREADS + 1
def mutexFuel : Nat := PORT_MAX_MUTEXES + 1

def qInit (q : QueueAddr) : M Unit := qSet q fun _ => ⟨0, 0⟩

def portAddTail (queue : QueueAddr) (thread : Addr) (off : LinkField) : M Unit := do
  let prev ← qGet queue (·.tail)
  if prev = 0 then
    qSet queue ({ · with head := thread })
  else
    thrSet prev (·.setNext off thread)
  thrSet thread (·.setPrev off prev)
  thrSet thread (·.setNext off 0)
  qSet queue ({ · with tail := thread })

/-- The search loop of `port_AddPrio`: the first thread with a larger priority. -/
def addPrioScan (prio : Nat) (off : LinkField) : Nat → Addr → M Addr
  | 0, _ => fault .fuel
  | n + 1, next =>
    if next = 0 then pure 0
    else do
      if (← tcbGet next (·.priority)) ≤ prio then
        addPrioScan prio off n (← thrGet next (·.next off))
      else
        pure next

def portAddPrio (queue : QueueAddr) (thread : Addr) (off : LinkField) : M Unit := do
  let thrPrio ← tcbGet thread (·.priority)
  let next ← addPrioScan thrPrio off threadFuel (← qGet queue (·.head))
  if next = 0 then
    portAddTail queue thread off
  else
    thrSet thread (·.setNext off next)
    let prev ← thrGet next (·.prev off)
    thrSet next (·.setPrev off thread)
    thrSet thread (·.setPrev off prev)
    if prev = 0 then
      qSet queue ({ · with head := thread })
    else
      thrSet prev (·.setNext off thread)

def portRemoveItem (queue : QueueAddr) (thread : Addr) (off : LinkField) : M Unit := do
  let next ← thrGet thread (·.next off)
  let prev ← thrGet thread (·.prev off)
  if next = 0 then
    qSet queue ({ · with tail := prev })
  else
    thrSet next (·.setPrev off prev)
  if prev = 0 then
    qSet queue ({ · with head := next })
  else
    thrSet prev (·.setNext off next)

def portRemoveHead (queue : QueueAddr) (off : LinkField) : M Addr := do
  let thread ← qGet queue (·.head)
  let nh ← thrGet thread (·.next off)
  if nh = 0 then
    qSet queue ({ · with tail := 0 })
  else
    thrSet nh (·.setPrev off 0)
  qSet queue ({ · with head := nh })
  pure thread

def portMutexPushTail (thread mutex : Addr) : M Unit := do
  let prev ← thrGet thread (·.mutexTail)
  if prev = 0 then
    thrSet thread ({ · with mutexHead := mutex })
  else
    mtxSet prev ({ · with linkNext := mutex })
  mtxSet mutex ({ · with linkPrev := prev })
  mtxSet mutex ({ · with linkNext := 0 })
  thrSet thread ({ · with mutexTail := mutex })

def portMutexPopHead (thread : Addr) : M Addr := do
  let mutex ← thrGet thread (·.mutexHead)
  let next ← mtxGet mutex (·.linkNext)
  if next = 0 then
    thrSet thread ({ · with mutexTail := 0 })
  else
    mtxSet next ({ · with linkPrev := 0 })
  thrSet thread ({ · with mutexHead := next })
  pure mutex

def portMutexPopItem (thread mutex : Addr) : M Unit := do
  let next ← mtxGet mutex (·.linkNext)
  let prev ← mtxGet mutex (·.linkPrev)
  if next = 0 then
    thrSet thread ({ · with mutexTail := prev })
  else
    mtxSet next ({ · with linkPrev := prev })
  if prev = 0 then
    thrSet thread ({ · with mutexHead := next })
  else
    mtxSet prev ({ · with linkNext := next })

def portCntlzw (x : BitVec 32) : Nat := if x = 0 then 32 else x.clz.toNat

/-- The better of a priority and that of the first thread blocked on a mutex. -/
def blockedPriority (mutex : Addr) (priority : Nat) : M Nat := do
  let blocked ← qGet (.mutex mutex) (·.head)
  if blocked = 0 then pure priority
  else
    let bp ← tcbGet blocked (·.priority)
    pure (if bp < priority then bp else priority)

/-- The loop of `port_OSGetEffectivePriority` over the owned mutexes. -/
def effectivePriorityScan : Nat → Addr → Nat → M Nat
  | 0, _, _ => fault .fuel
  | n + 1, mutex, priority =>
    if mutex = 0 then pure priority
    else do
      let priority' ← blockedPriority mutex priority
      effectivePriorityScan n (← mtxGet mutex (·.linkNext)) priority'

def portOSGetEffectivePriority (thread : Addr) : M Nat := do
  let priority ← tcbGet thread (·.base)
  effectivePriorityScan mutexFuel (← thrGet thread (·.mutexHead)) priority

/-- The bit of `runQueueBits` that stands for a priority. -/
def prioBit (prio : Nat) : BitVec 32 := 1#32 <<< (PORT_OS_PRIORITY_MAX - prio)

def portSetRun (thread : Addr) : M Unit := do
  let prio ← tcbGet thread (·.priority)
  let rq := QueueAddr.runQueue prio
  tcbSet thread ({ · with queue := rq })
  portAddTail rq thread .link
  stSet fun s => { s with runQueueBits := s.runQueueBits ||| prioBit prio }
  stSet ({ · with runQueueHint := true })

def portUnsetRun (thread : Addr) : M Unit := do
  let queue ← tcbGet thread (·.queue)
  let prio ← tcbGet thread (·.priority)
  portRemoveItem queue thread .link
  if (← qGet queue (·.head)) = 0 then
    stSet fun s => { s with runQueueBits := s.runQueueBits &&& ~~~prioBit prio }
  tcbSet thread ({ · with queue := .null })

/-- Returns the owner to continue with, or null. -/
def portSetEffectivePriority (thread : Addr) (priority : Nat) : M Addr := do
  match ← tcbGet thread (·.state) with
  | .ready =>
    portUnsetRun thread
    tcbSet thread ({ · with priority := priority })
    portSetRun thread
    pure 0
  | .waiting =>
    let q ← tcbGet thread (·.queue)
    portRemoveItem q thread .link
    tcbSet thread ({ · with priority := priority })
    portAddPrio q thread .link
    let m ← tcbGet thread (·.mutex)
    if m = 0 then pure 0 else coreGet m (·.thread)
  | .running =>
    stSet ({ · with runQueueHint := true })
    tcbSet thread ({ · with priority := priority })
    pure 0
  | _ => pure 0

def portUpdatePriority : Nat → Addr → M Unit
  | 0, _ => fault .fuel
  | n + 1, t => do
    if 0 < (← tcbGet t (·.suspend)) then pure ()
    else
      let priority ← portOSGetEffectivePriority t
      if (← tcbGet t (·.priority)) = priority then pure ()
      else
        let t' ← portSetEffectivePriority t priority
        if t' = 0 then pure () else portUpdatePriority n t'

def portOSPromoteThread (priority : Nat) : Nat → Addr → M Unit
  | 0, _ => fault .fuel
  | n + 1, t => do
    if 0 < (← tcbGet t (·.suspend)) then pure ()
    else if (← tcbGet t (·.priority)) ≤ priority then pure ()
    else
      let t' ← portSetEffectivePriority t priority
      if t' = 0 then pure () else portOSPromoteThread priority n t'

/-- The second half of `port_SelectThread`: dispatch the best ready thread. -/
def selectNext : M Addr := do
  stSet ({ · with currentThread := 0 })
  if (← stGet (·.runQueueBits)) = 0 then pure 0
  else
    stSet ({ · with runQueueHint := false })
    let priority := portCntlzw (← stGet (·.runQueueBits))
    let queue := QueueAddr.runQueue priority
    let nextThread ← portRemoveHead queue .link
    if (← qGet queue (·.head)) = 0 then
      stSet fun s => { s with runQueueBits := s.runQueueBits &&& ~~~prioBit priority }
    tcbSet nextThread ({ · with queue := .null })
    tcbSet nextThread ({ · with state := .running })
    stSet ({ · with currentThread := nextThread })
    pure nextThread

/-- The running thread goes back to its run queue. -/
def preempt (thread : Addr) : M Unit := do
  tcbSet thread ({ · with state := .ready })
  portSetRun thread

def portSelectThread (yield : Bool) : M Addr := do
  if 0 < (← stGet (·.reschedule)) then pure 0
  else
    let currentThread ← stGet (·.currentThread)
    if currentThread = 0 then selectNext
    else if (← tcbGet currentThread (·.state)) = .running then
      if yield then
        preempt currentThread
        selectNext
      else
        let priority := portCntlzw (← stGet (·.runQueueBits))
        if (← tcbGet currentThread (·.priority)) ≤ priority then pure 0
        else
          preempt currentThread
          selectNext
    else selectNext

def portOSReschedule : M Unit := do
  if (← stGet (·.runQueueHint)) then
    let _ ← portSelectThread false

/-- The loop of `port_OSWakeupThread`. -/
def wakeupLoop (queue : QueueAddr) : Nat → M Unit
  | 0 => fault .fuel
  | n + 1 => do
    if (← qGet queue (·.head)) = 0 then pure ()
    else
      let thread ← portRemoveHead queue .link
      tcbSet thread ({ · with state := .ready })
      if ¬ 0 < (← tcbGet thread (·.suspend)) then
        portSetRun thread
      wakeupLoop queue n

def portOSWakeupThread (queue : QueueAddr) : M Unit := do
  wakeupLoop queue threadFuel
  portOSReschedule

/-- The loop of `port_OSUnlockAllMutex`. -/
def unlockAllLoop (thread : Addr) : Nat → M Unit
  | 0 => fault .fuel
  | n + 1 => do
    if (← thrGet thread (·.mutexHead)) = 0 then pure ()
    else
      let mutex ← portMutexPopHead thread
      coreSet mutex ({ · with count := 0 })
      coreSet mutex ({ · with thread := 0 })
      portOSWakeupThread (.mutex mutex)
      unlockAllLoop thread n

def portOSUnlockAllMutex (thread : Addr) : M Unit := unlockAllLoop thread mutexFuel

def blankThread : Thread :=
  ⟨⟨.unused, 0, 0, 0, 0, 0, .null, 0⟩, 0, 0, 0, 0, 0, 0⟩

def blankMutex : Mutex := ⟨⟨0, 0⟩, 0, 0⟩

/-- The memory block after `memset`, with no current thread. -/
def blankState : St where
  thr := fun _ => blankThread
  queue := fun _ => ⟨0, 0⟩
  mtx := fun _ => blankMutex
  msgq := fun _ => ⟨0, 0, 0, fun _ => 0⟩
  currentThread := 0
  runQueueBits := 0
  runQueueHint := false
  reschedule := 0

/-- Everything is zeroed first, so the loops that initialise queues and slots
leave the block as it is; the default thread takes slot 0. -/
def portOSThreadInit : M Unit := do
  stSet fun _ => blankState
  let defAddr := PORT_THREAD_ADDR 0
  tcbSet defAddr fun _ =>
    { state := .running, attr := 1, priority := 16, base := 16, suspend := 0,
      val := 0xFFFFFFFF, queue := .null, mutex := 0 }
  stSet ({ · with currentThread := defAddr })
  portAddTail .active defAddr .active

def portOSCreateThread (slot : Nat) (priority : Int) (attr : Nat) : M Bool := do
  if priority < 0 ∨ priority > 31 then pure false
  else
    let t := PORT_THREAD_ADDR slot
    tcbSet t fun _ =>
      { state := .ready, attr := attr % 2, base := priority.toNat, priority := priority.toNat,
        suspend := 1, val := 0xFFFFFFFF, queue := .null, mutex := 0 }
    thrSet t ({ · with linkNext := 0, linkPrev := 0, mutexHead := 0, mutexTail := 0 })
    qInit (.join t)
    portAddTail .active t .active
    pure true

/-- The owner of the mutex a re-sorted waiter names is re-evaluated. -/
def updateOwner (fuel : Nat) (thread : Addr) : M Unit := do
  let m ← tcbGet thread (·.mutex)
  if m = 0 then pure ()
  else portUpdatePriority fuel (← coreGet m (·.thread))

/-- What resuming does to a thread whose suspend count reaches zero. -/
def resumeRequeue (fuel : Nat) (thread : Addr) : M Unit := do
  match ← tcbGet thread (·.state) with
  | .ready =>
    let prio ← portOSGetEffectivePriority thread
    tcbSet thread ({ · with priority := prio })
    portSetRun thread
  | .waiting =>
    let q ← tcbGet thread (·.queue)
    portRemoveItem q thread .link
    let prio ← portOSGetEffectivePriority thread
    tcbSet thread ({ · with priority := prio })
    portAddPrio q thread .link
    updateOwner fuel thread
  | _ => pure ()

def portOSResumeThread (fuel : Nat) (thread : Addr) : M Int := do
  let suspendCount ← tcbGet thread (·.suspend)
  let dec ← addS32 suspendCount (-1)
  tcbSet thread ({ · with suspend := dec })
  if dec < 0 then
    tcbSet thread ({ · with suspend := 0 })
  else if dec = 0 then
    resumeRequeue fuel thread
    portOSReschedule
  pure suspendCount

/-- What suspending does to a thread that was not suspended. -/
def suspendRequeue (fuel : Nat) (thread : Addr) : M Unit := do
  match ← tcbGet thread (·.state) with
  | .running =>
    stSet ({ · with runQueueHint := true })
    tcbSet thread ({ · with state := .ready })
  | .ready => portUnsetRun thread
  | .waiting =>
    let q ← tcbGet thread (·.queue)
    portRemoveItem q thread .link
    tcbSet thread ({ · with priority := 32 })
    portAddTail q thread .link
    updateOwner fuel thread
  | _ => pure ()

def portOSSuspendThread (fuel : Nat) (thread : Addr) : M Int := do
  let suspendCount ← tcbGet thread (·.suspend)
  let inc ← addS32 suspendCount 1
  tcbSet thread ({ · with suspend := inc })
  if suspendCount = 0 then
    suspendRequeue fuel thread
    portOSReschedule
  pure suspendCount

def portOSSleepThread (queue : QueueAddr) : M Unit := do
  let ct ← stGet (·.currentThread)
  tcbSet ct ({ · with state := .waiting })
  tcbSet ct ({ · with queue := queue })
  portAddPrio queue ct .link
  stSet ({ · with runQueueHint := true })
  portOSReschedule

def portOSYieldThread : M Unit := do
  let _ ← portSelectThread true

/-- The end of a thread's life: a detached thread leaves the active queue, another
one waits to be joined, keeping the exit value if there is one. -/
def retire (thread : Addr) (val : Option Nat) : M Unit := do
  if (← tcbGet thread (·.attr)) % 2 = 1 then
    portRemoveItem .active thread .active
    tcbSet thread ({ · with state := .unused })
  else
    tcbSet thread ({ · with state := .moribund })
    match val with
    | some v => tcbSet thread ({ · with val := v })
    | none => pure ()

/-- Unlinking done by `port_OSCancelThread` according to the state of the thread;
false for a thread that is not alive. -/
def cancelUnlink (fuel : Nat) (thread : Addr) : M Bool := do
  match ← tcbGet thread (·.state) with
  | .ready =>
    if ¬ 0 < (← tcbGet thread (·.suspend)) then
      portUnsetRun thread
    pure true
  | .running =>
    stSet ({ · with runQueueHint := true })
    pure true
  | .waiting =>
    let q ← tcbGet thread (·.queue)
    portRemoveItem q thread .link
    tcbSet thread ({ · with queue := .null })
    if ¬ 0 < (← tcbGet thread (·.suspend)) then
      updateOwner fuel thread
    pure true
  | _ => pure false

def portOSCancelThread (fuel : Nat) (thread : Addr) : M Unit := do
  if ← cancelUnlink fuel thread then
    retire thread none
    portOSUnlockAllMutex thread
    portOSWakeupThread (.join thread)
    portOSReschedule

def portOSExitThread (val : Nat) : M Unit := do
  let ct ← stGet (·.currentThread)
  retire ct (some val)
  portOSUnlockAllMutex ct
  portOSWakeupThread (.join ct)
  stSet ({ · with runQueueHint := true })
  let _ ← portSelectThread false

def portOSDisableScheduler : M Int := do
  let count ← stGet (·.reschedule)
  let count' ← addS32 count 1
  stSet ({ · with reschedule := count' })
  pure count

def portOSEnableScheduler : M Int := do
  let count ← stGet (·.reschedule)
  let count' ← addS32 count (-1)
  stSet ({ · with reschedule := count' })
  pure count

def portOSInitMutex (mutex : Addr) : M Unit := do
  qInit (.mutex mutex)
  coreSet mutex ({ · with thread := 0 })
  coreSet mutex ({ · with count := 0 })

/-- The branch of lock and try-lock that takes a mutex without owner. -/
def acquire (ct mutex : Addr) : M Unit := do
  coreSet mutex ({ · with thread := ct })
  let count ← addS32 (← coreGet mutex (·.count)) 1
  coreSet mutex ({ · with count := count })
  portMutexPushTail ct mutex

/-- The branch of lock and try-lock for a mutex the thread already owns. -/
def relock (mutex : Addr) : M Unit := do
  let count ← addS32 (← coreGet mutex (·.count)) 1
  coreSet mutex ({ · with count := count })

def portOSLockMutex (fuel : Nat) (mutex : Addr) : M Unit := do
  let ct ← stGet (·.currentThread)
  let owner ← coreGet mutex (·.thread)
  if owner = 0 then acquire ct mutex
  else if owner = ct then relock mutex
  else
    tcbSet ct ({ · with mutex := mutex })
    portOSPromoteThread (← tcbGet ct (·.priority)) fuel owner
    portOSSleepThread (.mutex mutex)

/-- Giving up a boost when a mutex is released. -/
def dropBoost (ct : Addr) : M Unit := do
  if (← tcbGet ct (·.priority)) < (← tcbGet ct (·.base)) then
    let priority ← portOSGetEffectivePriority ct
    tcbSet ct ({ · with priority := priority })

def portOSUnlockMutex (mutex : Addr) : M Unit := do
  let ct ← stGet (·.currentThread)
  if (← coreGet mutex (·.thread)) = ct then
    let count ← addS32 (← coreGet mutex (·.count)) (-1)
    coreSet mutex ({ · with count := count })
    if count = 0 then
      portMutexPopItem ct mutex
      coreSet mutex ({ · with thread := 0 })
      dropBoost ct
      portOSWakeupThread (.mutex mutex)

def portOSTryLockMutex (mutex : Addr) : M Bool := do
  let ct ← stGet (·.currentThread)
  let owner ← coreGet mutex (·.thread)
  if owner = 0 then
    acquire ct mutex
    pure true
  else if owner = ct then
    relock mutex
    pure true
  else pure false

def portOSInitCond (cond : Nat) : M Unit := qInit (.cond cond)

def portOSWaitCond (cond : Nat) (mutex : Addr) : M Unit := do
  let ct ← stGet (·.currentThread)
  if (← coreGet mutex (·.thread)) ≠ ct then pure ()
  else
    let count ← coreGet mutex (·.count)
    coreSet mutex ({ · with count := 0 })
    portMutexPopItem ct mutex
    coreSet mutex ({ · with thread := 0 })
    dropBoost ct
    let disabled ← addS32 (← stGet (·.reschedule)) 1
    stSet ({ · with reschedule := disabled })
    portOSWakeupThread (.mutex mutex)
    let enabled ← addS32 (← stGet (·.reschedule)) (-1)
    stSet ({ · with reschedule := enabled })
    portOSSleepThread (.cond cond)
    tcbSet ct ({ · with mutex := mutex })
    tcbSet ct ({ · with val := toU32 count })

def portOSSignalCond (cond : Nat) : M Unit := portOSWakeupThread (.cond cond)

def portOSJoinThread (thread : Addr) : M (Option Nat) := do
  let attr ← tcbGet thread (·.attr)
  let state ← tcbGet thread (·.state)
  if attr % 2 = 1 then pure none
  else if state = .moribund then
    let val ← tcbGet thread (·.val)
    portRemoveItem .active thread .active
    tcbSet thread ({ · with state := .unused })
    pure (some val)
  else pure none

def portOSInitMessageQueue (mq : Nat) (msgCount : Nat) : M Unit := do
  qInit (.msgSend mq)
  qInit (.msgRecv mq)
  mqSet mq fun q => { q with msgCount := msgCount, firstIndex := 0, usedCount := 0 }
  mqSet mq fun q => { q with msgs := fun i => if i < PORT_MAX_MSGS_PER_Q then 0 else q.msgs i }

/-- The flags word asks to block in its lowest bit. -/
def blocks (flags : Nat) : Prop := flags % 2 = 1

instance (flags : Nat) : Decidable (blocks flags) := inferInstanceAs (Decidable (_ = _))

def portOSSendMessage (mq msg flags : Nat) : M Bool := do
  let msgCount ← mqGet mq (·.msgCount)
  let usedCount ← mqGet mq (·.usedCount)
  if msgCount ≤ usedCount then
    if blocks flags then
      portOSSleepThread (.msgSend mq)
    pure false
  else
    let firstIndex ← mqGet mq (·.firstIndex)
    let lastIndex := (firstIndex + usedCount) % msgCount
    mqSet mq fun q => { q with msgs := Function.update q.msgs lastIndex msg }
    mqSet mq ({ · with usedCount := usedCount + 1 })
    portOSWakeupThread (.msgRecv mq)
    pure true

def portOSReceiveMessage (mq flags : Nat) : M (Option Nat) := do
  let usedCount ← mqGet mq (·.usedCount)
  if usedCount = 0 then
    if blocks flags then
      portOSSleepThread (.msgRecv mq)
    pure none
  else
    let firstIndex ← mqGet mq (·.firstIndex)
    let msgCount ← mqGet mq (·.msgCount)
    let msg ← mqGet mq (·.msgs firstIndex)
    mqSet mq ({ · with firstIndex := (firstIndex + 1) % msgCount })
    mqSet mq ({ · with usedCount := usedCount - 1 })
    portOSWakeupThread (.msgSend mq)
    pure (some msg)

def portOSJamMessage (mq msg flags : Nat) : M Bool := do
  let msgCount ← mqGet mq (·.msgCount)
  let usedCount ← mqGet mq (·.usedCount)
  if msgCount ≤ usedCount then
    if blocks flags then
      portOSSleepThread (.msgSend mq)
    pure false
  else
    let firstIndex ← mqGet mq (·.firstIndex)
    let firstIndex' := (firstIndex + msgCount - 1) % msgCount
    mqSet mq fun q => { q with msgs := Function.update q.msgs firstIndex' msg }
    mqSet mq ({ · with firstIndex := firstIndex' })
    mqSet mq ({ · with usedCount := usedCount + 1 })
    portOSWakeupThread (.msgRecv mq)
    pure true

/-- One iteration of `port_ProcessPendingLocks` for the running thread `ct` with
the pending mutex `m`. -/
def retryLock (fuel : Nat) (ct m : Addr) : M Unit := do
  let savedCount ← tcbGet ct (·.val)
  tcbSet ct ({ · with mutex := 0 })
  portOSLockMutex fuel m
  if 0 < savedCount ∧ (← coreGet m (·.thread)) = ct ∧ (← coreGet m (·.count)) = 1 then
    coreSet m ({ · with count := toS32 savedCount })
    tcbSet ct ({ · with val := 0xFFFFFFFF })

/-- The running thread with a pending mutex, if the loop goes on. -/
def pendingLock (s : St) : Option (Addr × Addr) :=
  let ct := s.currentThread
  if ct = 0 ∨ (s.thr ct).mutex = 0 ∨ (s.thr ct).state ≠ .running then none
  else some (ct, (s.thr ct).mutex)

def portProcessPendingLocks (fuel : Nat) : Nat → M Unit
  | 0 => fault .fuel
  | n + 1 => do
    match ← stGet pendingLock with
    | none => pure ()
    | some (ct, m) =>
      retryLock fuel ct m
      portProcessPendingLocks fuel n

end SdkPort.OSThread
