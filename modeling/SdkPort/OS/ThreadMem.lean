import Mathlib.Algebra.Order.Ring.Int
import Mathlib.Logic.Function.Basic
import Mathlib.Data.Int.Notation

/-!
# Memory of the thread scheduler

Threads, mutexes, message queues and queue heads live in emulated memory. Each
kind of object is a store indexed by its address; address zero is the null
pointer, and touching an object through it has no result. So has a signed
addition that leaves the 32-bit range.
-/
namespace SdkPort.OSThread

abbrev Addr := Nat

def PORT_OS_PRIORITY_MAX : Nat := 31
def PORT_MAX_THREADS : Nat := 32
def PORT_MAX_MUTEXES : Nat := 16
def PORT_MAX_MSGS_PER_Q : Nat := 16

/-- Address of the thread in a slot. -/
def PORT_THREAD_ADDR (slot : Nat) : Addr := slot + 1

/-- `unused` is the state word 0 of a slot that holds no thread. -/
inductive ThreadState where
  | unused | ready | running | waiting | moribund
  deriving DecidableEq, Repr

/-- Addresses of the two-word queue heads embedded in the memory layout. The
queue of a mutex, the join queue of a thread and the two queues of a message
queue belong to the object of that address. -/
inductive QueueAddr where
  | null
  | runQueue (prio : Nat)
  | active
  | waitQueue (i : Nat)
  | mutex (m : Addr)
  | cond (c : Nat)
  | msgSend (q : Nat)
  | msgRecv (q : Nat)
  | join (t : Addr)
  deriving DecidableEq, Repr

/-- The words of a thread other than list links. -/
structure Tcb where
  state : ThreadState
  attr : Nat
  suspend : Int
  priority : Nat
  base : Nat
  val : Nat
  queue : QueueAddr
  mutex : Addr
  deriving DecidableEq, Repr

structure Thread extends Tcb where
  linkNext : Addr
  linkPrev : Addr
  mutexHead : Addr
  mutexTail : Addr
  activeNext : Addr
  activePrev : Addr
  deriving DecidableEq, Repr

structure Queue where
  head : Addr
  tail : Addr
  deriving DecidableEq, Repr

/-- Owner and recursion count of a mutex. -/
structure MutexCore where
  thread : Addr
  count : Int
  deriving DecidableEq, Repr

structure Mutex extends MutexCore where
  linkNext : Addr
  linkPrev : Addr
  deriving DecidableEq, Repr

structure MsgQueue where
  msgCount : Nat
  firstIndex : Nat
  usedCount : Nat
  msgs : Nat → Nat

/-- `port_OSThreadState` together with the memory block it manages. -/
structure St where
  thr : Addr → Thread
  queue : QueueAddr → Queue
  mtx : Addr → Mutex
  msgq : Nat → MsgQueue
  currentThread : Addr
  runQueueBits : BitVec 32
  runQueueHint : Bool
  reschedule : Int

inductive Fault where
  | nullThread
  | nullMutex
  | nullQueue
  | overflow
  | fuel
  deriving DecidableEq, Repr

abbrev M := StateT St (Except Fault)

def thrGet (t : Addr) (f : Thread → α) : M α := fun s =>
  if t = 0 then .error .nullThread else .ok (f (s.thr t), s)

def thrSet (t : Addr) (g : Thread → Thread) : M Unit := fun s =>
  if t = 0 then .error .nullThread
  else .ok ((), { s with thr := Function.update s.thr t (g (s.thr t)) })

/-- Accesses to the words of a thread that are not list links. -/
def tcbGet (t : Addr) (f : Tcb → α) : M α := thrGet t (f ·.toTcb)
def tcbSet (t : Addr) (g : Tcb → Tcb) : M Unit := thrSet t fun th => { th with toTcb := g th.toTcb }

def qGet (q : QueueAddr) (f : Queue → α) : M α := fun s =>
  if q = .null then .error .nullQueue else .ok (f (s.queue q), s)

def qSet (q : QueueAddr) (g : Queue → Queue) : M Unit := fun s =>
  if q = .null then .error .nullQueue
  else .ok ((), { s with queue := Function.update s.queue q (g (s.queue q)) })

def mtxGet (m : Addr) (f : Mutex → α) : M α := fun s =>
  if m = 0 then .error .nullMutex else .ok (f (s.mtx m), s)

def mtxSet (m : Addr) (g : Mutex → Mutex) : M Unit := fun s =>
  if m = 0 then .error .nullMutex
  else .ok ((), { s with mtx := Function.update s.mtx m (g (s.mtx m)) })

/-- Accesses to the owner and the count of a mutex. -/
def coreGet (m : Addr) (f : MutexCore → α) : M α := mtxGet m (f ·.toMutexCore)
def coreSet (m : Addr) (g : MutexCore → MutexCore) : M Unit :=
  mtxSet m fun mt => { mt with toMutexCore := g mt.toMutexCore }

def mqGet (q : Nat) (f : MsgQueue → α) : M α := fun s => .ok (f (s.msgq q), s)

def mqSet (q : Nat) (g : MsgQueue → MsgQueue) : M Unit := fun s =>
  .ok ((), { s with msgq := Function.update s.msgq q (g (s.msgq q)) })

/-- Read a word of the scheduler state kept outside emulated memory. -/
def stGet (f : St → α) : M α := fun s => .ok (f s, s)

def stSet (g : St → St) : M Unit := fun s => .ok ((), g s)

def fault (e : Fault) : M α := fun _ => .error e

/-- A value of type `int32_t`; overflow of its arithmetic is undefined. -/
def checkS32 (v : Int) : Except Fault Int :=
  if -2 ^ 31 ≤ v ∧ v < 2 ^ 31 then .ok v else .error .overflow

/-- Signed 32-bit addition. -/
def addS32 (a b : Int) : M Int := fun s => (checkS32 (a + b)).map (·, s)

/-- The conversions between `int32_t` and `uint32_t`. -/
def toU32 (v : Int) : Nat := (v % 2 ^ 32).toNat
def toS32 (v : Nat) : Int := if v < 2 ^ 31 then v else v - 2 ^ 32

end SdkPort.OSThread
