import SdkPort.OS.GcMem

/-!
# The waiting queue of the drive

`dvdqueue.c`: four circular lists of command blocks in emulated memory, one for each
priority. The sentinels lie in a row.
-/
namespace SdkPort.DVD

open Gc (u32 GcMem)

def PORT_DVD_QUEUE_NEXT : Nat := 0
def PORT_DVD_QUEUE_PREV : Nat := 4
def PORT_DVD_QUEUE_SIZE : Nat := 8
def PORT_DVD_BLOCK_NEXT : Nat := 0
def PORT_DVD_BLOCK_PREV : Nat := 4
def PORT_DVD_MAX_QUEUES : Nat := 4

/-- `port_DVDQueueState` and the memory. -/
structure QueueState where
  queuesBase : Nat
  mem : GcMem

namespace QueueState

def queueAddr (st : QueueState) (i : Nat) : Nat := u32 (st.queuesBase + i * PORT_DVD_QUEUE_SIZE)

def word (st : QueueState) (addr : Nat) : Nat := st.mem.load (u32 addr)

def setWord (st : QueueState) (addr v : Nat) : QueueState := { st with mem := st.mem.store (u32 addr) v }

/-- `load_u32be`: the null pointer for what is not mapped is a fault. -/
def load (st : QueueState) (addr : Nat) : Option Nat :=
  if (st.mem.ptr (u32 addr) 4).isSome then some (st.word addr) else none

/-- `store_u32be`, with the same fault. -/
def store (st : QueueState) (addr v : Nat) : Option QueueState :=
  if (st.mem.ptr (u32 addr) 4).isSome then some (st.setWord addr v) else none

end QueueState

/-- The first queues are cleared. -/
def clearUpTo (st : QueueState) : Nat → Option QueueState
  | 0 => some st
  | n + 1 => do
    let st ← clearUpTo st n
    let q := st.queueAddr n
    let st ← st.store (q + PORT_DVD_QUEUE_NEXT) q
    st.store (q + PORT_DVD_QUEUE_PREV) q

def portDVDClearWaitingQueue (st : QueueState) : Option QueueState := clearUpTo st PORT_DVD_MAX_QUEUES

def portDVDPushWaitingQueue (st : QueueState) (prio blockAddr : Nat) : Option QueueState := do
  let q := st.queueAddr prio
  let qPrev ← st.load (q + PORT_DVD_QUEUE_PREV)
  let st ← st.store (qPrev + PORT_DVD_BLOCK_NEXT) blockAddr
  let st ← st.store (blockAddr + PORT_DVD_BLOCK_PREV) qPrev
  let st ← st.store (blockAddr + PORT_DVD_BLOCK_NEXT) q
  st.store (q + PORT_DVD_QUEUE_PREV) blockAddr

def popWaitingQueuePrio (st : QueueState) (prio : Nat) : Option (Nat × QueueState) := do
  let q := st.queueAddr prio
  let tmp ← st.load (q + PORT_DVD_QUEUE_NEXT)
  let tmpNext ← st.load (tmp + PORT_DVD_BLOCK_NEXT)
  let st ← st.store (q + PORT_DVD_QUEUE_NEXT) tmpNext
  let st ← st.store (tmpNext + PORT_DVD_BLOCK_PREV) q
  let st ← st.store (tmp + PORT_DVD_BLOCK_NEXT) 0
  let st ← st.store (tmp + PORT_DVD_BLOCK_PREV) 0
  some (tmp, st)

/-- The first of some queues whose sentinel does not lead to itself. -/
def firstWaiting (st : QueueState) : List Nat → Option (Option Nat)
  | [] => some none
  | i :: is => do
    let next ← st.load (st.queueAddr i + PORT_DVD_QUEUE_NEXT)
    if next ≠ st.queueAddr i then some (some i) else firstWaiting st is

def portDVDPopWaitingQueue (st : QueueState) : Option (Nat × QueueState) := do
  match ← firstWaiting st (List.range PORT_DVD_MAX_QUEUES) with
  | some i => popWaitingQueuePrio st i
  | none => some (0, st)

def portDVDCheckWaitingQueue (st : QueueState) : Option Nat :=
  (firstWaiting st (List.range PORT_DVD_MAX_QUEUES)).map fun i => if i.isSome then 1 else 0

def portDVDDequeueWaitingQueue (st : QueueState) (blockAddr : Nat) : Option (Nat × QueueState) := do
  let prev ← st.load (blockAddr + PORT_DVD_BLOCK_PREV)
  let next ← st.load (blockAddr + PORT_DVD_BLOCK_NEXT)
  if prev = 0 ∨ next = 0 then some (0, st)
  else
    let st ← st.store (prev + PORT_DVD_BLOCK_NEXT) next
    let st ← st.store (next + PORT_DVD_BLOCK_PREV) prev
    some (1, st)

/-- The walk along a queue. Without the sentinel among its addresses it does not end. -/
def searchQueue (st : QueueState) (sentinel blockAddr : Nat) : Nat → Nat → Option Bool
  | 0, _ => none
  | n + 1, q =>
    if q = sentinel then some false
    else if q = blockAddr then some true
    else do
      let next ← st.load (q + PORT_DVD_BLOCK_NEXT)
      searchQueue st sentinel blockAddr n next

/-- A walk that ends passes no address twice. -/
def searchFuel : Nat := 2 ^ 32 + 1

def searchFrom (st : QueueState) (blockAddr : Nat) : List Nat → Option Nat
  | [] => some 0
  | i :: is => do
    let sentinel := st.queueAddr i
    let first ← st.load (sentinel + PORT_DVD_QUEUE_NEXT)
    if first ≠ sentinel then
      match ← searchQueue st sentinel blockAddr searchFuel first with
      | true => some 1
      | false => searchFrom st blockAddr is
    else searchFrom st blockAddr is

def portDVDIsBlockInWaitingQueue (st : QueueState) (blockAddr : Nat) : Option Nat :=
  searchFrom st blockAddr (List.range PORT_DVD_MAX_QUEUES)

end SdkPort.DVD
