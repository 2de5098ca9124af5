import SdkPort.OS.GcMem
import SdkPort.Lib.Fifo
import SdkPort.Lib.Trace

/-!
# The ARAM request queue

`arq.c`: two queues of requests, a pending one of each priority, and the transfers
started for them. Request structures are a store indexed by their address; address
zero is the null pointer. The calls of `portARStartDMA` and of callbacks are kept
beside the state, because the log of the source stops at its capacity.
-/
namespace SdkPort.ARQ

open Gc (u32)

def PORT_ARQ_TYPE_MRAM_TO_ARAM : Nat := 0
def PORT_ARQ_PRIORITY_LOW : Nat := 0
def PORT_ARQ_PRIORITY_HIGH : Nat := 1
def PORT_ARQ_CHUNK_SIZE_DEFAULT : Nat := 4096
def PORT_MAX_DMA : Nat := 2048

/-- The words of an `ARQRequest` that are read or written. -/
structure Request where
  next : Nat
  owner : Nat
  type : Nat
  source : Nat
  dest : Nat
  length : Nat
  callback : Nat
  deriving DecidableEq, Repr

/-- What remains of a request after a chunk. -/
def Request.advance (r : Request) (chunkSize : Nat) : Request :=
  { r with
    length := u32 (r.length + 2 ^ 32 - chunkSize)
    source := u32 (r.source + chunkSize)
    dest := u32 (r.dest + chunkSize) }

structure DMARecord where
  type : Nat
  mainmem : Nat
  aram : Nat
  length : Nat
  deriving DecidableEq, Repr

/-- A call on behalf of the request at an address. -/
inductive Call where
  | startDMA (req : Nat) (d : DMARecord)
  | callback (req : Nat)
  deriving DecidableEq, Repr

/-- `port_ARQState`, the request structures, and the calls made. The number of
entries of the log is `dma_count`. -/
structure St where
  mem : Nat → Request
  queueHi : Nat
  tailHi : Nat
  queueLo : Nat
  tailLo : Nat
  pendingHi : Nat
  pendingLo : Nat
  hasCallbackHi : Bool
  hasCallbackLo : Bool
  chunkSize : Nat
  dmaLog : List DMARecord
  callbackCount : Nat
  calls : List Call

def St.reqSet (s : St) (req : Nat) (g : Request → Request) : St :=
  { s with mem := Function.update s.mem req (g (s.mem req)) }

/-- The two address arguments change places with the direction. -/
def transfer (type source dest length : Nat) : DMARecord :=
  if type = PORT_ARQ_TYPE_MRAM_TO_ARAM then ⟨type, source, dest, length⟩
  else ⟨type, dest, source, length⟩

def portARStartDMA (s : St) (req : Nat) (d : DMARecord) : St :=
  { s with
    dmaLog := if s.dmaLog.length < PORT_MAX_DMA then s.dmaLog ++ [d] else s.dmaLog
    calls := s.calls ++ [.startDMA req d] }

def portARQInit (s : St) : St :=
  { s with
    queueHi := 0, tailHi := 0, queueLo := 0, tailLo := 0, pendingHi := 0, pendingLo := 0
    hasCallbackHi := false, hasCallbackLo := false
    chunkSize := PORT_ARQ_CHUNK_SIZE_DEFAULT, dmaLog := [], callbackCount := 0 }

def portARQPopTaskQueueHi (s : St) : St :=
  if s.queueHi ≠ 0 then
    let req := s.queueHi
    let r := s.mem req
    { portARStartDMA s req (transfer r.type r.source r.dest r.length) with
      hasCallbackHi := true, pendingHi := req, queueHi := r.next }
  else s

/-- The first half of `port_ARQServiceQueueLo`: take a request off the queue. -/
def takeQueueLo (s : St) : St :=
  if s.pendingLo = 0 ∧ s.queueLo ≠ 0 then
    { s with pendingLo := s.queueLo, queueLo := (s.mem s.queueLo).next }
  else s

/-- The second half: start the next chunk of the pending request. -/
def startChunkLo (s : St) : St :=
  if s.pendingLo ≠ 0 then
    let req := s.pendingLo
    let r := s.mem req
    let s' :=
      if r.length ≤ s.chunkSize then
        { portARStartDMA s req (transfer r.type r.source r.dest r.length) with hasCallbackLo := true }
      else portARStartDMA s req (transfer r.type r.source r.dest s.chunkSize)
    s'.reqSet req (·.advance s.chunkSize)
  else s

def portARQServiceQueueLo (s : St) : St := startChunkLo (takeQueueLo s)

/-- The callback of a finished transfer. -/
def finishPending (s : St) : St :=
  if s.hasCallbackHi then
    { s with
      callbackCount := s.callbackCount + 1, calls := s.calls ++ [.callback s.pendingHi]
      pendingHi := 0, hasCallbackHi := false }
  else if s.hasCallbackLo then
    { s with
      callbackCount := s.callbackCount + 1, calls := s.calls ++ [.callback s.pendingLo]
      pendingLo := 0, hasCallbackLo := false }
  else s

/-- High-priority requests go first; the low queue is served when none is pending. -/
def serviceQueues (s : St) : St :=
  let s := portARQPopTaskQueueHi s
  if s.pendingHi = 0 then portARQServiceQueueLo s else s

def portARQInterruptServiceRoutine (s : St) : St := serviceQueues (finishPending s)

def enqueueLo (s : St) (req : Nat) : St :=
  let s := if s.queueLo ≠ 0 then s.reqSet s.tailLo ({ · with next := req }) else { s with queueLo := req }
  { s with tailLo := req }

def enqueueHi (s : St) (req : Nat) : St :=
  let s := if s.queueHi ≠ 0 then s.reqSet s.tailHi ({ · with next := req }) else { s with queueHi := req }
  { s with tailHi := req }

/-- The callback word is always set, whether or not there is a callback. -/
def portARQPostRequest (s : St) (req owner type priority source dest length : Nat) : St :=
  let s := s.reqSet req fun _ => ⟨0, owner, type, source, dest, length, 1⟩
  let s :=
    if priority = PORT_ARQ_PRIORITY_LOW then enqueueLo s req
    else if priority = PORT_ARQ_PRIORITY_HIGH then enqueueHi s req
    else s
  if s.pendingHi = 0 ∧ s.pendingLo = 0 then serviceQueues s else s

end SdkPort.ARQ
