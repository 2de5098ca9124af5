import SdkPort.AR.Arq

/-!
# Runs of the request queue

Requests are posted and interrupts arrive in any order, one interrupt for each
transfer that ends. A request is known by its number among all posts, since its
structure may be posted again once it has completed.
-/
namespace SdkPort.ARQ

open Fifo (Reach not_reach_nil)

/-- What a request asks for. -/
structure Job where
  owner : Nat
  type : Nat
  priority : Nat
  source : Nat
  dest : Nat
  length : Nat
  deriving DecidableEq, Repr

namespace Job

/-- Arguments are 32-bit words, and the priority is one of the two. -/
structure Valid (j : Job) : Prop where
  type : j.type < 2 ^ 32
  source : j.source < 2 ^ 32
  dest : j.dest < 2 ^ 32
  length : j.length < 2 ^ 32
  priority : j.priority = PORT_ARQ_PRIORITY_LOW ∨ j.priority = PORT_ARQ_PRIORITY_HIGH

/-- Neither range runs past the end of the address space. -/
def Fits (j : Job) : Prop := j.source + j.length ≤ 2 ^ 32 ∧ j.dest + j.length ≤ 2 ^ 32

instance (j : Job) : Decidable j.Fits := inferInstanceAs (Decidable (_ ∧ _))

end Job

/-- What happens in a run: posts, interrupts, transfers started and callbacks, the
latter two with the number of their request. -/
inductive Event where
  | post (j : Job)
  | irq
  | dma (id : Nat) (d : DMARecord)
  | done (id : Nat)
  deriving DecidableEq, Repr

def Call.event (ids : Nat → Nat) : Call → Event
  | .startDMA r d => .dma (ids r) d
  | .callback r => .done (ids r)

/-- The requests of a log, in posting order. -/
def posts (log : List Event) : List Job :=
  log.filterMap fun
    | .post j => some j
    | _ => none

/-- The transfers started for a request. -/
def dmas (log : List Event) (id : Nat) : List DMARecord :=
  log.filterMap fun
    | .dma i d => if i = id then some d else none
    | _ => none

/-- The numbers of the requests that have completed, in order. -/
def dones (log : List Event) : List Nat :=
  log.filterMap fun
    | .done i => some i
    | _ => none

/-- The numbers of the requests for which transfers were started, in order. -/
def starts (log : List Event) : List Nat :=
  log.filterMap fun
    | .dma i _ => some i
    | _ => none

def irqs (log : List Event) : Nat := log.count .irq

/-- The state with the log so far; `ids` is the number of the latest post of a structure. -/
structure Run where
  st : St
  ids : Nat → Nat
  log : List Event

/-- The structure is queued or pending. -/
def St.Busy (s : St) (r : Nat) : Prop :=
  r = s.pendingHi ∨ r = s.pendingLo ∨ Reach 0 (fun x => (s.mem x).next) s.queueHi r ∨
    Reach 0 (fun x => (s.mem x).next) s.queueLo r

namespace Run

/-- The state after initialisation, with a chunk size of choice. -/
def boot (s : St) (chunkSize : Nat) : Run :=
  ⟨{ portARQInit s with chunkSize := chunkSize }, fun _ => 0, []⟩

def post (ρ : Run) (r : Nat) (j : Job) : Run :=
  let ids := Function.update ρ.ids r (posts ρ.log).length
  let s := portARQPostRequest { ρ.st with calls := [] } r j.owner j.type j.priority j.source j.dest
    j.length
  ⟨s, ids, ρ.log ++ .post j :: s.calls.map (Call.event ids)⟩

def interrupt (ρ : Run) : Run :=
  let s := portARQInterruptServiceRoutine { ρ.st with calls := [] }
  ⟨s, ρ.ids, ρ.log ++ .irq :: s.calls.map (Call.event ρ.ids)⟩

/-- A transfer has been started and not ended. -/
def Outstanding (ρ : Run) : Prop := irqs ρ.log < (starts ρ.log).length

end Run

/-- Posts use structures that are neither queued nor pending. -/
structure Postable (P : Job → Prop) (ρ : Run) (r : Nat) (j : Job) : Prop where
  addr : r ≠ 0
  free : ¬ ρ.st.Busy r
  valid : j.Valid
  job : P j

/-- The runs with a given chunk size all of whose requests satisfy `P`. -/
inductive Reached (P : Job → Prop) (c : Nat) : Run → Prop
  | boot (s : St) : 1 ≤ c → c < 2 ^ 32 → Reached P c (Run.boot s c)
  | post {ρ : Run} {r : Nat} {j : Job} : Reached P c ρ → Postable P ρ r j → Reached P c (ρ.post r j)
  | interrupt {ρ : Run} : Reached P c ρ → ρ.Outstanding → Reached P c ρ.interrupt

/-- Nothing is queued in an empty queue. -/
theorem not_busy_of_empty {s : St} {r : Nat} (hh : r ≠ s.pendingHi) (hl : r ≠ s.pendingLo)
    (h₁ : s.queueHi = 0) (h₂ : s.queueLo = 0) : ¬ s.Busy r := by
  rw [St.Busy, h₁, h₂]
  simp [hh, hl, not_reach_nil]

end SdkPort.ARQ
