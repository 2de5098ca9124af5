import SdkPort.AR.ArqRuns
import Mathlib.Logic.Function.Basic
import Mathlib.Data.List.Perm.Basic

/-!
# An abstract transfer engine

Numbered requests wait in one list for each priority, at most one of each priority is
current, and what is still to be transferred for it is a list of transfers. The engine
is busy with the current high-priority request, or else with the low-priority one.
-/
namespace SdkPort.ARQ

open Gc (u32)
open Trace (Always always_nil always_snoc)

inductive Prio where
  | high | low
  deriving DecidableEq, Repr

def Job.prio (j : Job) : Prio := if j.priority = PORT_ARQ_PRIORITY_HIGH then .high else .low

/-- The transfers of a low-priority request: chunks, and what is left. -/
def pieces (c type source dest length : Nat) : List DMARecord :=
  if _h : c = 0 ∨ length ≤ c then [transfer type source dest length]
  else transfer type source dest c ::
    pieces c type (u32 (source + c)) (u32 (dest + c)) (length - c)
  termination_by length

/-- The transfers a request needs. -/
def Job.transfers (c : Nat) (j : Job) : List DMARecord :=
  match j.prio with
  | .high => [transfer j.type j.source j.dest j.length]
  | .low => pieces c j.type j.source j.dest j.length

theorem pieces_ne_nil (c type source dest length : Nat) : pieces c type source dest length ≠ [] := by
  rw [pieces]
  split <;> simp

theorem Job.transfers_ne_nil (c : Nat) (j : Job) : j.transfers c ≠ [] := by
  unfold Job.transfers
  split
  · simp
  · exact pieces_ne_nil _ _ _ _ _

/-- A request and its number. -/
structure Ticket where
  id : Nat
  job : Job
  deriving DecidableEq, Repr

def tickets (log : List Event) : List Ticket := (posts log).mapIdx fun i j => ⟨i, j⟩

def ticketsOf (p : Prio) (log : List Event) : List Ticket := (tickets log).filter (·.job.prio = p)

section Log

variable (l l' : List Event) (i : Nat) (p : Prio)

@[simp] theorem posts_append : posts (l ++ l') = posts l ++ posts l' := List.filterMap_append
@[simp] theorem dmas_append : dmas (l ++ l') i = dmas l i ++ dmas l' i := List.filterMap_append
@[simp] theorem dones_append : dones (l ++ l') = dones l ++ dones l' := List.filterMap_append
@[simp] theorem starts_append : starts (l ++ l') = starts l ++ starts l' := List.filterMap_append
@[simp] theorem irqs_append : irqs (l ++ l') = irqs l + irqs l' := List.count_append

@[simp] theorem posts_post (j : Job) : posts [.post j] = [j] := rfl
@[simp] theorem posts_irq : posts [.irq] = [] := rfl
@[simp] theorem posts_dma (d : DMARecord) : posts [.dma i d] = [] := rfl
@[simp] theorem posts_done : posts [.done i] = [] := rfl
@[simp] theorem dmas_post (j : Job) : dmas [.post j] i = [] := rfl
@[simp] theorem dmas_irq : dmas [.irq] i = [] := rfl
@[simp] theorem dmas_dma (d : DMARecord) : dmas [.dma i d] i = [d] := by simp [dmas]
@[simp] theorem dmas_done (k : Nat) : dmas [.done k] i = [] := rfl
@[simp] theorem dones_post (j : Job) : dones [.post j] = [] := rfl
@[simp] theorem dones_irq : dones [.irq] = [] := rfl
@[simp] theorem dones_dma (d : DMARecord) : dones [.dma i d] = [] := rfl
@[simp] theorem dones_done : dones [.done i] = [i] := rfl
@[simp] theorem starts_post (j : Job) : starts [.post j] = [] := rfl
@[simp] theorem starts_irq : starts [.irq] = [] := rfl
@[simp] theorem starts_dma (d : DMARecord) : starts [.dma i d] = [i] := rfl
@[simp] theorem starts_done : starts [.done i] = [] := rfl
@[simp] theorem irqs_post (j : Job) : irqs [.post j] = 0 := rfl
@[simp] theorem irqs_irq : irqs [.irq] = 1 := rfl
@[simp] theorem irqs_dma (d : DMARecord) : irqs [.dma i d] = 0 := rfl
@[simp] theorem irqs_done : irqs [.done i] = 0 := rfl

theorem dmas_dma_ne {i k : Nat} (h : i ≠ k) (d : DMARecord) : dmas [.dma i d] k = [] := by
  simp [dmas, h]

variable {l l' i p}

theorem tickets_congr (h : posts l' = posts l) : tickets l' = tickets l := by
  rw [tickets, h, tickets]

theorem ticketsOf_congr (h : posts l' = posts l) : ticketsOf p l' = ticketsOf p l := by
  rw [ticketsOf, tickets_congr h, ticketsOf]

theorem tickets_post (j : Job) : tickets (l ++ [.post j]) = tickets l ++ [⟨(posts l).length, j⟩] := by
  simp [tickets]

theorem mem_ticketsOf {t : Ticket} : t ∈ ticketsOf p l ↔ t ∈ tickets l ∧ t.job.prio = p := by
  simp [ticketsOf]

theorem id_lt {t : Ticket} (h : t ∈ tickets l) : t.id < (posts l).length := by
  obtain ⟨i, hi, rfl⟩ := List.mem_mapIdx.mp h
  exact hi

/-- Numbers grow along a log. -/
theorem tickets_sorted (l : List Event) : (tickets l).Pairwise (·.id < ·.id) := by
  rw [List.pairwise_iff_getElem]
  intro a b ha hb hab
  simpa [tickets] using hab

theorem ticketsOf_sorted (p : Prio) (l : List Event) : (ticketsOf p l).Pairwise (·.id < ·.id) :=
  (tickets_sorted l).filter _

/-- A number stands for one request. -/
theorem ticket_ext {t t' : Ticket} (h : t ∈ tickets l) (h' : t' ∈ tickets l) (he : t.id = t'.id) :
    t = t' := by
  obtain ⟨i, hi, rfl⟩ := List.mem_mapIdx.mp h
  obtain ⟨k, hk, rfl⟩ := List.mem_mapIdx.mp h'
  have hik : i = k := he
  subst hik
  rfl

end Log

/-- What may happen after a history: interrupts answer transfers; a transfer starts
when none is outstanding, for a request all of whose predecessors have completed, and
a low-priority one only when all posted high-priority requests have; a callback comes
right after the interrupt that ended the last transfer of its request. -/
def Lawful (c : Nat) (l : List Event) : Event → Prop
  | .post _ => True
  | .irq => irqs l < (starts l).length
  | .dma i _ => (starts l).length = irqs l ∧ ∃ t ∈ tickets l, t.id = i ∧ t.id ∉ dones l ∧
    ∀ t' ∈ tickets l, t'.job.prio = t.job.prio ∧ t'.id < t.id ∨
      t.job.prio = .low ∧ t'.job.prio = .high → t'.id ∈ dones l
  | .done i => ∃ t ∈ tickets l, t.id = i ∧ t.id ∉ dones l ∧
    (∀ t' ∈ tickets l, t'.job.prio = t.job.prio → t'.id < t.id → t'.id ∈ dones l) ∧
    ∃ k, l = k ++ [.irq] ∧ (starts k).getLast? = some i ∧ dmas k i = t.job.transfers c

structure Engine where
  queue : Prio → List Ticket
  current : Prio → Option Ticket
  todo : Prio → List DMARecord
  served : Prio → List Ticket
  log : List Event

namespace Engine

open Function (update)

def empty : Engine := ⟨fun _ => [], fun _ => none, fun _ => [], fun _ => [], []⟩

def emit (e : Engine) (v : Event) : Engine := { e with log := e.log ++ [v] }

/-- The next request of a priority becomes current if there is none. -/
def take (c : Nat) (p : Prio) (e : Engine) : Engine :=
  match e.current p, e.queue p with
  | none, t :: l =>
    { e with
      queue := update e.queue p l, current := update e.current p (some t)
      todo := update e.todo p (t.job.transfers c) }
  | _, _ => e

/-- The next transfer of the current request is started. -/
def start (p : Prio) (e : Engine) : Engine :=
  match e.current p, e.todo p with
  | some t, d :: ds => { e with todo := update e.todo p ds, log := e.log ++ [.dma t.id d] }
  | _, _ => e

def complete (p : Prio) (e : Engine) : Engine :=
  match e.current p with
  | some t =>
    { e with
      current := update e.current p none, served := update e.served p (e.served p ++ [t])
      log := e.log ++ [.done t.id] }
  | none => e

/-- The priority of the request whose transfer is outstanding. -/
def inFlight (e : Engine) : Option Prio :=
  if (e.current .high).isSome then some .high
  else if (e.current .low).isSome then some .low
  else none

def finish (e : Engine) : Engine :=
  match e.inFlight with
  | some p => if e.todo p = [] then e.complete p else e
  | none => e

def serveHigh (c : Nat) (e : Engine) : Engine := (e.take c .high).start .high
def serveLow (c : Nat) (e : Engine) : Engine := (e.take c .low).start .low

def serve (c : Nat) (e : Engine) : Engine :=
  if (e.serveHigh c).current .high = none then (e.serveHigh c).serveLow c else e.serveHigh c

def interrupt (c : Nat) (e : Engine) : Engine := ((e.emit .irq).finish).serve c

def push (e : Engine) (t : Ticket) : Engine :=
  { e with queue := update e.queue t.job.prio (e.queue t.job.prio ++ [t]) }

def post (c : Nat) (e : Engine) (j : Job) : Engine :=
  let e' := (e.emit (.post j)).push ⟨(posts e.log).length, j⟩
  if e'.inFlight = none then e'.serve c else e'

/-- The bookkeeping that holds at every moment. -/
structure Core (c : Nat) (e : Engine) : Prop where
  order : ∀ p, ticketsOf p e.log = e.served p ++ (e.current p).toList ++ e.queue p
  rest : ∀ p, e.current p = none → e.todo p = []
  served : ∀ p, ∀ t ∈ e.served p, dmas e.log t.id = t.job.transfers c
  current : ∀ p t, e.current p = some t → dmas e.log t.id ++ e.todo p = t.job.transfers c
  queued : ∀ p, ∀ t ∈ e.queue p, dmas e.log t.id = []
  unposted : ∀ i, (posts e.log).length ≤ i → dmas e.log i = []
  completed : (dones e.log).Perm ((e.served .high ++ e.served .low).map (·.id))
  law : Always (Lawful c) e.log

/-- Between steps: one transfer is outstanding, or everything has completed. -/
structure Steady (c : Nat) (e : Engine) : Prop where
  core : Core c e
  idle : e.inFlight = none → ∀ p, e.queue p = []
  whole : e.todo .high = []
  paused : e.current .high ≠ none → e.current .low ≠ none → e.todo .low ≠ []
  count : (starts e.log).length = irqs e.log + if e.inFlight = none then 0 else 1
  last : ∀ p t, e.inFlight = some p → e.current p = some t → (starts e.log).getLast? = some t.id

/-- Before the queues are served: no transfer is outstanding. -/
structure Ready (c : Nat) (e : Engine) : Prop where
  core : Core c e
  high : e.current .high = none
  low : e.current .low ≠ none → e.todo .low ≠ []
  count : (starts e.log).length = irqs e.log

end Engine

end SdkPort.ARQ
