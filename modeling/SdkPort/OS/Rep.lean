import SdkPort.OS.Sched
import SdkPort.Lib.Linked
import SdkPort.Lib.Runs

/-!
# The memory represents the lists

A scheduler in memory represents one over lists when all words other than links
agree, the link words chain each queue's members in the order of its list, and
those of the mutexes do the same for every thread's owned mutexes.
-/
namespace SdkPort.OSThread

open Linked (Family)
open Runs (Gives run_bind_ok gives_bind gives_pure)

/-- Which link words chain the members of a queue. -/
def QueueAddr.field : QueueAddr → LinkField
  | .active => .active
  | _ => .link

/-- The first thread by the links of one kind. Queues of the other kind count as empty. -/
def headOf (s : St) (off : LinkField) (q : QueueAddr) : Addr :=
  if q.field = off then (s.queue q).head else 0

def tailOf (s : St) (off : LinkField) (q : QueueAddr) : Addr :=
  if q.field = off then (s.queue q).tail else 0

def listOf (a : Sched) (off : LinkField) (q : QueueAddr) : List Addr :=
  if q.field = off then a.queue q else []

/-- The words agree, and the links chain the members of each list in its order. -/
structure Rep (s : St) (a : Sched) : Prop where
  tcb : ∀ t, (s.thr t).toTcb = a.tcb t
  mtx : ∀ m, (s.mtx m).toMutexCore = a.mtx m
  msgq : s.msgq = a.msgq
  current : s.currentThread = a.currentThread
  bits : s.runQueueBits = a.runQueueBits
  hint : s.runQueueHint = a.runQueueHint
  reschedule : s.reschedule = a.reschedule
  queues : ∀ off, Family 0 (fun t => (s.thr t).next off) (fun t => (s.thr t).prev off)
    (headOf s off) (tailOf s off) (listOf a off)
  owned : Family 0 (fun m => (s.mtx m).linkNext) (fun m => (s.mtx m).linkPrev)
    (fun t => (s.thr t).mutexHead) (fun t => (s.thr t).mutexTail) a.owned

section Links

variable (off : LinkField) (v : Addr) (th : Thread)

@[simp] theorem next_setNext : (th.setNext off v).next off = v := by cases off <;> rfl
@[simp] theorem prev_setNext : (th.setNext off v).prev off = th.prev off := by cases off <;> rfl
@[simp] theorem next_setPrev : (th.setPrev off v).next off = th.next off := by cases off <;> rfl
@[simp] theorem prev_setPrev : (th.setPrev off v).prev off = v := by cases off <;> rfl
@[simp] theorem toTcb_setNext : (th.setNext off v).toTcb = th.toTcb := by cases off <;> rfl
@[simp] theorem toTcb_setPrev : (th.setPrev off v).toTcb = th.toTcb := by cases off <;> rfl
@[simp] theorem mutexHead_setNext : (th.setNext off v).mutexHead = th.mutexHead := by
  cases off <;> rfl
@[simp] theorem mutexHead_setPrev : (th.setPrev off v).mutexHead = th.mutexHead := by
  cases off <;> rfl
@[simp] theorem mutexTail_setNext : (th.setNext off v).mutexTail = th.mutexTail := by
  cases off <;> rfl
@[simp] theorem mutexTail_setPrev : (th.setPrev off v).mutexTail = th.mutexTail := by
  cases off <;> rfl

/-- Links of two kinds are words of their own. -/
theorem next_setNext_ne {off' : LinkField} (h : off' ≠ off) :
    (th.setNext off v).next off' = th.next off' := by
  cases off <;> cases off' <;> simp_all [Thread.next, Thread.setNext]

theorem next_setPrev_ne {off' : LinkField} :
    (th.setPrev off v).next off' = th.next off' := by
  cases off <;> cases off' <;> rfl

theorem prev_setNext_ne {off' : LinkField} :
    (th.setNext off v).prev off' = th.prev off' := by
  cases off <;> cases off' <;> rfl

theorem prev_setPrev_ne {off' : LinkField} (h : off' ≠ off) :
    (th.setPrev off v).prev off' = th.prev off' := by
  cases off <;> cases off' <;> simp_all [Thread.prev, Thread.setPrev]

end Links

/-- Only the links of one kind differ, with the heads of the queues they chain. -/
structure LinkOnly (off : LinkField) (s s' : St) : Prop where
  tcb : ∀ t, (s'.thr t).toTcb = (s.thr t).toTcb
  mutexHead : ∀ t, (s'.thr t).mutexHead = (s.thr t).mutexHead
  mutexTail : ∀ t, (s'.thr t).mutexTail = (s.thr t).mutexTail
  next : ∀ o, o ≠ off → ∀ t, (s'.thr t).next o = (s.thr t).next o
  prev : ∀ o, o ≠ off → ∀ t, (s'.thr t).prev o = (s.thr t).prev o
  queue : ∀ q : QueueAddr, q.field ≠ off → s'.queue q = s.queue q
  rest : s' = { s with thr := s'.thr, queue := s'.queue }

/-- Writes of the links of one kind, one after the other. -/
theorem LinkOnly.trans {off : LinkField} {s s' s'' : St} (h : LinkOnly off s s')
    (h' : LinkOnly off s' s'') : LinkOnly off s s'' := by
  refine ⟨?_, ?_, ?_, ?_, ?_, ?_, ?_⟩
  · exact fun t => (h'.tcb t).trans (h.tcb t)
  · exact fun t => (h'.mutexHead t).trans (h.mutexHead t)
  · exact fun t => (h'.mutexTail t).trans (h.mutexTail t)
  · exact fun o ho t => (h'.next o ho t).trans (h.next o ho t)
  · exact fun o ho t => (h'.prev o ho t).trans (h.prev o ho t)
  · exact fun q hq => (h'.queue q hq).trans (h.queue q hq)
  · rw [h'.rest, h.rest]

/-- Write one link of a thread. -/
def St.setLink (s : St) (t : Addr) (g : Thread → Thread) : St :=
  { s with thr := Function.update s.thr t (g (s.thr t)) }

/-- Write the head or the tail of a queue. -/
def St.setHead (s : St) (q : QueueAddr) (g : Queue → Queue) : St :=
  { s with queue := Function.update s.queue q (g (s.queue q)) }

@[simp] theorem St.setLink_thr (s : St) (t : Addr) (g : Thread → Thread) (u : Addr) :
    (s.setLink t g).thr u = if u = t then g (s.thr u) else s.thr u := by
  by_cases he : u = t
  · subst he
    simp [St.setLink]
  · simp [St.setLink, he]

@[simp] theorem St.setLink_queue (s : St) (t : Addr) (g : Thread → Thread) :
    (s.setLink t g).queue = s.queue := rfl

@[simp] theorem St.setHead_thr (s : St) (q : QueueAddr) (g : Queue → Queue) :
    (s.setHead q g).thr = s.thr := rfl

@[simp] theorem St.setHead_queue (s : St) (q : QueueAddr) (g : Queue → Queue) (r : QueueAddr) :
    (s.setHead q g).queue r = if r = q then g (s.queue r) else s.queue r := by
  by_cases he : r = q
  · subst he
    simp [St.setHead]
  · simp [St.setHead, he]

/-- One link of one thread. -/
theorem LinkOnly.setNext (off : LinkField) (s : St) (t v : Addr) :
    LinkOnly off s (s.setLink t (·.setNext off v)) := by
  constructor
  case rest => rfl
  case queue => exact fun _ _ => rfl
  all_goals
    intros
    simp only [St.setLink_thr]
    split
    · simp_all [next_setNext_ne, prev_setNext_ne]
    · rfl

theorem LinkOnly.setPrev (off : LinkField) (s : St) (t v : Addr) :
    LinkOnly off s (s.setLink t (·.setPrev off v)) := by
  constructor
  case rest => rfl
  case queue => exact fun _ _ => rfl
  all_goals
    intros
    simp only [St.setLink_thr]
    split
    · simp_all [next_setPrev_ne, prev_setPrev_ne]
    · rfl

theorem LinkOnly.setHead (s : St) (q : QueueAddr) (g : Queue → Queue) :
    LinkOnly q.field s (s.setHead q g) := by
  refine ⟨fun _ => rfl, fun _ => rfl, fun _ => rfl, fun _ _ _ => rfl, fun _ _ _ => rfl, ?_, rfl⟩
  intro r hr
  have hne : r ≠ q := by
    intro he
    exact hr (congrArg _ he)
  simp [St.setHead, hne]

/-- Words are read and written where there is a thread or a queue. -/
theorem thrSet_ok {t : Addr} (ht : t ≠ 0) (g : Thread → Thread) (s : St) :
    thrSet t g s = .ok ((), s.setLink t g) := by simp [thrSet, ht, St.setLink]

theorem qSet_ok {q : QueueAddr} (hq : q ≠ .null) (g : Queue → Queue) (s : St) :
    qSet q g s = .ok ((), s.setHead q g) := by simp [qSet, hq, St.setHead]

theorem thrGet_ok {t : Addr} (ht : t ≠ 0) (f : Thread → α) (s : St) :
    thrGet t f s = .ok (f (s.thr t), s) := by simp [thrGet, ht]

theorem qGet_ok {q : QueueAddr} (hq : q ≠ .null) (f : Queue → α) (s : St) :
    qGet q f s = .ok (f (s.queue q), s) := by simp [qGet, hq]

theorem tcbGet_ok {t : Addr} (ht : t ≠ 0) (f : Tcb → α) (s : St) :
    tcbGet t f s = .ok (f (s.thr t).toTcb, s) := thrGet_ok ht _ s

theorem tcbSet_ok {t : Addr} (ht : t ≠ 0) (g : Tcb → Tcb) (s : St) :
    tcbSet t g s = .ok ((), s.setLink t fun th => { th with toTcb := g th.toTcb }) := thrSet_ok ht _ s

/-- A change of one queue's links makes the represented list change. -/
theorem Rep.relink {s s' : St} {a : Sched} {off : LinkField} {q : QueueAddr} {l : List Addr}
    (h : Rep s a) (hl : LinkOnly off s s') (hq : q.field = off)
    (hf : Family 0 (fun t => (s'.thr t).next off) (fun t => (s'.thr t).prev off) (headOf s' off)
      (tailOf s' off) (Function.update (listOf a off) q l)) : Rep s' (a.setQueue q l) := by
  have hlist : ∀ o, listOf (a.setQueue q l) o =
      if o = off then Function.update (listOf a off) q l else listOf a o := by
    intro o
    funext r
    by_cases ho : o = off
    · subst ho
      by_cases hr : r = q
      · subst hr
        simp [listOf, hq]
      · simp [listOf, hr]
    · by_cases hr : r = q
      · subst hr
        have : ¬ r.field = o := by
          rw [hq]
          exact fun he => ho he.symm
        simp [listOf, ho, this]
      · simp [listOf, ho, hr]
  have hrest := hl.rest
  refine ⟨?_, ?_, ?_, ?_, ?_, ?_, ?_, ?_, ?_⟩
  · exact fun t => (hl.tcb t).trans (h.tcb t)
  · rw [hrest]
    exact h.mtx
  · rw [hrest]
    exact h.msgq
  · rw [hrest]
    exact h.current
  · rw [hrest]
    exact h.bits
  · rw [hrest]
    exact h.hint
  · rw [hrest]
    exact h.reschedule
  · intro o
    rw [hlist o]
    by_cases ho : o = off
    · subst ho
      simpa using hf
    · have hhead : headOf s' o = headOf s o := by
        funext r
        simp only [headOf]
        split
        · rename_i hr
          rw [hl.queue r (by rw [hr]; exact ho)]
        · rfl
      have htail : tailOf s' o = tailOf s o := by
        funext r
        simp only [tailOf]
        split
        · rename_i hr
          rw [hl.queue r (by rw [hr]; exact ho)]
        · rfl
      have hn : (fun t => (s'.thr t).next o) = fun t => (s.thr t).next o :=
        funext fun t => hl.next o ho t
      have hp : (fun t => (s'.thr t).prev o) = fun t => (s.thr t).prev o :=
        funext fun t => hl.prev o ho t
      rw [hhead, htail, hn, hp, if_neg ho]
      exact h.queues o
  · have hh : (fun t => (s'.thr t).mutexHead) = fun t => (s.thr t).mutexHead := funext hl.mutexHead
    have ht : (fun t => (s'.thr t).mutexTail) = fun t => (s.thr t).mutexTail := funext hl.mutexTail
    have hm : s'.mtx = s.mtx := by rw [hrest]
    rw [hh, ht, hm]
    exact h.owned

end SdkPort.OSThread
