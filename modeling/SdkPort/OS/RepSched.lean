import SdkPort.OS.RepMutex
import SdkPort.OS.SchedSound
import Mathlib.Data.List.Perm.Subperm

/-!
# Scheduling in memory

The functions that move threads between queues compute their counterparts over
lists, as long as the threads are in place. Reads and writes of single words
come first.
-/
namespace SdkPort.OSThread

open Linked (firstOf)
open Runs (Gives Lockstep gives_bind gives_pure lockstep_of_gives lockstep_bind)
open Sched (Core Shape)

variable {X D H : Set Addr} {s : St} {a : Sched} {t m : Addr} {q : QueueAddr} {n : Nat}

/-- The words of a thread are read as they are. -/
theorem Rep.tcbGet (h : Rep s a) (ht : t ≠ 0) (f : Tcb → α) :
    Gives Rep (tcbGet t f s) (f (a.tcb t)) a := by
  refine ⟨s, ?_, h⟩
  rw [tcbGet_ok ht, h.tcb]

/-- A write to them leaves every link. -/
theorem Rep.tcbSet (h : Rep s a) (ht : t ≠ 0) (g : Tcb → Tcb) :
    Gives Rep (tcbSet t g s) () (a.modT t g) := by
  refine ⟨_, thrSet_ok ht _ s, ?_⟩
  have hthr : ∀ u, (s.setLink t fun th => { th with toTcb := g th.toTcb }).thr u =
      { s.thr u with toTcb := (a.modT t g).tcb u } := by
    intro u
    by_cases he : u = t
    · subst he
      simp [h.tcb]
    · simp [he, ← h.tcb]
  refine ⟨?_, h.mtx, h.msgq, h.current, h.bits, h.hint, h.reschedule, ?_, ?_⟩
  · intro u
    rw [hthr]
  · intro o
    simp only [hthr]
    cases o with
    | link => exact h.queues .link
    | active => exact h.queues .active
  · simp only [hthr]
    exact h.owned

theorem Rep.coreGet (h : Rep s a) (hm : m ≠ 0) (f : MutexCore → α) :
    Gives Rep (coreGet m f s) (f (a.mtx m)) a := by
  refine ⟨s, ?_, h⟩
  rw [OSThread.coreGet, mtxGet_ok hm, h.mtx]

theorem Rep.coreSet (h : Rep s a) (hm : m ≠ 0) (g : MutexCore → MutexCore) :
    Gives Rep (coreSet m g s) () (a.modM m g) := by
  refine ⟨_, mtxSet_ok hm _ s, ?_⟩
  have hmtx : ∀ k, (s.setMutexLink m fun mt => { mt with toMutexCore := g mt.toMutexCore }).mtx k =
      { s.mtx k with toMutexCore := (a.modM m g).mtx k } := by
    intro k
    by_cases he : k = m
    · subst he
      simp [h.mtx]
    · simp [he, ← h.mtx]
  refine ⟨h.tcb, ?_, h.msgq, h.current, h.bits, h.hint, h.reschedule, h.queues, ?_⟩
  · intro k
    rw [hmtx]
  · simp only [hmtx]
    exact h.owned

theorem Rep.mqGet (h : Rep s a) (k : Nat) (f : MsgQueue → α) :
    Gives Rep (mqGet k f s) (f (a.msgq k)) a := by
  refine ⟨s, ?_, h⟩
  simp [OSThread.mqGet, h.msgq]

theorem Rep.mqSet (h : Rep s a) (k : Nat) (g : MsgQueue → MsgQueue) :
    Gives Rep (mqSet k g s) () (a.modQ k g) := by
  refine ⟨_, rfl, ?_⟩
  exact ⟨h.tcb, h.mtx, by simp [h.msgq], h.current, h.bits, h.hint, h.reschedule, h.queues, h.owned⟩

/-- The head as the functions test it: 0 for an empty list. -/
theorem Rep.qHead (h : Rep s a) (hq : q ≠ .null) :
    Gives Rep (qGet q (·.head) s) (firstOf 0 (a.queue q)) a := by
  refine ⟨s, ?_, h⟩
  rw [qGet_ok hq, h.head]

theorem Rep.getBits (h : Rep s a) : Gives Rep (stGet (·.runQueueBits) s) a.runQueueBits a :=
  ⟨s, by simp [stGet, h.bits], h⟩

theorem Rep.getHint (h : Rep s a) : Gives Rep (stGet (·.runQueueHint) s) a.runQueueHint a :=
  ⟨s, by simp [stGet, h.hint], h⟩

theorem Rep.getCurrent (h : Rep s a) : Gives Rep (stGet (·.currentThread) s) a.currentThread a :=
  ⟨s, by simp [stGet, h.current], h⟩

theorem Rep.getReschedule (h : Rep s a) : Gives Rep (stGet (·.reschedule) s) a.reschedule a :=
  ⟨s, by simp [stGet, h.reschedule], h⟩

theorem Rep.setBits (h : Rep s a) (f : BitVec 32 → BitVec 32) :
    Gives Rep (stSet (fun s => { s with runQueueBits := f s.runQueueBits }) s) ()
      (a.setBits (f a.runQueueBits)) :=
  ⟨_, rfl, h.tcb, h.mtx, h.msgq, h.current, congrArg f h.bits, h.hint, h.reschedule, h.queues, h.owned⟩

theorem Rep.setHint (h : Rep s a) (v : Bool) :
    Gives Rep (stSet ({ · with runQueueHint := v }) s) () (a.setHint v) :=
  ⟨_, rfl, h.tcb, h.mtx, h.msgq, h.current, h.bits, rfl, h.reschedule, h.queues, h.owned⟩

theorem Rep.setCurrent (h : Rep s a) (v : Addr) :
    Gives Rep (stSet ({ · with currentThread := v }) s) () { a with currentThread := v } :=
  ⟨_, rfl, h.tcb, h.mtx, h.msgq, rfl, h.bits, h.hint, h.reschedule, h.queues, h.owned⟩

theorem Rep.setReschedule (h : Rep s a) (v : Int) :
    Gives Rep (stSet ({ · with reschedule := v }) s) () { a with reschedule := v } :=
  ⟨_, rfl, h.tcb, h.mtx, h.msgq, h.current, h.bits, h.hint, rfl, h.queues, h.owned⟩

/-- A thread that is in no queue is in no list of links. -/
theorem Sched.Core.fresh (h : Core X a) (ht : t ∈ X) : ∀ r, t ∉ listOf a .link r := by
  intro r hr
  by_cases hq : r.field = .link
  · have hne : r ≠ .active := by
      intro he
      subst he
      cases hq
    simp only [listOf, if_pos hq] at hr
    exact h.not_mem ht hne hr
  · simp [listOf, hq] at hr

theorem QueueAddr.isWait.field {q : QueueAddr} (h : q.isWait) : q.field = .link := by
  cases q <;> first | rfl | exact h.elim

theorem Sched.Core.mem_slot (h : Core X a) {q : QueueAddr} (ht : t ∈ a.queue q) : Slot t := by
  by_cases hq : q = .active
  · subst hq
    exact h.slot t ((h.active t).mp ht)
  · apply h.slot t
    have hh := ((h.mem q hq t).mp ht).2
    rcases Tcb.home_cases hh with ⟨hs, _⟩ | ⟨hs, _⟩ <;> simp [hs]

/-- A list without repetition of addresses up to `k` has at most `k` members. -/
theorem length_le_of_bound {l : List Addr} (hd : l.Nodup) {k : Nat} (hb : ∀ x ∈ l, x ≠ 0 ∧ x ≤ k) :
    l.length ≤ k := by
  have hsub : l ⊆ List.range' 1 k := by
    intro x hx
    obtain ⟨h0, hk⟩ := hb x hx
    rw [List.mem_range'_1]
    exact ⟨Nat.pos_of_ne_zero h0, by rw [Nat.add_comm]; exact Nat.lt_succ_of_le hk⟩
  simpa using (hd.subperm hsub).length_le

/-- No queue is longer than there are threads. -/
theorem Sched.Core.length_le (h : Core X a) (q : QueueAddr) :
    (a.queue q).length ≤ PORT_MAX_THREADS :=
  length_le_of_bound (h.nodup q) fun _ hx => h.mem_slot hx

theorem Sched.Shape.length_owned (h : Shape X D H a) (t : Addr) :
    (a.owned t).length ≤ PORT_MAX_MUTEXES := by
  apply length_le_of_bound (h.nodup t)
  intro m hm
  obtain ⟨h0, he⟩ := (h.owned t m).mp hm
  exact h.addr m (by rwa [he])

/-- A thread without a queue goes to the end of the run queue of its priority. -/
theorem Rep.portSetRun (h : Rep s a) (ht : t ≠ 0) (hf : ∀ r, t ∉ listOf a .link r) :
    Gives Rep (portSetRun t s) () (a.setRun t) := by
  unfold OSThread.portSetRun
  refine gives_bind (h.tcbGet ht _) fun s₁ h₁ => ?_
  refine gives_bind (h₁.tcbSet ht _) fun s₂ h₂ => ?_
  refine gives_bind (h₂.portAddTail (q := .runQueue _) (by simp) ht hf) fun s₃ h₃ => ?_
  refine gives_bind (h₃.setBits (· ||| prioBit _)) fun s₄ h₄ => ?_
  exact h₄.setHint true

theorem Rep.ne_zero (h : Rep s a) (hm : t ∈ a.queue q) : t ≠ 0 := by
  apply (h.queues q.field).ne_nil (i := q)
  simpa [listOf] using hm

/-- The bit of an emptied run queue is cleared. -/
theorem Rep.clearBit (h : Rep s a) (hq : q ≠ .null) (p : Nat)
    {k : Unit → M α} {v : α} {b : Sched}
    (hk : ∀ s', Rep s' (a.clearBit q p) → Gives Rep (k () s') v b) :
    Gives Rep ((do
      if (← qGet q (·.head)) = 0 then
        stSet fun s => { s with runQueueBits := s.runQueueBits &&& ~~~prioBit p }
      k ()) s) v b := by
  refine gives_bind (h.qHead hq) fun s₁ h₁ => ?_
  cases hl : a.queue q with
  | nil =>
    refine gives_bind (h₁.setBits (· &&& ~~~prioBit p)) fun s₂ h₂ => ?_
    apply hk
    simpa [Sched.clearBit, hl] using h₂
  | cons x l =>
    have hx : x ≠ 0 := h.ne_zero (q := q) (by simp [hl])
    split
    · exact absurd ‹_› hx
    · apply hk
      simpa [Sched.clearBit, hl, Sched.setBits] using h₁

/-- A thread leaves its run queue, and the bit goes with the last one. -/
theorem Rep.portUnsetRun (h : Rep s a) (hq : (a.tcb t).queue = .runQueue (a.prio t))
    (hm : t ∈ a.queue (.runQueue (a.prio t))) : Gives Rep (portUnsetRun t s) () (a.unsetRun t) := by
  have ht : t ≠ 0 := h.ne_zero hm
  unfold OSThread.portUnsetRun Sched.unsetRun
  refine gives_bind (h.tcbGet ht _) fun s₁ h₁ => ?_
  refine gives_bind (h₁.tcbGet ht _) fun s₂ h₂ => ?_
  rw [hq]
  refine gives_bind (h₂.portRemoveItem (q := .runQueue _) (by simp) hm) fun s₃ h₃ => ?_
  exact h₃.clearBit (q := .runQueue (a.prio t)) (k := fun _ => OSThread.tcbSet t _) (by simp) _
    fun s₄ h₄ => h₄.tcbSet ht _

end SdkPort.OSThread
