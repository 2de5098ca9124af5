import SdkPort.OS.SchedFrame
import SdkPort.OS.View

/-!
# Queues, priorities and owners in every state of a run

What the invariant says of the memory itself: where threads are linked, what their
priorities are, and who owns which mutex.
-/
namespace SdkPort.OSThread

open PrioList (SortedBy)
open Sched (Core Shape Sound Fit Fine)

variable {W : Prop} {s s' : St} {a b : Sched} {t u m : Addr} {q : QueueAddr} {n : Nat} {o : Op}
  {P : St → Op → Prop} {ph : Phase}

/-- Every thread is linked where its words say, and the bitmap knows which run
queues have members. -/
structure Structured (s : St) : Prop where
  bitmap : ∀ p, p ≤ 31 → (runBit s.runQueueBits p = true ↔ s.members (.runQueue p) ≠ [])
  linked : ∀ q, s.linked q
  ready : ∀ t, (s.thr t).state = .ready → (s.thr t).suspend = 0 →
    (s.thr t).queue = .runQueue (s.prio t) ∧
      ∀ q, q ≠ .active → (t ∈ s.members q ↔ q = .runQueue (s.prio t))
  waiting : ∀ t, (s.thr t).state = .waiting →
    ∀ q, q ≠ .active → (t ∈ s.members q ↔ q = (s.thr t).queue)
  apart : ∀ t, ((s.thr t).state = .running ∨ (s.thr t).state = .moribund ∨
      (s.thr t).state = .ready ∧ 0 < (s.thr t).suspend) → ∀ q, q ≠ .active → t ∉ s.members q
  suspend : ∀ t, 0 ≤ (s.thr t).suspend

/-- Membership in a queue, in terms of the thread's words. -/
theorem Rep.mem_members (h : Rep s a) (hs : Sound a) (hq : q ≠ .active) :
    t ∈ s.members q ↔ (s.thr t).home = some q := by
  rw [h.members hs, hs.core.mem q hq, h.tcb]
  simp

theorem Rep.structured (h : Rep s a) (hs : Sound a) : Structured s := by
  have hpl : ∀ t, (s.thr t).toTcb.Placed := fun t => h.tcb t ▸ hs.core.placed t (Set.notMem_empty t)
  refine ⟨?_, fun q => h.linked hs q, ?_, ?_, ?_, ?_⟩
  · intro p hp
    rw [h.bits, h.members hs]
    exact hs.core.bits p hp
  · intro t hst h0
    refine ⟨(hpl t).ready hst h0, fun q hq => ?_⟩
    rw [h.mem_members hs hq, Tcb.home_ready hst h0]
    simp [St.prio, eq_comm]
  · intro t hst q hq
    rw [h.mem_members hs hq, Tcb.home_waiting hst]
    simp [eq_comm]
  · intro t hst q hq hm
    rw [h.mem_members hs hq] at hm
    rcases Tcb.home_cases hm with ⟨hr, h0, _⟩ | ⟨hw, _⟩
    · rcases hst with hx | hx | ⟨_, hx⟩
      · rw [hr] at hx
        cases hx
      · rw [hr] at hx
        cases hx
      · exact h0 hx
    · rcases hst with hx | hx | ⟨hx, _⟩ <;>
        · rw [hw] at hx
          cases hx
  · intro t
    rw [h.tcb]
    exact (hs.core.bounded t).suspend

/-- The structural invariant of the scheduler. It needs no restriction on the calls:
condition waits and circular waits for mutexes keep it too. -/
theorem reached_structured (h : Reached P ph s) : Structured s := by
  obtain ⟨a, ha⟩ := h.represents (W := False) nofun
  exact ha.rep.structured ha.fine.shape

/-- Two threads of priorities 10 and 5 wait for a mutex of the default thread. -/
def contention : List Op :=
  [.create 1 10 0, .create 2 5 0, .initMutex 1, .lock 1, .resume 2, .lock 1, .resume 3, .lock 1]

/-- The default thread runs with the better priority of the two. -/
theorem contention_runs : ∃ s, bootTrial NoCondWait 40 contention = some s ∧ s.members (.mutex 1) = [3, 2] ∧
    (s.mtx 1).thread = 1 ∧ (s.thr 2).mutex = 1 ∧ (s.thr 3).mutex = 1 ∧ (s.thr 1).base = 16 ∧ s.prio 1 = 5 := by
  have hrun : (bootTrial NoCondWait 40 contention).any (fun s => s.members (.mutex 1) = [3, 2] ∧
      (s.mtx 1).thread = 1 ∧ (s.thr 2).mutex = 1 ∧ (s.thr 3).mutex = 1 ∧ (s.thr 1).base = 16 ∧ s.prio 1 = 5) = true := by
    decide +kernel
  obtain ⟨s, hs, hp⟩ := bootTrial_any hrun
  exact ⟨s, hs, of_decide_eq_true hp⟩

theorem contention_structured : ∃ s, bootTrial NoCondWait 40 contention = some s ∧ Structured s := by
  obtain ⟨s, hs, -⟩ := contention_runs
  exact ⟨s, hs, reached_structured (reached_bootTrial hs)⟩

/-- The priorities a thread's priority must not be worse than: its base and those of
the threads queued on the mutexes it owns. -/
def St.demands (s : St) (t : Addr) : Set Nat :=
  {x | x = (s.thr t).base ∨ ∃ m w, (s.mtx m).thread = t ∧ w ∈ s.members (.mutex m) ∧ x = s.prio w}

/-- Priorities are the best demand on each thread, wait queues are in order, and the
function that looks at the heads of the queues finds that priority. -/
structure Inherited (s : St) : Prop where
  least : ∀ t, s.live t → (s.thr t).suspend = 0 → IsLeast (s.demands t) (s.prio t)
  sorted : ∀ q : QueueAddr, q.isWait → SortedBy s.prio (s.members q)
  head : ∀ m w, w ∈ s.members (.mutex m) → s.prio (s.queue (.mutex m)).head ≤ s.prio w
  computed : ∀ t, s.live t → (s.thr t).suspend = 0 →
    portOSGetEffectivePriority t s = .ok (s.prio t, s)

theorem Rep.demands (h : Rep s a) (hs : Sound a) (ht : t ≠ 0) :
    s.demands t = Inherit.demands a.blocks a.base a.prio t := by
  ext x
  have hbase : (s.thr t).base = a.base t := by
    rw [h.tcb]
    rfl
  simp only [St.demands, Inherit.demands, Set.mem_ofPred_eq, hbase, h.prio, h.members hs, Sched.blocks]
  constructor
  · rintro (hx | ⟨m, w, hm, hw, hx⟩)
    · exact .inl hx
    · refine .inr ⟨w, ⟨m, (hs.owned t m).mpr ⟨ht, ?_⟩, hw⟩, hx⟩
      rw [← h.mtx]
      exact hm
  · rintro (hx | ⟨w, ⟨m, hm, hw⟩, hx⟩)
    · exact .inl hx
    · refine .inr ⟨m, w, ?_, hw, hx⟩
      rw [h.mtx]
      exact ((hs.owned t m).mp hm).2

theorem Represents.inherited (h : Represents True ph s a) : Inherited s := by
  have hs := h.fine.shape
  have hsort : ∀ q : QueueAddr, q.isWait → SortedBy s.prio (s.members q) := by
    intro q hq
    rw [h.rep.prio, h.rep.members hs]
    exact hs.core.sorted q hq
  have hset : ∀ t, s.live t → (s.thr t).suspend = 0 →
      Inherit.Settled a.blocks a.base a.prio t := by
    intro t hl h0
    refine h.fine.exact trivial t (Set.notMem_empty t) ((h.rep.live t).mp hl) ?_
    rw [Sched.suspended, ← h.rep.tcb, h0]
    exact lt_irrefl 0
  have hne : ∀ t, s.live t → t ≠ 0 := fun t hl => (hs.core.slot t ((h.rep.live t).mp hl).1).1
  refine ⟨?_, hsort, ?_, ?_⟩
  · intro t hl h0
    rw [h.rep.demands hs (hne t hl), h.rep.prio]
    exact hset t hl h0
  · intro m w hw
    have hq := hsort (.mutex m) (QueueAddr.mutex_isWait m)
    rw [h.rep.head]
    rw [h.rep.members hs] at hw hq
    cases hl : a.queue (.mutex m) with
    | nil => simp [hl] at hw
    | cons x l =>
      rw [hl] at hw hq
      rcases List.mem_cons.mp hw with rfl | hwl
      · exact le_refl _
      · exact List.rel_of_pairwise_cons hq hwl
  · intro t hl h0
    rw [h.rep.portOSGetEffectivePriority (hne t hl) (hs.length_owned t), h.rep.prio,
      (hs.core.settled_iff t).mp (hset t hl h0)]

/-- Priority inheritance is exact in runs without condition waits, circular waits for
mutexes included. -/
theorem reached_inherited (h : Reached NoCondWait ph s) : Inherited s := by
  obtain ⟨a, ha⟩ := h.represents (W := True) fun _ _ _ hp => hp
  exact ha.inherited

theorem contention_inherited : ∃ s, bootTrial NoCondWait 40 contention = some s ∧
    s.members (.mutex 1) = [3, 2] ∧ (s.thr 1).base = 16 ∧ s.prio 1 = 5 ∧ Inherited s := by
  obtain ⟨s, hs, hmembers, _, _, _, hbase, hprio⟩ := contention_runs
  exact ⟨s, hs, hmembers, hbase, hprio, reached_inherited (reached_bootTrial hs)⟩

/-- The two records of ownership agree, owners are alive, and threads queued on a
mutex wait for another thread. -/
structure Ownership (s : St) : Prop where
  owner : ∀ m t, t ≠ 0 → ((s.mtx m).thread = t ↔ m ∈ s.ownedBy t)
  once : ∀ t, (s.ownedBy t).Nodup
  single : ∀ m t u, m ∈ s.ownedBy t → m ∈ s.ownedBy u → t = u
  live : ∀ m, (s.mtx m).thread ≠ 0 → s.live (s.mtx m).thread
  free : ∀ m, (s.mtx m).thread = 0 → s.members (.mutex m) = [] ∧ ∀ t, m ∉ s.ownedBy t
  waiting : ∀ m w, w ∈ s.members (.mutex m) → (s.thr w).mutex = m ∧ (s.mtx m).thread ≠ w

/-- The mutexes a thread owned have lost it, and no thread that waited on one of them
still does unless there is another owner. -/
def Released (s s' : St) (t : Addr) : Prop :=
  ∀ m, (s.mtx m).thread = t → (s'.mtx m).thread ≠ t ∧
    ∀ w ∈ s.members (.mutex m), (s'.thr w).state = .waiting → (s'.thr w).queue = .mutex m →
      (s'.mtx m).thread ≠ 0

/-- A call that ends thread `t`. -/
def Op.Ends (s : St) (t : Addr) : Op → Prop
  | .cancel u => u = t
  | .exit _ => s.currentThread = t
  | _ => False

theorem Rep.ownership (h : Rep s a) (hs : Sound a) : Ownership s := by
  have hthr : ∀ m, (s.mtx m).thread = (a.mtx m).thread := fun m => congrArg (·.thread) (h.mtx m)
  refine ⟨?_, ?_, ?_, ?_, ?_, ?_⟩
  · intro m t ht
    rw [hthr, h.ownedBy hs, hs.owned]
    simp [ht]
  · intro t
    rw [h.ownedBy hs]
    exact hs.nodup t
  · intro m t u ht hu
    rw [h.ownedBy hs, hs.owned] at ht hu
    exact ht.2.symm.trans hu.2
  · intro m hm
    rw [hthr] at hm ⊢
    rw [h.live]
    exact (hs.live m hm).resolve_right (Set.notMem_empty _)
  · intro m hm
    rw [hthr] at hm
    refine ⟨?_, fun t => ?_⟩
    · rw [h.members hs]
      exact hs.queue_free (Set.notMem_empty m) hm
    · rw [h.ownedBy hs]
      exact hs.not_owned hm t
  · intro m w hw
    rw [h.members hs] at hw
    rw [hthr, h.tcb]
    exact ⟨hs.names m w hw, (hs.held m w (Set.notMem_empty m) hw).2⟩

/-- A dead thread owns nothing, and a mutex without owner has no waiters. -/
theorem Rep.released (h : Rep s' b) (hs : Sound b) (hd : ¬ b.live t) (ht : t ≠ 0) :
    Released s s' t := by
  have how := h.ownership hs
  intro m _
  refine ⟨?_, ?_⟩
  · intro he
    have hl := how.live m (by rwa [he])
    rw [he] at hl
    exact hd ((h.live t).mp hl)
  · intro w _ hst hq h0
    have hm : w ∈ s'.members (.mutex m) := by
      rw [h.mem_members hs (by simp), Tcb.home_waiting hst, hq]
    rw [(how.free m h0).1] at hm
    cases hm

theorem Represents.released (h : Represents False ph s a) (hg : o.Guarded s) (he : o.Ends s t)
    (hs : o.exec n s = .ok ((), s')) : Released s s' t := by
  obtain ⟨b, hb, hrep⟩ := h.apply nofun hg nofun hs
  cases o with
  | cancel u =>
    cases he
    refine hrep.rep.released hrep.fine.shape (fun hl => ?_) hg.1
    by_cases hla : a.live t
    · exact (h.fine.cancelThread_buried hla hb).dead hl
    · rw [Sched.cancelThread_dead hla hb] at hl
      exact hla hl
  | exit v =>
    cases he
    cases hb
    refine hrep.rep.released hrep.fine.shape ?_ hg.1
    rw [h.rep.current]
    exact (h.fine.exitThread_buried (h.rep.running.mp hg) v).dead
  | _ => exact he.elim

/-- Ownership in every state of a run, and after the end of any thread. -/
theorem reached_ownership (h : Reached P ph s) : Ownership s ∧
    ∀ (t : Addr) (o : Op) (n : Nat) (s' : St), o.Guarded s → o.Ends s t →
      o.exec n s = .ok ((), s') → Released s s' t := by
  obtain ⟨a, ha⟩ := h.represents (W := False) nofun
  exact ⟨ha.rep.ownership ha.fine.shape, fun _ _ _ _ hg he hs => ha.released hg he hs⟩

theorem contention_ownership : ∃ s, bootTrial NoCondWait 40 contention = some s ∧ Ownership s ∧
    ∀ (t : Addr) (o : Op) (n : Nat) (s' : St), o.Guarded s → o.Ends s t →
      o.exec n s = .ok ((), s') → Released s s' t := by
  obtain ⟨s, hs, -⟩ := contention_runs
  exact ⟨s, hs, reached_ownership (reached_bootTrial hs)⟩

end SdkPort.OSThread
