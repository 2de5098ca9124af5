import SdkPort.OS.SchedMoves

/-!
# Owners, owned mutexes and blocked threads

The shape of the scheduler state that every operation keeps, condition waits and
circular waits included: threads are in place, each owned mutex is in the list of
its owner alone, and whoever is queued on a mutex names it and waits for another
thread. While an operation is under way, some threads may be out of place (`X`),
a dying thread may still own mutexes (`D`), and a released mutex may still have
its waiters (`H`).
-/
namespace SdkPort.OSThread

/-- The addresses of mutex slots. -/
def MutexAddr (m : Addr) : Prop := m ≠ 0 ∧ m ≤ PORT_MAX_MUTEXES

namespace Sched

structure Shape (X D H : Set Addr) (a : Sched) : Prop where
  core : Core X a
  nodup : ∀ t, (a.owned t).Nodup
  owned : ∀ t m, m ∈ a.owned t ↔ t ≠ 0 ∧ (a.mtx m).thread = t
  addr : ∀ m, (a.mtx m).thread ≠ 0 → MutexAddr m
  live : ∀ m, (a.mtx m).thread ≠ 0 → a.live (a.mtx m).thread ∨ (a.mtx m).thread ∈ D
  pending : ∀ t, (a.tcb t).mutex ≠ 0 → MutexAddr (a.tcb t).mutex
  names : ∀ m t, t ∈ a.queue (.mutex m) → (a.tcb t).mutex = m
  held : ∀ m t, m ∉ H → t ∈ a.queue (.mutex m) → (a.mtx m).thread ≠ 0 ∧ (a.mtx m).thread ≠ t

/-- The shape between operations. -/
abbrev Sound (a : Sched) : Prop := Shape ∅ ∅ ∅ a

/-- The current thread is there and runs. -/
def CurrentRuns (a : Sched) : Prop :=
  a.currentThread ≠ 0 ∧ (a.tcb a.currentThread).state = .running

variable {X D H : Set Addr} {a b : Sched} {t m : Addr} {q : QueueAddr}

theorem Shape.moved (h : Shape X D H a) (hc : Core X b) (hm : Moved q a b) : Shape X D H b := by
  refine ⟨hc, ?_, ?_, ?_, ?_, ?_, ?_, ?_⟩
  · rw [hm.owned]
    exact h.nodup
  · rw [hm.owned, hm.mtx]
    exact h.owned
  · rw [hm.mtx]
    exact h.addr
  · intro m
    rw [hm.mtx, hm.live_iff]
    exact h.live m
  · intro u
    rw [hm.mutex]
    exact h.pending u
  · intro m u hu
    rw [hm.mutex]
    exact h.names m u (hm.mem_of_mem h.core hc (QueueAddr.mutex_isWait _) hu)
  · intro m u hH hu
    rw [hm.mtx]
    exact h.held m u hH (hm.mem_of_mem h.core hc (QueueAddr.mutex_isWait _) hu)

theorem Shape.reprio (h : Shape X D H a) (hc : Core X b) (hr : Reprio a b) : Shape X D H b := by
  refine ⟨hc, ?_, ?_, ?_, ?_, ?_, ?_, ?_⟩
  · rw [hr.owned]
    exact h.nodup
  · rw [hr.owned, hr.mtx]
    exact h.owned
  · rw [hr.mtx]
    exact h.addr
  · intro m
    rw [hr.mtx, hr.live]
    exact h.live m
  · intro u
    rw [hr.mutex]
    exact h.pending u
  · intro m u hu
    rw [hr.mutex]
    exact h.names m u ((hr.mem_wait h.core hc (QueueAddr.mutex_isWait _)).mp hu)
  · intro m u hH hu
    rw [hr.mtx]
    exact h.held m u hH ((hr.mem_wait h.core hc (QueueAddr.mutex_isWait _)).mp hu)

/-- Changes that leave owners, mutex queues and lifetimes alone. -/
theorem Shape.congr (h : Shape X D H a) {X' : Set Addr} (hc : Core X' b) (ho : b.owned = a.owned)
    (ht : ∀ m, (b.mtx m).thread = (a.mtx m).thread) (hl : ∀ u, a.live u → b.live u)
    (hp : ∀ u, (b.tcb u).mutex ≠ 0 → MutexAddr (b.tcb u).mutex)
    (hq : ∀ m u, u ∈ b.queue (.mutex m) → u ∈ a.queue (.mutex m) ∧ (b.tcb u).mutex = (a.tcb u).mutex) :
    Shape X' D H b := by
  refine ⟨hc, ?_, ?_, ?_, ?_, hp, ?_, ?_⟩
  · rw [ho]
    exact h.nodup
  · intro u m
    rw [ho, ht]
    exact h.owned u m
  · intro m
    rw [ht]
    exact h.addr m
  · intro m
    rw [ht]
    intro h0
    rcases h.live m h0 with hv | hv
    · exact .inl (hl _ hv)
    · exact .inr hv
  · intro m u hu
    obtain ⟨hu', he⟩ := hq m u hu
    rw [he]
    exact h.names m u hu'
  · intro m u hH hu
    rw [ht]
    exact h.held m u hH (hq m u hu).1

/-- A waiting thread is in the queue it names, any other in no wait queue. -/
theorem Core.mem_wait (h : Core X a) (hq : q.isWait) :
    t ∈ a.queue q ↔ t ∉ X ∧ (a.tcb t).state = .waiting ∧ (a.tcb t).queue = q := by
  rw [h.mem q hq.ne_active, home_wait hq]

theorem Shape.not_owned (h : Shape X D H a) (hm : (a.mtx m).thread = 0) (t : Addr) :
    m ∉ a.owned t := by
  rw [h.owned]
  rintro ⟨h0, rfl⟩
  exact h0 hm

/-- A mutex without owner has no waiters. -/
theorem Shape.queue_free (h : Shape X D H a) (hH : m ∉ H) (hm : (a.mtx m).thread = 0) :
    a.queue (.mutex m) = [] := by
  refine List.eq_nil_iff_forall_not_mem.mpr ?_
  intro u hu
  exact (h.held m u hH hu).1 hm

/-- The running thread changes words that do not say where it stands. -/
theorem Shape.modCurrent (h : Shape X D H a) (hX : a.currentThread ∉ X) (hr : a.CurrentRuns)
    {g : Tcb → Tcb} (hs : (g (a.tcb a.currentThread)).state = .running)
    (h0 : (g (a.tcb a.currentThread)).suspend = (a.tcb a.currentThread).suspend)
    (hb : (g (a.tcb a.currentThread)).base = (a.tcb a.currentThread).base)
    (hp : (g (a.tcb a.currentThread)).priority ≤ 31)
    (hm : (g (a.tcb a.currentThread)).mutex ≠ 0 → MutexAddr (g (a.tcb a.currentThread)).mutex) :
    Shape X D H (a.modT a.currentThread g) := by
  have hpl := h.core.placed _ hX
  have hbd := h.core.bounded a.currentThread
  have hrun := hr.2
  have hc : Core X (a.modT a.currentThread g) := by
    apply h.core.modIdle hX
    · exact Tcb.home_idle (by simp [hrun]) (by simp [hrun])
    · exact Tcb.home_idle (by simp [hs]) (by simp [hs])
    · exact ⟨by rw [hb]; exact hbd.base, by omega, by rw [h0]; exact hbd.suspend⟩
    · have h1 := hpl.running hrun
      constructor <;> simp_all
    · simp [hs, hrun]
    · exact fun _ => rfl
  apply h.congr hc rfl
  · exact fun _ => rfl
  · intro u hu
    by_cases he : u = a.currentThread
    · subst he
      simp [Sched.live, hs]
    · simpa [Sched.live, he] using hu
  · intro u
    by_cases he : u = a.currentThread
    · subst he
      simpa using hm
    · simpa [he] using h.pending u
  · intro m u hu
    have hne : u ≠ a.currentThread := by
      rintro rfl
      have := ((h.core.mem_wait (QueueAddr.mutex_isWait _)).mp hu).2.1
      rw [hrun] at this
      cases this
    exact ⟨hu, by simp [hne]⟩

/-- A running current thread is still there, or another in its place, after rescheduling. -/
theorem Core.currentRuns_selectThread (h : Core X a) (hX : a.currentThread ∉ X)
    (hr : a.CurrentRuns) (yield : Bool) : (a.selectThread yield).CurrentRuns := by
  obtain ⟨h0, hs⟩ := hr
  have hp := (h.preempt (q := .null) hX hs).1
  have hmem : a.currentThread ∈ (a.preempt a.currentThread).queue
      (.runQueue (a.prio a.currentThread)) := by simp [Sched.preempt, prio]
  have hnext : (a.preempt a.currentThread).selectNext.CurrentRuns := by
    have hne : (a.preempt a.currentThread).runQueueBits ≠ 0 := by
      intro hz
      have hbit := (hp.bits _ ((h.placed _ hX).awake ((h.placed _ hX).running hs)
        (.inr (.inl hs)))).mpr (List.ne_nil_of_mem hmem)
      rw [hz, runBit_zero] at hbit
      cases hbit
    unfold Sched.selectNext
    rw [if_neg hne]
    have hq := hp.bits_ne_zero.mp hne
    split
    · rename_i hnil
      exact absurd hnil hq
    · rename_i u l hq'
      have hslot := hp.slot u (by
        have := hp.of_mem_run (p := portCntlzw (a.preempt a.currentThread).runQueueBits) (t := u)
          (by rw [hq']; simp)
        simp [this.2.1])
      exact ⟨hslot.1, by simp [Sched.dispatch]⟩
  unfold Sched.selectThread
  split
  · exact ⟨h0, hs⟩
  split
  · exact hnext
  split
  · exact ⟨h0, hs⟩
  · exact hnext

theorem Core.currentRuns_osReschedule (h : Core X a) (hX : a.currentThread ∉ X)
    (hr : a.CurrentRuns) : a.osReschedule.CurrentRuns := by
  unfold Sched.osReschedule
  split
  · exact h.currentRuns_selectThread hX hr false
  · exact hr

theorem Core.currentRuns_wakeupThread (h : Core X a) (hX : a.currentThread ∉ X) (hq : q.isWait)
    (hr : a.CurrentRuns) : (a.wakeupThread q).CurrentRuns := by
  obtain ⟨hc, _, hw, _⟩ := h.wakeAll hq rfl
  apply hc.currentRuns_osReschedule (by rwa [hw.current])
  rw [Sched.CurrentRuns, hw.current, hw.awake _ (by simp [hr.2])]
  exact hr

theorem Shape.osReschedule (h : Shape X D H a) (hX : a.currentThread ∉ X) :
    Shape X D H a.osReschedule := by
  have hs := h.core.osReschedule (q := .null) hX
  exact h.moved hs.1 hs.2

theorem Shape.selectThread (h : Shape X D H a) (hX : a.currentThread ∉ X) (yield : Bool) :
    Shape X D H (a.selectThread yield) := by
  have hs := h.core.selectThread (q := .null) hX yield
  exact h.moved hs.1 hs.2

theorem Shape.wakeupThread (h : Shape X D H a) (hX : a.currentThread ∉ X) (hq : q.isWait) :
    Shape X D H (a.wakeupThread q) :=
  h.moved (h.core.wakeupThread hX hq).1 (h.core.wakeupThread hX hq).2.1

/-- Waking the waiters of a released mutex. -/
theorem Shape.wakeupMutex (h : Shape X D (insert m H) a) (hX : a.currentThread ∉ X) :
    Shape X D H (a.wakeupThread (.mutex m)) := by
  have hb := h.wakeupThread hX (QueueAddr.mutex_isWait m)
  have hnil := (h.core.wakeupThread hX (QueueAddr.mutex_isWait m)).2.2
  refine ⟨hb.core, hb.nodup, hb.owned, hb.addr, hb.live, hb.pending, hb.names, ?_⟩
  intro k u hk hu
  have hne : k ≠ m := by
    rintro rfl
    rw [hnil] at hu
    cases hu
  apply hb.held k u _ hu
  rintro (he | he)
  · exact hne he
  · exact hk he

theorem Shape.acquire (h : Shape X D H a) (hr : a.CurrentRuns) (hm : MutexAddr m) (hH : m ∉ H)
    (h0 : (a.mtx m).thread = 0) (hb : a.acquire a.currentThread m = .ok b) : Shape X D H b := by
  unfold Sched.acquire at hb
  cases hc : checkS32 ((a.mtx m).count + 1) with
  | error e => simp [hc, bind, Except.bind] at hb
  | ok count =>
    simp only [hc, bind, Except.bind, Except.ok.injEq] at hb
    subst hb
    have hnot := h.not_owned h0
    have hnil := h.queue_free hH h0
    refine ⟨(h.core.modM m _).setOwned _ _, ?_, ?_, ?_, ?_, h.pending, h.names, ?_⟩
    · intro u
      by_cases he : u = a.currentThread
      · subst he
        simp only [setOwned_owned, Function.update_self, List.nodup_append]
        refine ⟨h.nodup _, by simp, ?_⟩
        intro x hx y hy
        rw [List.mem_singleton.mp hy]
        rintro rfl
        exact hnot _ hx
      · simpa [he] using h.nodup u
    · intro u k
      have hou := h.owned u k
      by_cases he : u = a.currentThread
      · subst he
        by_cases hk : k = m
        · subst hk
          simp [hr.1]
        · simp [hk, hou]
      · by_cases hk : k = m
        · subst hk
          simp [he, hnot, Ne.symm he]
        · simp [he, hk, hou]
    · intro k
      by_cases hk : k = m
      · subst hk
        exact fun _ => hm
      · simpa [hk] using h.addr k
    · intro k
      by_cases hk : k = m
      · subst hk
        intro _
        left
        simp [Sched.live, hr.2]
      · simpa [hk, Sched.live] using h.live k
    · intro k u hk hu
      have hne : k ≠ m := by
        rintro rfl
        change u ∈ a.queue _ at hu
        rw [hnil] at hu
        cases hu
      simpa [hne] using h.held k u hk hu

theorem Shape.modCount (h : Shape X D H a) {g : MutexCore → MutexCore}
    (hg : (g (a.mtx m)).thread = (a.mtx m).thread) : Shape X D H (a.modM m g) := by
  apply h.congr (h.core.modM m g) rfl
  · intro k
    by_cases hk : k = m
    · subst hk
      simpa using hg
    · simp [hk]
  · exact fun u hu => hu
  · exact h.pending
  · exact fun k u hu => ⟨hu, rfl⟩

/-- The running thread enters a wait queue. -/
theorem Core.enqueueCurrent (h : Core X a) (hX : a.currentThread ∉ X) (hr : a.CurrentRuns)
    (hq : q.isWait) : Core X (a.enqueueCurrent q) := by
  have hpl := h.placed _ hX
  have hbd := h.bounded a.currentThread
  have h0 := hpl.running hr.2
  have hp := hpl.awake h0 (.inr (.inl hr.2))
  have hm := (h.exempt (Tcb.home_idle (by simp [hr.2]) (by simp [hr.2]))).modT
    (g := ({ · with state := .waiting, queue := q })) (Set.mem_insert a.currentThread X)
    ⟨hbd.base, hbd.priority, hbd.suspend⟩ (by simp [hr.2])
  have := hm.addPrio hX (by simp) (by
    constructor <;> simp_all)
  simp only [modT_tcb, Function.update_self] at this
  exact this.setHint true

theorem Shape.enqueueCurrent (h : Shape X D H a) (hX : a.currentThread ∉ X) (hr : a.CurrentRuns)
    (hq : q.isWait) (hm : ∀ m, q = .mutex m → (a.tcb a.currentThread).mutex = m ∧
      (a.mtx m).thread ≠ 0 ∧ (a.mtx m).thread ≠ a.currentThread) :
    Shape X D H (a.enqueueCurrent q) := by
  have hc := h.core.enqueueCurrent hX hr hq
  have hmem : ∀ k u, u ∈ (a.enqueueCurrent q).queue (.mutex k) →
      (u = a.currentThread ∧ q = .mutex k) ∨ u ∈ a.queue (.mutex k) := by
    intro k u hu
    obtain ⟨_, hs, hk⟩ := (hc.mem_wait (QueueAddr.mutex_isWait k)).mp hu
    by_cases he : u = a.currentThread
    · subst he
      left
      simpa [Sched.enqueueCurrent] using hk
    · right
      simp [Sched.enqueueCurrent, he] at hs hk
      exact (h.core.mem_wait (QueueAddr.mutex_isWait k)).mpr ⟨by assumption, hs, hk⟩
  have hmut : ∀ u, ((a.enqueueCurrent q).tcb u).mutex = (a.tcb u).mutex := by
    intro u
    by_cases he : u = a.currentThread
    · subst he
      simp [Sched.enqueueCurrent]
    · simp [Sched.enqueueCurrent, he]
  refine ⟨hc, h.nodup, h.owned, h.addr, ?_, ?_, ?_, ?_⟩
  · intro k hk
    rcases h.live k hk with hl | hd
    · left
      change Sched.live _ (a.mtx k).thread
      by_cases he : (a.mtx k).thread = a.currentThread
      · simp [Sched.live, Sched.enqueueCurrent, he]
      · simpa [Sched.live, Sched.enqueueCurrent, he] using hl
    · exact .inr hd
  · intro u
    rw [hmut]
    exact h.pending u
  · intro k u hu
    rw [hmut]
    rcases hmem k u hu with ⟨rfl, hq'⟩ | hu'
    · exact (hm k hq').1
    · exact h.names k u hu'
  · intro k u hk hu
    rcases hmem k u hu with ⟨rfl, hq'⟩ | hu'
    · exact (hm k hq').2
    · exact h.held k u hk hu'

theorem Core.sleeps {q : QueueAddr} (h : Core ∅ a) (hr : a.CurrentRuns) (hq : q.isWait) :
    ((a.sleepThread q).tcb a.currentThread).state = .waiting ∧
      a.currentThread ∈ (a.sleepThread q).queue q := by
  have hX := Set.notMem_empty a.currentThread
  obtain ⟨hc, hm⟩ := (h.enqueueCurrent hX hr hq).osReschedule (q := .null) (Set.notMem_empty _)
  have ht : ((a.enqueueCurrent q).tcb a.currentThread).state = .waiting ∧
      ((a.enqueueCurrent q).tcb a.currentThread).queue = q := by
    simp [Sched.enqueueCurrent]
  have he := hm.still a.currentThread ht.1 (by rw [ht.2]; exact hq.ne_null)
  have hs : ((a.sleepThread q).tcb a.currentThread).state = .waiting := by
    rw [sleepThread, he]
    exact ht.1
  refine ⟨hs, (hc.mem q hq.ne_active _).mpr ⟨hX, ?_⟩⟩
  rw [he, Tcb.home, ht.1, ht.2]

theorem Shape.sleepThread (h : Shape X D H a) (hX : a.currentThread ∉ X) (hr : a.CurrentRuns)
    (hq : q.isWait) (hm : ∀ m, q = .mutex m → (a.tcb a.currentThread).mutex = m ∧
      (a.mtx m).thread ≠ 0 ∧ (a.mtx m).thread ≠ a.currentThread) :
    Shape X D H (a.sleepThread q) :=
  (h.enqueueCurrent hX hr hq hm).osReschedule hX

end Sched

end SdkPort.OSThread
