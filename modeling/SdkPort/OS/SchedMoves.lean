import SdkPort.OS.SchedWave

/-!
# Dispatching and waking

Selecting the next thread and waking the threads of a queue move threads between
the states of a live thread; priorities, mutexes and messages stay.
-/
namespace SdkPort.OSThread.Sched

variable {X : Set Addr} {a b c : Sched} {t : Addr} {q : QueueAddr}

/-- Live threads may have changed their state and their queue, but no thread has
begun to wait and only threads waiting in `q` have ceased to. -/
structure Moved (q : QueueAddr) (a b : Sched) : Prop where
  words : ∀ t, ∃ s l, b.tcb t = { a.tcb t with state := s, queue := l }
  dead : ∀ t, ¬ a.live t → b.tcb t = a.tcb t
  live : ∀ t, a.live t → b.live t
  waiting : ∀ t, (b.tcb t).state = .waiting → b.tcb t = a.tcb t
  still : ∀ t, (a.tcb t).state = .waiting → (a.tcb t).queue ≠ q → b.tcb t = a.tcb t
  owned : b.owned = a.owned
  mtx : b.mtx = a.mtx
  msgq : b.msgq = a.msgq
  reschedule : b.reschedule = a.reschedule

namespace Moved

theorem prio (h : Moved q a b) (t : Addr) : b.prio t = a.prio t := by
  obtain ⟨s, l, hw⟩ := h.words t
  simp only [Sched.prio, hw]

theorem suspend (h : Moved q a b) (t : Addr) : (b.tcb t).suspend = (a.tcb t).suspend := by
  obtain ⟨s, l, hw⟩ := h.words t
  rw [hw]

theorem base (h : Moved q a b) (t : Addr) : (b.tcb t).base = (a.tcb t).base := by
  obtain ⟨s, l, hw⟩ := h.words t
  rw [hw]

theorem mutex (h : Moved q a b) (t : Addr) : (b.tcb t).mutex = (a.tcb t).mutex := by
  obtain ⟨s, l, hw⟩ := h.words t
  rw [hw]

theorem val (h : Moved q a b) (t : Addr) : (b.tcb t).val = (a.tcb t).val := by
  obtain ⟨s, l, hw⟩ := h.words t
  rw [hw]

theorem not_suspended (h : Moved q a b) (t : Addr) : b.suspended t ↔ a.suspended t := by
  simp only [Sched.suspended, h.suspend]

theorem live_iff (h : Moved q a b) (t : Addr) : b.live t ↔ a.live t := by
  constructor
  · intro hb
    by_contra ha
    rw [Sched.live, h.dead t ha] at hb
    exact ha hb
  · exact h.live t

theorem refl (q : QueueAddr) (a : Sched) : Moved q a a :=
  ⟨fun _ => ⟨_, _, rfl⟩, fun _ _ => rfl, fun _ => id, fun _ _ => rfl, fun _ _ _ => rfl,
    rfl, rfl, rfl, rfl⟩

theorem trans (h : Moved q a b) (h' : Moved q b c) : Moved q a c := by
  constructor
  · intro t
    obtain ⟨s, l, hw⟩ := h.words t
    obtain ⟨s', l', hw'⟩ := h'.words t
    exact ⟨s', l', by rw [hw', hw]⟩
  · intro t ht
    rw [h'.dead t (by rwa [h.live_iff t]), h.dead t ht]
  · exact fun t ht => h'.live t (h.live t ht)
  · intro t ht
    have h₁ := h'.waiting t ht
    rw [h₁, h.waiting t (by rwa [← h₁])]
  · intro t ht hq
    have h₁ := h.still t ht hq
    rw [h'.still t (by rwa [h₁]) (by rwa [h₁]), h₁]
  · rw [h'.owned, h.owned]
  · rw [h'.mtx, h.mtx]
  · rw [h'.msgq, h.msgq]
  · rw [h'.reschedule, h.reschedule]

/-- Nobody has joined a wait queue, and only `q` may have been left. -/
theorem mem_of_mem (h : Moved q a b) (ha : Core X a) (hb : Core X b) {r : QueueAddr} (hr : r.isWait)
    (ht : t ∈ b.queue r) : t ∈ a.queue r := by
  obtain ⟨hX, hh⟩ := (hb.mem r hr.ne_active t).mp ht
  have hs := ((home_wait hr).mp hh).1
  rw [h.waiting t hs] at hh
  exact (ha.mem r hr.ne_active t).mpr ⟨hX, hh⟩

theorem mem_iff (h : Moved q a b) (ha : Core X a) (hb : Core X b) {r : QueueAddr} (hr : r.isWait)
    (hne : r ≠ q) : t ∈ b.queue r ↔ t ∈ a.queue r := by
  constructor
  · exact h.mem_of_mem ha hb hr
  · intro ht
    obtain ⟨hX, hh⟩ := (ha.mem r hr.ne_active t).mp ht
    obtain ⟨hs, hq⟩ := (home_wait hr).mp hh
    rw [← h.still t hs (by rwa [hq])] at hh
    exact (hb.mem r hr.ne_active t).mpr ⟨hX, hh⟩

end Moved

/-- One runnable thread has changed its state to another live one. -/
theorem Moved.one (hl : a.live t) (hw : (a.tcb t).state = .waiting → (a.tcb t).queue = q)
    (htcb : ∃ s l, b.tcb = Function.update a.tcb t { a.tcb t with state := s, queue := l } ∧
      (s = .ready ∨ s = .running))
    (ho : b.owned = a.owned) (hm : b.mtx = a.mtx) (hg : b.msgq = a.msgq)
    (hr : b.reschedule = a.reschedule) : Moved q a b := by
  obtain ⟨s, l, htcb, hs⟩ := htcb
  have hother : ∀ u, u ≠ t → b.tcb u = a.tcb u := by
    intro u he
    simp [htcb, he]
  have hself : b.tcb t = { a.tcb t with state := s, queue := l } := by simp [htcb]
  refine ⟨?_, ?_, ?_, ?_, ?_, ho, hm, hg, hr⟩
  · intro u
    by_cases he : u = t
    · subst he
      exact ⟨s, l, hself⟩
    · exact ⟨_, _, by rw [hother u he]⟩
  · intro u hu
    apply hother
    rintro rfl
    exact hu hl
  · intro u hu
    by_cases he : u = t
    · subst he
      rw [Sched.live, hself]
      rcases hs with rfl | rfl <;> simp
    · rwa [Sched.live, hother u he]
  · intro u hu
    apply hother
    rintro rfl
    rw [hself] at hu
    rcases hs with rfl | rfl <;> cases hu
  · intro u hu hq
    apply hother
    rintro rfl
    exact hq (hw hu)

theorem Core.setCurrent (h : Core X a) {v : Addr} (hv : v ≠ 0 → Slot v)
    (hr : ∀ u, u ∉ X → (a.tcb u).state = .running → u = v) :
    Core X { a with currentThread := v } :=
  ⟨h.bounded, h.placed, h.mem, h.nodup, h.active, hr, h.slot, hv, h.bits, h.sorted⟩

/-- A thread in a run queue is ready and unsuspended. -/
theorem Core.of_mem_run (h : Core X a) {p : Nat} (ht : t ∈ a.queue (.runQueue p)) :
    t ∉ X ∧ (a.tcb t).state = .ready ∧ (a.tcb t).suspend = 0 ∧ a.prio t = p := by
  obtain ⟨hX, hh⟩ := (h.mem _ (by simp) t).mp ht
  have h0 := (h.bounded t).suspend
  rcases Tcb.home_cases hh with ⟨hs, h1, hp⟩ | ⟨hs, hq⟩
  · refine ⟨hX, hs, by omega, ?_⟩
    simpa [Sched.prio] using hp.symm
  · have := (h.placed t hX).waiting hs
    rw [← hq] at this
    exact this.elim

theorem Core.dispatch (h : Core X a) (hr : ∀ u, u ∉ X → (a.tcb u).state ≠ .running) {p : Nat}
    (ht : t ∈ a.queue (.runQueue p)) : Core X (a.dispatch p t) := by
  obtain ⟨hX, hs, h0, rfl⟩ := h.of_mem_run ht
  obtain ⟨hp31, hc⟩ := h.takeRun (p := a.prio t) hX (Tcb.home_ready hs h0)
  have hslot := h.slot t (by simp [hs])
  have hm := hc.modT (g := ({ · with queue := .null, state := .running })) (Set.mem_insert t X)
    ⟨(h.bounded t).base, (h.bounded t).priority, (h.bounded t).suspend⟩ (by simp [hs])
  have hcur := hm.setCurrent (v := t) (fun _ => hslot) (by
    intro u hu hrun
    simp only [Set.mem_insert_iff, not_or] at hu
    simp [hu.1] at hrun
    exact absurd hrun (hr u hu.2))
  apply hcur.putBack hX
  · exact Tcb.home_idle (by simp) (by simp)
  · constructor <;> simp_all [prio]
  · intro _
    rfl

theorem Core.bits_ne_zero (h : Core X a) : a.runQueueBits ≠ 0 ↔
    a.queue (.runQueue (portCntlzw a.runQueueBits)) ≠ [] := by
  by_cases hb : a.runQueueBits = 0
  · have hnil : ∀ u, u ∉ a.queue (.runQueue 32) := by
      intro u hu
      obtain ⟨hX, hs, h0, hp⟩ := h.of_mem_run hu
      have : a.prio u ≤ 31 := (h.placed u hX).awake h0 (.inl hs)
      omega
    rw [cntlzw_eq_32 hb]
    simpa [hb] using List.eq_nil_iff_forall_not_mem.mpr hnil
  · obtain ⟨hle, hbit, _⟩ := cntlzw_spec hb
    simp only [ne_eq, hb, not_false_eq_true, true_iff]
    exact (h.bits _ hle).mp hbit

/-- Nobody runs once the processor has been given up and before it is given away. -/
def Idle (X : Set Addr) (a : Sched) : Prop := ∀ u, u ∉ X → (a.tcb u).state ≠ .running

theorem Core.selectNext (h : Core X a) (hr : Idle X a) :
    Core X a.selectNext ∧ Moved q a a.selectNext := by
  have hb : Core X { a with currentThread := 0 } :=
    h.setCurrent (by simp) (fun u hu hs => absurd hs (hr u hu))
  unfold Sched.selectNext
  simp only
  split
  · exact ⟨hb, ⟨fun _ => ⟨_, _, rfl⟩, fun _ _ => rfl, fun _ => id, fun _ _ => rfl,
      fun _ _ _ => rfl, rfl, rfl, rfl, rfl⟩⟩
  · split
    · exact ⟨hb, ⟨fun _ => ⟨_, _, rfl⟩, fun _ _ => rfl, fun _ => id, fun _ _ => rfl,
        fun _ _ _ => rfl, rfl, rfl, rfl, rfl⟩⟩
    · rename_i u l hq
      have hu : u ∈ a.queue (.runQueue (portCntlzw a.runQueueBits)) := by simp [hq]
      refine ⟨(hb.setHint false).dispatch hr hu, ?_⟩
      obtain ⟨hX, hs, _, _⟩ := h.of_mem_run hu
      apply Moved.one (t := u)
      · simp [Sched.live, hs]
      · simp [hs]
      · exact ⟨.running, .null, by simp [Sched.dispatch], .inr rfl⟩
      all_goals rfl

theorem Core.preempt (h : Core X a) (ht : t ∉ X) (hs : (a.tcb t).state = .running) :
    Core X (a.preempt t) ∧ Moved q a (a.preempt t) := by
  have hpl := h.placed t ht
  have h0 := hpl.running hs
  have hhome : (a.tcb t).home = none := Tcb.home_idle (by simp [hs]) (by simp [hs])
  have hm := (h.exempt hhome).modT (g := ({ · with state := .ready })) (Set.mem_insert t X)
    ⟨(h.bounded t).base, (h.bounded t).priority, (h.bounded t).suspend⟩ (by simp [hs])
  constructor
  · apply hm.setRun ht
    · simp
    · simpa using h0
    · simpa [prio] using hpl.awake h0 (.inr (.inl hs))
  · apply Moved.one (t := t)
    · simp [Sched.live, hs]
    · simp [hs]
    · exact ⟨.ready, .runQueue (a.prio t), by simp [Sched.preempt, prio], .inl rfl⟩
    all_goals rfl

theorem Core.idle_preempt (h : Core X a) : Idle X (a.preempt a.currentThread) := by
  intro u hu hs
  by_cases he : u = a.currentThread
  · subst he
    simp [Sched.preempt] at hs
  · simp [Sched.preempt, he] at hs
    exact he (h.running u hu hs)

theorem Core.idle_of_current (h : Core X a) (hs : (a.tcb a.currentThread).state ≠ .running) :
    Idle X a := by
  intro u hu hr
  have := h.running u hu hr
  subst this
  exact hs hr

theorem Core.selectThread (h : Core X a) (hX : a.currentThread ∉ X) (yield : Bool) :
    Core X (a.selectThread yield) ∧ Moved q a (a.selectThread yield) := by
  unfold Sched.selectThread
  split
  · exact ⟨h, Moved.refl q a⟩
  split
  · rename_i hz
    apply h.selectNext
    intro u hu hs
    have hslot := h.slot u (by simp [hs])
    rw [h.running u hu hs, hz] at hslot
    exact hslot.1 rfl
  split
  · rename_i hs
    have hp := h.preempt (q := q) hX hs
    have hn := hp.1.selectNext (q := q) h.idle_preempt
    split
    · exact ⟨hn.1, hp.2.trans hn.2⟩
    split
    · exact ⟨h, Moved.refl q a⟩
    · exact ⟨hn.1, hp.2.trans hn.2⟩
  · rename_i hs
    exact h.selectNext (h.idle_of_current hs)

theorem Core.osReschedule (h : Core X a) (hX : a.currentThread ∉ X) :
    Core X a.osReschedule ∧ Moved q a a.osReschedule := by
  unfold Sched.osReschedule
  split
  · exact h.selectThread hX false
  · exact ⟨h, Moved.refl q a⟩

theorem Core.wakeOne (h : Core X a) (hq : q.isWait) (ht : t ∈ a.queue q) :
    Core X (a.wakeOne q t) ∧ Moved q a (a.wakeOne q t) := by
  obtain ⟨hX, hh⟩ := (h.mem q hq.ne_active t).mp ht
  obtain ⟨hs, rfl⟩ := (home_wait hq).mp hh
  have hpl := h.placed t hX
  have hm := (h.takeWait hX hs).modT (g := ({ · with state := .ready })) (Set.mem_insert t X)
    ⟨(h.bounded t).base, (h.bounded t).priority, (h.bounded t).suspend⟩ (by simp [hs])
  have hlive : a.live t := by simp [Sched.live, hs]
  unfold Sched.wakeOne
  split
  · rename_i hsus
    constructor
    · apply hm.putBack hX
      · exact Tcb.home_suspended (by simp) (by simpa [suspended] using hsus)
      · have : 0 < (a.tcb t).suspend := hsus
        constructor <;> simp <;> omega
      · simp
    · apply Moved.one hlive (fun _ => rfl)
      · exact ⟨.ready, (a.tcb t).queue, by simp, .inl rfl⟩
      all_goals rfl
  · rename_i hsus
    have h0 : (a.tcb t).suspend = 0 := by
      have := (h.bounded t).suspend
      simp only [suspended] at hsus
      omega
    constructor
    · apply hm.setRun hX
      · simp
      · simpa using h0
      · simpa [prio] using hpl.awake h0 (.inr (.inr hs))
    · apply Moved.one hlive (fun _ => rfl)
      · exact ⟨.ready, .runQueue (a.prio t), by simp [prio], .inl rfl⟩
      all_goals rfl

theorem wakeOne_queue (hq : q.isWait) {l : List Addr} (ht : a.queue q = t :: l) :
    (a.wakeOne q t).queue q = l := by
  unfold Sched.wakeOne
  split
  · simp [ht]
  · simp [ht, hq.ne_run]

/-- Waking concerns waiting threads only, and the scheduler gets no hint only if
all of them are suspended. -/
structure Woken (l : List Addr) (a b : Sched) : Prop where
  awake : ∀ u, (a.tcb u).state ≠ .waiting → b.tcb u = a.tcb u
  current : b.currentThread = a.currentThread
  quiet : b.runQueueHint = false → a.runQueueHint = false ∧ ∀ u ∈ l, a.suspended u

theorem Woken.wakeOne (hs : (a.tcb t).state = .waiting) : Woken [t] a (a.wakeOne q t) := by
  have hne : ∀ u, (a.tcb u).state ≠ .waiting → u ≠ t := by
    rintro u hu rfl
    exact hu hs
  unfold Sched.wakeOne
  split
  · rename_i h0
    refine ⟨?_, rfl, ?_⟩
    · intro u hu
      simp [hne u hu]
    · simpa using fun hf => ⟨hf, h0⟩
  · refine ⟨?_, rfl, ?_⟩
    · intro u hu
      simp [hne u hu]
    · simp

theorem Woken.append {l l' : List Addr} (h : Woken l a b) (hm : Moved q a b) (h' : Woken l' b c) :
    Woken (l ++ l') a c := by
  constructor
  · intro u hu
    have hb := h.awake u hu
    rw [h'.awake u (by rwa [hb]), hb]
  · rw [h'.current, h.current]
  · intro hf
    obtain ⟨hfb, hl'⟩ := h'.quiet hf
    obtain ⟨hfa, hl⟩ := h.quiet hfb
    refine ⟨hfa, ?_⟩
    intro u hu
    rcases List.mem_append.mp hu with hu | hu
    · exact hl u hu
    · exact (hm.not_suspended u).mp (hl' u hu)

/-- Waking empties the queue, one thread at a time. -/
theorem Core.wakeAll (h : Core X a) (hq : q.isWait) {l : List Addr} (hl : a.queue q = l) :
    Core X (wakeAll q a l) ∧ Moved q a (wakeAll q a l) ∧ Woken l a (wakeAll q a l) ∧
      (wakeAll q a l).queue q = [] := by
  induction l generalizing a with
  | nil => exact ⟨h, Moved.refl q a, ⟨fun _ _ => rfl, rfl, by simp [Sched.wakeAll]⟩, hl⟩
  | cons t l ih =>
    have ht : t ∈ a.queue q := by simp [hl]
    have hs := ((home_wait hq).mp ((h.mem q hq.ne_active t).mp ht).2).1
    have h₁ := h.wakeOne hq ht
    obtain ⟨hc, hm, hw, hnil⟩ := ih h₁.1 (wakeOne_queue hq hl)
    exact ⟨hc, h₁.2.trans hm, (Woken.wakeOne hs).append h₁.2 hw, hnil⟩

theorem Core.wakeupThread (h : Core X a) (hX : a.currentThread ∉ X) (hq : q.isWait) :
    Core X (a.wakeupThread q) ∧ Moved q a (a.wakeupThread q) ∧ (a.wakeupThread q).queue q = [] := by
  obtain ⟨hc, hm, hw, hnil⟩ := h.wakeAll hq rfl
  have hs := hc.osReschedule (q := q) (by rwa [hw.current])
  refine ⟨hs.1, hm.trans hs.2, ?_⟩
  refine List.eq_nil_iff_forall_not_mem.mpr ?_
  intro u hu
  have := hs.2.mem_of_mem hc hs.1 hq hu
  rw [hnil] at this
  cases this

/-- Nobody ever waits in a join queue: a caller that has to wait is sent away. -/
theorem Core.queue_join (h : Core X a) (t : Addr) : a.queue (.join t) = [] := by
  refine List.eq_nil_iff_forall_not_mem.mpr ?_
  intro u hu
  obtain ⟨hX, hh⟩ := (h.mem _ (by simp) u).mp hu
  rcases Tcb.home_cases hh with ⟨_, _, hp⟩ | ⟨hs, hq⟩
  · cases hp
  · have := (h.placed u hX).waiting hs
    rw [← hq] at this
    exact this

theorem Core.wakeupThread_join (h : Core X a) (t : Addr) :
    a.wakeupThread (.join t) = a.osReschedule := by
  simp [Sched.wakeupThread, h.queue_join, Sched.wakeAll]

end SdkPort.OSThread.Sched
