import SdkPort.OS.SchedInherit

/-!
# The invariant of runs without condition waits

On top of the shape: waiting threads that name a mutex are queued on it,
priorities are settled, and the scheduler has a hint whenever the current thread
may not be the best one. The hypothesis `W` stands for a run without condition
waits, so that what follows serves runs with them as well.
-/
namespace SdkPort.OSThread.Sched

open Inherit (demands Settled)

variable {W V : Prop} {X D H E : Set Addr} {a b : Sched} {t u w m : Addr} {q : QueueAddr} {n : Nat}

/-- The current thread runs and no runnable thread is better. -/
def Best (a : Sched) : Prop :=
  a.CurrentRuns ∧ ∀ p u, u ∈ a.queue (.runQueue p) → a.prio a.currentThread ≤ p

/-- Without a hint the best thread runs, unless a thread that could replace it is
about to be woken. -/
def Hinted (H : Set Addr) (a : Sched) : Prop :=
  a.runQueueHint = false → a.Best ∨ ∃ m ∈ H, ∃ u ∈ a.queue (.mutex m), ¬ a.suspended u

/-- The hint may be out of date while a thread exits, hence its own hypothesis. -/
structure Fit (W V : Prop) (X D H E : Set Addr) (a : Sched) : Prop where
  shape : Shape X D H a
  waits : W → Waits X a
  exact : W → Exact E a
  hint : V → Hinted H a

/-- The invariant between operations. -/
abbrev Fine (W : Prop) (a : Sched) : Prop := Fit W W ∅ ∅ ∅ ∅ a

theorem Waits.moved (h : Waits X a) (hm : Moved q a b) : Waits X b := by
  intro t hX hs h0
  have he := hm.waiting t hs
  rw [he] at hs h0 ⊢
  exact h t hX hs h0

theorem Moved.blocks (h : Moved q a b) (ha : Core X a) (hb : Core X b)
    (hq : ∀ m, q = .mutex m → ∀ t, m ∉ a.owned t) (w t : Addr) : b.blocks w t ↔ a.blocks w t := by
  simp only [Sched.blocks, h.owned]
  constructor
  · rintro ⟨m, hm, hw⟩
    exact ⟨m, hm, h.mem_of_mem ha hb (QueueAddr.mutex_isWait m) hw⟩
  · rintro ⟨m, hm, hw⟩
    refine ⟨m, hm, (h.mem_iff ha hb (QueueAddr.mutex_isWait m) ?_).mpr hw⟩
    rintro rfl
    exact hq m rfl t hm

theorem Exact.moved (h : Exact E a) (hm : Moved q a b) (ha : Core X a) (hb : Core X b)
    (hq : ∀ m, q = .mutex m → ∀ t, m ∉ a.owned t) : Exact E b := by
  apply h.congr (hm.blocks ha hb hq)
  · intro u hu hl hs
    exact ⟨hu, (hm.live_iff u).mp hl, fun hx => hs ((hm.not_suspended u).mpr hx), hm.base u,
      hm.prio u⟩
  · exact fun w _ _ => hm.prio w

/-- The best thread is dispatched. -/
theorem Core.best_selectNext (h : Core X a) (hr : Idle X a) (hb : a.runQueueBits ≠ 0) :
    a.selectNext.Best := by
  have hc := (h.selectNext (q := .null) hr).1
  obtain ⟨hle, hbit, hfirst⟩ := cntlzw_spec hb
  revert hc
  unfold Sched.selectNext
  rw [if_neg hb]
  split
  · rename_i hnil
    exact fun _ => absurd hnil (h.bits_ne_zero.mp hb)
  rename_i t l hq
  intro hc
  obtain ⟨hX, hs, h0, hp⟩ := h.of_mem_run (p := portCntlzw a.runQueueBits) (t := t) (by rw [hq]; simp)
  have hslot := h.slot t (by simp [hs])
  refine ⟨⟨hslot.1, by simp [Sched.dispatch]⟩, ?_⟩
  intro p u hu
  have hprio : (Sched.dispatch ({ a with currentThread := 0 }.setHint false)
      (portCntlzw a.runQueueBits) t).prio t = portCntlzw a.runQueueBits := by
    rw [← hp]
    simp [Sched.dispatch, Sched.prio]
  change Sched.prio _ t ≤ p
  rw [hprio]
  by_contra hlt
  have hmem : u ∈ a.queue (.runQueue p) := by
    have hne : p ≠ portCntlzw a.runQueueBits := by omega
    simpa [Sched.dispatch, hne] using hu
  have := (h.bits p (by omega)).mpr (List.ne_nil_of_mem hmem)
  rw [hfirst p (by omega)] at this
  cases this

theorem Core.hinted_selectNext (h : Core X a) (hr : Idle X a)
    (hb : a.runQueueHint = true ∨ a.runQueueBits ≠ 0) : Hinted H a.selectNext := by
  by_cases hz : a.runQueueBits = 0
  · have ht := hb.resolve_right (by simp [hz])
    intro hf
    simp [Sched.selectNext, hz, ht] at hf
  · exact fun _ => .inl (h.best_selectNext hr hz)

/-- The preempted thread is in its run queue, so some thread will be dispatched. -/
theorem Core.preempt_bits (h : Core X a) (hX : t ∉ X) (hs : (a.tcb t).state = .running) :
    (a.preempt t).runQueueBits ≠ 0 := by
  intro hz
  have hp := (h.preempt (q := .null) hX hs).1
  have hpl := h.placed t hX
  have hmem : t ∈ (a.preempt t).queue (.runQueue (a.prio t)) := by simp [Sched.preempt, Sched.prio]
  have := (hp.bits _ (hpl.awake (hpl.running hs) (.inr (.inl hs)))).mpr (List.ne_nil_of_mem hmem)
  rw [hz, runBit_zero] at this
  cases this

theorem Core.hinted_selectThread (h : Core X a) (hX : a.currentThread ∉ X) {yield : Bool}
    (hb : a.runQueueHint = true ∨ yield = true ∧ a.CurrentRuns) (ha : Hinted H a) :
    Hinted H (a.selectThread yield) := by
  unfold Sched.selectThread
  split
  · exact ha
  split
  · rename_i hz
    have ht := hb.resolve_right (by
      rintro ⟨_, h0, _⟩
      exact h0 hz)
    apply h.hinted_selectNext _ (.inl ht)
    intro u hu hs
    have hslot := h.slot u (by simp [hs])
    rw [h.running u hu hs, hz] at hslot
    exact hslot.1 rfl
  split
  · rename_i hs
    have hp := (h.preempt (q := .null) hX hs).1
    have hn := hp.hinted_selectNext (H := H) h.idle_preempt (.inr (h.preempt_bits hX hs))
    split
    · exact hn
    split
    · exact ha
    · exact hn
  · rename_i hs
    have ht := hb.resolve_right (fun hr => hs hr.2.2)
    exact h.hinted_selectNext (h.idle_of_current hs) (.inl ht)

theorem Fit.selectThread (h : Fit W V X D H E a) (hX : a.currentThread ∉ X) {yield : Bool}
    (hb : a.runQueueHint = true ∨ yield = true ∧ a.CurrentRuns) :
    Fit W V X D H E (a.selectThread yield) := by
  have hm := h.shape.core.selectThread (q := .null) hX yield
  refine ⟨h.shape.selectThread hX yield, ?_, ?_, ?_⟩
  · exact fun hw => (h.waits hw).moved hm.2
  · exact fun hw => (h.exact hw).moved hm.2 h.shape.core hm.1 (by simp)
  · exact fun hw => h.shape.core.hinted_selectThread hX hb (h.hint hw)

theorem Fit.osReschedule (h : Fit W V X D H E a) (hX : a.currentThread ∉ X) :
    Fit W V X D H E a.osReschedule := by
  unfold Sched.osReschedule
  split
  · rename_i ht
    exact h.selectThread hX (.inl ht)
  · exact h

/-- If waking gave no hint, nothing that matters to the scheduler has changed. -/
theorem Hinted.wakeAll (h : Hinted H a) (ha : Core X a) (hq : q.isWait) :
    Hinted H (wakeAll q a (a.queue q)) := by
  obtain ⟨hb, hm, hw, _⟩ := ha.wakeAll hq rfl
  intro hf
  obtain ⟨hfa, hall⟩ := hw.quiet hf
  rcases h hfa with ⟨hr, hbest⟩ | ⟨m, hm', u, hu, hs⟩
  · left
    refine ⟨?_, ?_⟩
    · rw [CurrentRuns, hw.current, hw.awake _ (by simp [hr.2])]
      exact hr
    · intro p u hu
      rw [hw.current, hm.prio]
      obtain ⟨hX, hs, h0, hp⟩ := hb.of_mem_run hu
      have hsus : ¬ a.suspended u := by
        rw [← hm.not_suspended]
        simp only [suspended, h0]
        omega
      have hnw : (a.tcb u).state ≠ .waiting := by
        intro hwait
        by_cases hqu : (a.tcb u).queue = q
        · exact hsus (hall u ((ha.mem_wait hq).mpr ⟨hX, hwait, hqu⟩))
        · rw [hm.still u hwait hqu, hwait] at hs
          cases hs
      have htcb := hw.awake u hnw
      apply hbest p u
      refine (ha.mem _ (by simp) u).mpr ⟨hX, ?_⟩
      rw [← htcb, Tcb.home_ready hs h0]
      exact congrArg _ (congrArg _ hp)
  · right
    refine ⟨m, hm', u, ?_, fun hx => hs ((hm.not_suspended u).mp hx)⟩
    apply (hm.mem_iff ha hb (QueueAddr.mutex_isWait m) _).mpr hu
    rintro rfl
    exact hs (hall u hu)

theorem Fit.wakeAll (h : Fit W V X D H E a) (hq : q.isWait)
    (hown : ∀ m, q = .mutex m → ∀ t, m ∉ a.owned t) :
    Fit W V X D H E (Sched.wakeAll q a (a.queue q)) := by
  obtain ⟨hb, hm, _, _⟩ := h.shape.core.wakeAll hq rfl
  refine ⟨h.shape.moved hb hm, ?_, ?_, ?_⟩
  · exact fun hw => (h.waits hw).moved hm
  · exact fun hw => (h.exact hw).moved hm h.shape.core hb hown
  · exact fun hw => (h.hint hw).wakeAll h.shape.core hq

theorem Fit.wakeupThread (h : Fit W V X D H E a) (hX : a.currentThread ∉ X) (hq : q.isWait)
    (hown : ∀ m, q = .mutex m → ∀ t, m ∉ a.owned t) : Fit W V X D H E (a.wakeupThread q) := by
  obtain ⟨_, _, hw, _⟩ := h.shape.core.wakeAll hq rfl
  exact (h.wakeAll hq hown).osReschedule (by rwa [hw.current])

/-- A released mutex whose waiters are gone is an ordinary free mutex. -/
theorem Fit.fill (h : Fit W V X D (insert m H) E a) (hm : a.queue (.mutex m) = []) :
    Fit W V X D H E a := by
  have hs := h.shape
  refine ⟨⟨hs.core, hs.nodup, hs.owned, hs.addr, hs.live, hs.pending, hs.names, ?_⟩,
    h.waits, h.exact, ?_⟩
  · intro k u hk hu
    apply hs.held k u _ hu
    rintro (rfl | he)
    · rw [hm] at hu
      cases hu
    · exact hk he
  · intro hw hf
    rcases h.hint hw hf with hb | ⟨k, hk, u, hu, h0⟩
    · exact .inl hb
    · rcases hk with rfl | hk
      · rw [hm] at hu
        cases hu
      · exact .inr ⟨k, hk, u, hu, h0⟩

theorem Fit.wakeupMutex (h : Fit W V X D (insert m H) E a) (hX : a.currentThread ∉ X)
    (hm : (a.mtx m).thread = 0) : Fit W V X D H E (a.wakeupThread (.mutex m)) := by
  apply Fit.fill (m := m)
  · apply h.wakeupThread hX (QueueAddr.mutex_isWait m)
    rintro k hk t
    cases hk
    exact h.shape.not_owned hm t
  · exact (h.shape.core.wakeupThread hX (QueueAddr.mutex_isWait m)).2.2

end SdkPort.OSThread.Sched
