import SdkPort.OS.Structure

/-!
# No missed preemption

Without a hint the best thread runs. With the scheduler enabled, every operation that
ends in rescheduling leaves the best thread running, or nobody if nobody can run; the
processing of pending locks keeps it so.
-/
namespace SdkPort.OSThread

open Runs (bind_eq_ok)

namespace Sched

variable {W : Prop} {X D H E : Set Addr} {a b c : Sched} {t u m : Addr} {q : QueueAddr} {n : Nat}

/-- The best thread runs, or nobody runs and nobody could. -/
def Scheduled (a : Sched) : Prop :=
  a.Best ∨ (∀ u, (a.tcb u).state ≠ .running) ∧ ∀ p, a.queue (.runQueue p) = []

theorem Scheduled.congr (h : Scheduled a) (hc : b.currentThread = a.currentThread)
    (hs : ∀ t, (b.tcb t).state = (a.tcb t).state) (hp : b.prio = a.prio) (hq : b.queue = a.queue) :
    Scheduled b := by
  rcases h with ⟨hr, hb⟩ | ⟨hn, he⟩
  · left
    refine ⟨?_, ?_⟩
    · rw [CurrentRuns, hc, hs]
      exact hr
    · rw [hc, hp, hq]
      exact hb
  · right
    refine ⟨fun u => ?_, ?_⟩
    · rw [hs]
      exact hn u
    · rw [hq]
      exact he

/-- The members of a run queue have its priority, which the bitmap can express. -/
theorem Core.run_le (h : Core X a) {p : Nat} (ht : t ∈ a.queue (.runQueue p)) : p ≤ 31 := by
  obtain ⟨hX, hs, h0, hp⟩ := h.of_mem_run ht
  rw [← hp]
  exact (h.placed t hX).awake h0 (.inl hs)

theorem Core.run_empty (h : Core X a) (hb : a.runQueueBits = 0) (p : Nat) :
    a.queue (.runQueue p) = [] := by
  by_contra hne
  obtain ⟨u, l, hl⟩ := List.exists_cons_of_ne_nil hne
  have hp := h.run_le (p := p) (t := u) (by simp [hl])
  have hbit := (h.bits p hp).mpr hne
  rw [hb, runBit_zero] at hbit
  cases hbit

/-- No queued thread is better than the index of the first bit. -/
theorem Core.cntlzw_le (h : Core X a) {p : Nat} (ht : t ∈ a.queue (.runQueue p)) :
    portCntlzw a.runQueueBits ≤ p := by
  have hbit := (h.bits p (h.run_le ht)).mpr (List.ne_nil_of_mem ht)
  have hne : a.runQueueBits ≠ 0 := by
    intro hz
    rw [hz, runBit_zero] at hbit
    cases hbit
  by_contra hlt
  rw [(cntlzw_spec hne).2.2 p (by omega)] at hbit
  cases hbit

theorem Core.scheduled_selectNext (h : Core ∅ a) (hi : Idle ∅ a) : Scheduled a.selectNext := by
  by_cases hb : a.runQueueBits = 0
  · right
    have he : a.selectNext = { a with currentThread := 0 } := by simp [Sched.selectNext, hb]
    rw [he]
    exact ⟨fun u => hi u (by simp), h.run_empty hb⟩
  · exact .inl (h.best_selectNext hi hb)

theorem Core.scheduled_selectThread (h : Core ∅ a) (hr : a.reschedule ≤ 0) (yield : Bool) :
    Scheduled (a.selectThread yield) := by
  unfold Sched.selectThread
  rw [if_neg (by omega)]
  split
  · rename_i hz
    apply h.scheduled_selectNext
    intro u hu hs
    have hslot := h.slot u (by simp [hs])
    rw [h.running u hu hs, hz] at hslot
    exact hslot.1 rfl
  split
  · rename_i hne hs
    have hp := (h.preempt (q := .null) (by simp) hs).1
    have hnext := hp.scheduled_selectNext h.idle_preempt
    split
    · exact hnext
    split
    · rename_i hle
      exact .inl ⟨⟨hne, hs⟩, fun p u hu => hle.trans (h.cntlzw_le hu)⟩
    · exact hnext
  · rename_i hs
    exact h.scheduled_selectNext (h.idle_of_current hs)

theorem Fit.scheduled_osReschedule (h : Fine True a) (hr : a.reschedule ≤ 0) :
    Scheduled a.osReschedule := by
  unfold Sched.osReschedule
  split
  · exact h.shape.core.scheduled_selectThread hr false
  · rename_i hh
    exact .inl ((h.hint trivial (by simpa using hh)).resolve_right (by simp))

theorem Core.scheduled_sleepThread (h : Core ∅ a) (hr : a.CurrentRuns) (hq : q.isWait)
    (h0 : a.reschedule ≤ 0) : Scheduled (a.sleepThread q) :=
  (h.enqueueCurrent (by simp) hr hq).scheduled_selectThread h0 false

theorem Fit.scheduled_wakeup (h : Fine True a) (hq : q.isWait) (hm : ∀ m, q ≠ .mutex m)
    (h0 : a.reschedule ≤ 0) : Scheduled (a.wakeupThread q) := by
  have hw := h.wakeAll hq fun m he => absurd he (hm m)
  have hmv := (h.shape.core.wakeAll hq rfl).2.1
  exact hw.scheduled_osReschedule (by rwa [hmv.reschedule])

theorem Fit.scheduled_resumeThread (h : Fine True a) (h1 : (a.tcb t).suspend = 1)
    (h0 : a.reschedule ≤ 0) (hb : a.resumeThread n t = .ok b) : Scheduled b := by
  have hq := h.quiet_resumeThread hb
  obtain ⟨dec, hdec, hb⟩ := bind_eq_ok.mp hb
  have hd := checkS32_eq hdec
  have hz : dec = 0 := by omega
  subst hz
  obtain ⟨c, hc, hb⟩ := bind_eq_ok.mp hb
  cases hb
  have hf := h.resumeRequeue h1 hc
  have hres := hf.shape.quiet_osReschedule.reschedule
  exact hf.scheduled_osReschedule (by rw [← hres, hq.reschedule]; exact h0)

theorem Fit.scheduled_suspendThread (h : Fine True a) (hz : (a.tcb t).suspend = 0)
    (h0 : a.reschedule ≤ 0) (hb : a.suspendThread n t = .ok b) : Scheduled b := by
  have hq := h.quiet_suspendThread hb
  obtain ⟨inc, hinc, hb⟩ := bind_eq_ok.mp hb
  have hi := checkS32_eq hinc
  rw [if_pos hz] at hb
  obtain ⟨c, hc, hb⟩ := bind_eq_ok.mp hb
  cases hb
  rw [hi, hz] at hc
  have hf := h.suspendRequeue hz hc
  have hres := hf.shape.quiet_osReschedule.reschedule
  exact hf.scheduled_osReschedule (by rw [← hres, hq.reschedule]; exact h0)

theorem Fit.scheduled_cancelThread (h : Fine True a) (hl : a.live t) (h0 : a.reschedule ≤ 0)
    (hb : a.cancelThread n t = .ok b) : Scheduled b := by
  have hq := h.cancelThread_buried hl hb
  obtain ⟨r, hr, hb⟩ := bind_eq_ok.mp hb
  rcases h.cancelUnlink hr with ⟨h1, ho⟩ | ⟨h1, h2⟩
  · rw [if_pos h1] at hb
    cases hb
    have hf := ho.fit.bury ho.used ho.quiet none
    have hres := hf.shape.quiet_osReschedule.reschedule
    exact hf.scheduled_osReschedule (by rw [← hres, hq.reschedule]; exact h0)
  · simp only [h1, h2] at hb
    cases hb
    exact absurd hl hq.dead

theorem Fit.scheduled_exitThread (h : Fine True a) (hr : a.CurrentRuns) (h0 : a.reschedule ≤ 0)
    (v : Nat) : Scheduled (a.exitThread v) := by
  have hout := h.outgoing hr
  have hbur := hout.bury (by simp [hr.2]) False.elim (some v)
  have hb := hout.buried (by simp [hr.2]) False.elim (some v)
  refine (hbur.shape.core.setHint true).scheduled_selectThread ?_ false
  change (a.bury a.currentThread (some v)).reschedule ≤ 0
  rwa [hb.reschedule]

theorem release_reschedule (a : Sched) (t m : Addr) : (a.release t m).reschedule = a.reschedule := by
  unfold Sched.release Sched.dropBoost
  split <;> rfl

/-- The last unlock of an owner wakes the waiters and reschedules. -/
theorem Fit.scheduled_unlockMutex (h : Fine True a) (hr : a.CurrentRuns)
    (hown : (a.mtx m).thread = a.currentThread) (h1 : (a.mtx m).count = 1) (h0 : a.reschedule ≤ 0)
    (hb : a.unlockMutex m = .ok b) : Scheduled b := by
  have hrel := h.release hr hown
  have hfree : ((a.release a.currentThread m).mtx m).thread = 0 := by
    unfold Sched.release Sched.dropBoost
    split <;> simp
  have hq := QueueAddr.mutex_isWait m
  have hwake := (hrel.wakeAll hq (by
    intro k hk t
    cases hk
    exact hrel.shape.not_owned hfree t)).fill (hrel.shape.core.wakeAll hq rfl).2.2.2
  have hmv := (hrel.shape.core.wakeAll hq rfl).2.1
  unfold Sched.unlockMutex at hb
  rw [if_pos hown] at hb
  obtain ⟨count, hc, hb⟩ := bind_eq_ok.mp hb
  have hz : count = 0 := by
    have := checkS32_eq hc
    omega
  rw [if_pos hz] at hb
  cases hb
  exact hwake.scheduled_osReschedule (by rwa [hmv.reschedule, release_reschedule])

theorem Fit.unlockMutex_reschedule (h : Fine W a) (hr : a.CurrentRuns)
    (hb : a.unlockMutex m = .ok b) : b.reschedule = a.reschedule := by
  unfold Sched.unlockMutex at hb
  split at hb
  · rename_i hown
    obtain ⟨count, _, hb⟩ := bind_eq_ok.mp hb
    split at hb
    · cases hb
      have hrel := (h.shape.release (by simp) hr hown).1
      rw [(hrel.quiet_wakeupThread (QueueAddr.mutex_isWait m)).reschedule, release_reschedule]
    · cases hb
      rfl
  · cases hb
    rfl

theorem restoreCount_frame (a : Sched) (t m : Addr) (v : Nat) :
    (a.restoreCount t m v).currentThread = a.currentThread ∧
      (∀ u, ((a.restoreCount t m v).tcb u).state = (a.tcb u).state) ∧
      (a.restoreCount t m v).prio = a.prio ∧ (a.restoreCount t m v).queue = a.queue ∧
      (a.restoreCount t m v).reschedule = a.reschedule := by
  unfold Sched.restoreCount
  split
  · refine ⟨rfl, fun u => ?_, ?_, rfl, rfl⟩
    · by_cases hu : u = t <;> simp [hu]
    · funext u
      by_cases hu : u = t <;> simp [Sched.prio, hu]
  · exact ⟨rfl, fun _ => rfl, rfl, rfl, rfl⟩

/-- A lock taken changes nothing the scheduler looks at; one refused puts the caller to
sleep and reschedules. -/
theorem Fit.scheduled_lockMutex (h : Fine True a) (hr : a.CurrentRuns) (hm : MutexAddr m)
    (hs : Scheduled a) (h0 : a.reschedule ≤ 0) (hb : a.lockMutex n m = .ok b) :
    Scheduled b ∧ b.reschedule = a.reschedule := by
  unfold Sched.lockMutex at hb
  split at hb
  · obtain ⟨c, _, hb⟩ := bind_eq_ok.mp hb
    cases hb
    exact ⟨hs.congr rfl (fun _ => rfl) rfl rfl, rfl⟩
  split at hb
  · obtain ⟨c, _, hb⟩ := bind_eq_ok.mp hb
    cases hb
    exact ⟨hs.congr rfl (fun _ => rfl) rfl rfl, rfl⟩
  · obtain ⟨c, hc, hb⟩ := bind_eq_ok.mp hb
    cases hb
    obtain ⟨hsb, hle, hsc, hrc⟩ := h.shape.promoted hr hm rfl hc
    have hrep := (hsb.core.promoteThread (fun _ hx => hx.elim) hle hc).2
    have hres : c.reschedule = a.reschedule := hrep.reschedule
    have hq := QueueAddr.mutex_isWait m
    refine ⟨hsc.core.scheduled_sleepThread hrc hq (by rwa [hres]), ?_⟩
    rw [(hsc.core.quiet_sleepThread (by simp) hrc hq).reschedule, hres]

theorem Fit.scheduled_processPendingLocks (h : Fine True a) (hs : Scheduled a)
    (h0 : a.reschedule ≤ 0) {k : Nat} (hb : Sched.processPendingLocks n k a = .ok b) :
    Scheduled b := by
  induction k generalizing a with
  | zero => cases hb
  | succ k ih =>
    unfold Sched.processPendingLocks at hb
    cases hp : a.pendingLock with
    | none =>
      rw [hp] at hb
      cases hb
      exact hs
    | some p =>
      rw [hp] at hb
      obtain ⟨c, hc, hb⟩ := bind_eq_ok.mp hb
      have hf := h.retryLock hp hc
      obtain ⟨hr, hp₁, hp₂, hp0⟩ := pendingLock_eq hp
      have hm : MutexAddr p.2 := by
        rw [hp₂] at hp0 ⊢
        exact h.shape.pending _ hp0
      obtain ⟨d, hd, hc⟩ := bind_eq_ok.mp hc
      cases hc
      rw [hp₁] at hd hf hb
      obtain ⟨hsc, hrc⟩ := h.shape.cleared hr
      have hsm : Scheduled (a.modT a.currentThread ({ · with mutex := 0 })) := by
        refine hs.congr rfl (fun u => ?_) ?_ rfl
        · by_cases hu : u = a.currentThread <;> simp [hu]
        · funext u
          by_cases hu : u = a.currentThread <;> simp [Sched.prio, hu]
      obtain ⟨hsd, hres⟩ := (h.clearPending hr).scheduled_lockMutex hrc hm hsm h0 hd
      obtain ⟨h₁, h₂, h₃, h₄, h₅⟩ := restoreCount_frame d a.currentThread p.2
        (a.tcb a.currentThread).val
      exact ih hf (hsd.congr h₁ h₂ h₃ h₄) (by rw [h₅, hres]; exact h0) hb

end Sched

open Sched (Fine)

variable {s s' : St} {a b : Sched} {n : Nat} {o : Op} {ph : Phase}

/-- The current thread runs and no queued thread is better. -/
def St.Best (s : St) : Prop :=
  s.Running ∧ ∀ p u, u ∈ s.members (.runQueue p) → s.prio s.currentThread ≤ s.prio u

/-- The best thread runs, or nobody runs and all run queues are empty. -/
def St.Scheduled (s : St) : Prop :=
  s.Best ∨ (∀ t, (s.thr t).state ≠ .running) ∧ ∀ p, s.members (.runQueue p) = []

/-- The calls that reschedule: resuming and suspending for real, sleeping, waking,
yielding, ending a thread, and the last unlock of an owner. -/
def Op.Reschedules (s : St) : Op → Prop
  | .resume t => s.live t ∧ (s.thr t).suspend = 1
  | .suspend t => s.live t ∧ (s.thr t).suspend = 0
  | .sleep _ | .wakeup _ | .yield | .exit _ => True
  | .cancel t => s.live t
  | .unlock m => (s.mtx m).thread = s.currentThread ∧ (s.mtx m).count = 1
  | _ => False

theorem Rep.best (h : Rep s a) (hs : a.Sound) : s.Best ↔ a.Best := by
  unfold St.Best Sched.Best
  rw [h.running, h.prio, h.current]
  simp only [h.members hs]
  constructor
  · rintro ⟨hr, hb⟩
    exact ⟨hr, fun p u hu => (hs.core.of_mem_run hu).2.2.2 ▸ hb p u hu⟩
  · rintro ⟨hr, hb⟩
    exact ⟨hr, fun p u hu => (hs.core.of_mem_run hu).2.2.2.symm ▸ hb p u hu⟩

theorem Rep.scheduled (h : Rep s a) (hs : a.Sound) (ha : a.Scheduled) : s.Scheduled := by
  rcases ha with hb | ⟨hn, he⟩
  · exact .inl ((h.best hs).mpr hb)
  · right
    refine ⟨fun t => ?_, fun p => ?_⟩
    · rw [h.tcb]
      exact hn t
    · rw [h.members hs]
      exact he p

/-- What a rescheduling call leaves behind. -/
theorem Rep.scheduled_apply (h : Rep s a) (hf : Fine True a) (hg : o.Guarded s)
    (ho : o.Reschedules s) (h0 : a.reschedule ≤ 0) (hb : a.apply n o = .ok b) :
    b.Scheduled ∧ b.reschedule ≤ 0 := by
  have hc := hf.shape.core
  cases o with
  | resume t =>
    have h1 : (a.tcb t).suspend = 1 := h.tcb t ▸ ho.2
    rw [(hf.quiet_resumeThread hb).reschedule]
    exact ⟨hf.scheduled_resumeThread h1 h0 hb, h0⟩
  | suspend t =>
    have hz : (a.tcb t).suspend = 0 := h.tcb t ▸ ho.2
    rw [(hf.quiet_suspendThread hb).reschedule]
    exact ⟨hf.scheduled_suspendThread hz h0 hb, h0⟩
  | cancel t =>
    have hl := (h.live t).mp ho
    rw [(hf.cancelThread_buried hl hb).reschedule]
    exact ⟨hf.scheduled_cancelThread hl h0 hb, h0⟩
  | yield =>
    cases hb
    have hq := (hc.selectThread (q := .null) (by simp) true).2.quiet
    exact ⟨hc.scheduled_selectThread h0 true, hq.reschedule.trans_le h0⟩
  | exit v =>
    cases hb
    have hr := h.running.mp hg
    exact ⟨hf.scheduled_exitThread hr h0 v, (hf.exitThread_buried hr v).reschedule.trans_le h0⟩
  | sleep i =>
    cases hb
    have hr := h.running.mp hg
    have hq := hc.quiet_sleepThread (q := .waitQueue i) (by simp) hr trivial
    exact ⟨hc.scheduled_sleepThread hr trivial h0, hq.reschedule.trans_le h0⟩
  | wakeup i =>
    cases hb
    have hq := hf.shape.quiet_wakeupThread (q := .waitQueue i) trivial
    exact ⟨hf.scheduled_wakeup trivial (by simp) h0, hq.reschedule.trans_le h0⟩
  | unlock m =>
    have hr := h.running.mp hg.1
    have hown : (a.mtx m).thread = a.currentThread := by
      rw [← h.mtx, ← h.current]
      exact ho.1
    have h1 : (a.mtx m).count = 1 := h.mtx m ▸ ho.2
    exact ⟨hf.scheduled_unlockMutex hr hown h1 h0 hb, by
      rw [hf.unlockMutex_reschedule hr hb]
      exact h0⟩
  | _ => exact ho.elim

/-- No missed preemption, after the call and again after the pending locks. -/
theorem reached_scheduled (h : Reached NoCondWait ph s) :
    (s.runQueueHint = false → s.Best) ∧
      (ph = .idle → ∀ (o : Op) (n : Nat) (s₁ : St), o.Guarded s → o.Reschedules s →
        s.reschedule ≤ 0 → o.exec n s = .ok ((), s₁) → s₁.Scheduled ∧
          ∀ (k l : Nat) (s₂ : St), portProcessPendingLocks k l s₁ = .ok ((), s₂) →
            s₂.Scheduled) := by
  obtain ⟨a, ha⟩ := h.represents (W := True) fun _ _ _ hp => hp
  have hs := ha.fine.shape
  refine ⟨?_, ?_⟩
  · intro hh
    refine (ha.rep.best hs).mpr ((ha.fine.hint trivial ?_).resolve_right (by simp))
    rw [← ha.rep.hint]
    exact hh
  · intro hp o n s₁ hg ho h0 hx
    have hW : ¬ o.Parks s := by
      cases o <;> first | exact id | exact ho.elim
    obtain ⟨b, hb, hrep⟩ := ha.apply (fun _ => hp) hg (fun _ => hW) hx
    have hres : a.reschedule ≤ 0 := ha.rep.reschedule ▸ h0
    obtain ⟨hsb, hrb⟩ := ha.rep.scheduled_apply ha.fine hg ho hres hb
    refine ⟨hrep.rep.scheduled hrep.fine.shape hsb, ?_⟩
    intro k l s₂ hl
    obtain ⟨c, hc, hrep'⟩ := hrep.locks hl
    exact hrep'.rep.scheduled hrep'.fine.shape (hrep.fine.scheduled_processPendingLocks hsb hrb hc)

theorem contention_scheduled : ∃ s, bootTrial NoCondWait 40 contention = some s ∧
    (s.runQueueHint = false → s.Best) ∧
      ∀ (o : Op) (n : Nat) (s₁ : St), o.Guarded s → o.Reschedules s →
        s.reschedule ≤ 0 → o.exec n s = .ok ((), s₁) → s₁.Scheduled ∧
          ∀ (k l : Nat) (s₂ : St), portProcessPendingLocks k l s₁ = .ok ((), s₂) →
            s₂.Scheduled := by
  obtain ⟨s, hs, -⟩ := contention_runs
  obtain ⟨h₁, h₂⟩ := reached_scheduled (reached_bootTrial hs)
  exact ⟨s, hs, h₁, h₂ rfl⟩

end SdkPort.OSThread
