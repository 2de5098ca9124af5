import SdkPort.OS.SchedFit

/-!
# Locking and unlocking

A thread that finds a mutex taken promotes the owner and sleeps; an owner that
lets go gives up the boost it had from the waiters it wakes.
-/
namespace SdkPort.OSThread.Sched

open Inherit (demands Settled)
open Runs (bind_eq_ok)

variable {W V : Prop} {X D H E : Set Addr} {a b : Sched} {t u w m : Addr} {q : QueueAddr} {n : Nat}

theorem CurrentRuns.not_mem_wait (hr : a.CurrentRuns) (h : Core X a) (hq : q.isWait) :
    a.currentThread ∉ a.queue q := by
  intro hm
  have := ((h.mem_wait hq).mp hm).2.1
  rw [hr.2] at this
  cases this

theorem CurrentRuns.not_blocks (hr : a.CurrentRuns) (h : Core X a) (t : Addr) :
    ¬ a.blocks a.currentThread t := by
  intro hb
  obtain ⟨m, _, hm⟩ := hb
  exact hr.not_mem_wait h (QueueAddr.mutex_isWait m) hm

theorem CurrentRuns.not_suspended (hr : a.CurrentRuns) (h : Core X a) (hX : a.currentThread ∉ X) :
    ¬ a.suspended a.currentThread := by
  have := (h.placed _ hX).running hr.2
  simp only [suspended, this]
  omega

theorem CurrentRuns.live (hr : a.CurrentRuns) : a.live a.currentThread := by
  simp [Sched.live, hr.2]

theorem CurrentRuns.prio_le (hr : a.CurrentRuns) (h : Core X a) (hX : a.currentThread ∉ X) :
    a.prio a.currentThread ≤ 31 :=
  (h.placed _ hX).awake ((h.placed _ hX).running hr.2) (.inr (.inl hr.2))

/-- A thread that does not wait may name any mutex. -/
theorem Waits.modT (h : Waits X a) {g : Tcb → Tcb} (hs : (g (a.tcb t)).state ≠ .waiting) :
    Waits X (a.modT t g) := by
  intro u hX hw h0
  by_cases he : u = t
  · subst he
    simp only [modT_tcb, Function.update_self] at hw
    exact absurd hw hs
  · simp only [modT_tcb, Function.update_of_ne he] at hw h0 ⊢
    exact h u hX hw h0

/-- Words that matter neither to priorities nor to the scheduler. -/
theorem Fit.modWords (h : Fit W V X D H E a) {g : Tcb → Tcb} (hg : SameStand (a.tcb t) (g (a.tcb t)))
    (hm : (g (a.tcb t)).mutex ≠ 0 → MutexAddr (g (a.tcb t)).mutex)
    (hw : (a.tcb t).state = .waiting → (g (a.tcb t)).mutex = (a.tcb t).mutex) :
    Fit W V X D H E (a.modT t g) := by
  have hst : ∀ u, SameStand (a.tcb u) ((a.modT t g).tcb u) := by
    intro u
    by_cases he : u = t
    · subst he
      simpa using hg
    · have hs := (h.shape.core.bounded u).suspend
      simpa [he] using SameStand.mk rfl rfl rfl rfl hs Iff.rfl
  have hmut : ∀ u, (a.tcb u).state = .waiting → ((a.modT t g).tcb u).mutex = (a.tcb u).mutex := by
    intro u hs
    by_cases he : u = t
    · subst he
      simpa using hw hs
    · simp [he]
  have hsus : ∀ u, (a.modT t g).suspended u ↔ a.suspended u := by
    intro u
    have h₁ := (hst u).suspend
    have h₂ := (hst u).suspended
    have h₃ := (h.shape.core.bounded u).suspend
    simp only [suspended]
    omega
  have hlive : ∀ u, (a.modT t g).live u ↔ a.live u := by
    intro u
    simp only [Sched.live, (hst u).state]
  refine ⟨?_, ?_, ?_, ?_⟩
  · apply h.shape.congr (h.shape.core.modWords hg) rfl (fun _ => rfl) (fun u => (hlive u).mpr)
    · intro u
      by_cases he : u = t
      · subst he
        simpa using hm
      · simpa [he] using h.shape.pending u
    · intro k u hu
      have hs := ((h.shape.core.mem_wait (QueueAddr.mutex_isWait k)).mp hu).2.1
      exact ⟨hu, hmut u hs⟩
  · intro hw u hX hs h0
    rw [(hst u).state] at hs
    rw [hmut u hs] at h0 ⊢
    rw [(hst u).queue]
    exact h.waits hw u hX hs h0
  · intro hw
    refine Exact.congr (b := a.modT t g) (h.exact hw) (fun _ _ => Iff.rfl) ?_ ?_
    · exact fun u hu hl hn => ⟨hu, (hlive u).mp hl, fun hx => hn ((hsus u).mpr hx), (hst u).base,
        (hst u).priority⟩
    · exact fun w _ _ => (hst w).priority
  · intro hv hf
    rcases h.hint hv hf with hbest | ⟨m, hm', u, hu, hs'⟩
    · left
      refine ⟨⟨hbest.1.1, (hst a.currentThread).state.trans hbest.1.2⟩, ?_⟩
      intro p u hu
      exact (hst a.currentThread).priority.trans_le (hbest.2 p u hu)
    · exact .inr ⟨m, hm', u, hu, fun hx => hs' ((hsus u).mp hx)⟩

theorem Fit.modM (h : Fit W V X D H E a) {g : MutexCore → MutexCore}
    (hg : (g (a.mtx m)).thread = (a.mtx m).thread) : Fit W V X D H E (a.modM m g) :=
  ⟨h.shape.modCount hg, h.waits, h.exact, h.hint⟩

theorem Fit.acquire (h : Fit W V X D H E a) (hr : a.CurrentRuns) (hm : MutexAddr m) (hH : m ∉ H)
    (h0 : (a.mtx m).thread = 0) (hb : a.acquire a.currentThread m = .ok b) : Fit W V X D H E b := by
  have hs := h.shape.acquire hr hm hH h0 hb
  have hnil := h.shape.queue_free hH h0
  obtain ⟨count, _, hb⟩ := bind_eq_ok.mp hb
  cases hb
  refine ⟨hs, h.waits, ?_, h.hint⟩
  intro hw
  apply (h.exact hw).congr
  · intro w u
    by_cases he : u = a.currentThread
    · subst he
      constructor
      · rintro ⟨k, hk, hwk⟩
        simp only [setOwned_owned, Function.update_self, List.mem_append, List.mem_singleton] at hk
        rcases hk with hk | rfl
        · exact ⟨k, hk, hwk⟩
        · change w ∈ a.queue _ at hwk
          rw [hnil] at hwk
          cases hwk
      · rintro ⟨k, hk, hwk⟩
        exact ⟨k, by simp [hk], hwk⟩
    · simp [Sched.blocks, he]
  · exact fun u hu hl hn => ⟨hu, hl, hn, rfl, rfl⟩
  · exact fun _ _ _ => rfl

theorem Fit.relock (h : Fit W V X D H E a) (hb : a.relock m = .ok b) : Fit W V X D H E b := by
  obtain ⟨count, _, hb⟩ := bind_eq_ok.mp hb
  cases hb
  exact h.modM rfl

/-- Sleeping on a queue other than that of a mutex. -/
theorem Fit.sleepThread (h : Fit W V X D H E a) (hX : a.currentThread ∉ X) (hr : a.CurrentRuns)
    (hq : q.isWait) (hm : ∀ m, q ≠ .mutex m) (h0 : W → (a.tcb a.currentThread).mutex = 0) :
    Fit W V X D H E (a.sleepThread q) := by
  have hs := h.shape.enqueueCurrent hX hr hq (fun k hk => absurd hk (hm k))
  refine Fit.osReschedule (a := a.enqueueCurrent q) ?_ hX
  refine ⟨hs, ?_, ?_, fun _ hf => by simp [Sched.enqueueCurrent] at hf⟩
  · intro hw u hu hst hne
    by_cases he : u = a.currentThread
    · subst he
      simp [Sched.enqueueCurrent, h0 hw] at hne
    · simp only [Sched.enqueueCurrent, setHint_tcb, addPrio_tcb, modT_tcb,
        Function.update_of_ne he] at hst hne ⊢
      exact h.waits hw u hu hst hne
  · intro hw
    apply (h.exact hw).congr
    · intro v u
      have : ∀ k, (a.enqueueCurrent q).queue (.mutex k) = a.queue (.mutex k) := by
        intro k
        simp [Sched.enqueueCurrent, Ne.symm (hm k)]
      simp only [Sched.blocks, this]
      rfl
    · intro u hu hl hn
      by_cases he : u = a.currentThread
      · subst he
        exact ⟨hu, hr.live, hr.not_suspended h.shape.core hX, by simp [Sched.base, Sched.enqueueCurrent],
          by simp [Sched.prio, Sched.enqueueCurrent]⟩
      · refine ⟨hu, by simpa [Sched.live, Sched.enqueueCurrent, he] using hl,
          by simpa [suspended, Sched.enqueueCurrent, he] using hn,
          by simp [Sched.base, Sched.enqueueCurrent, he],
          by simp [Sched.prio, Sched.enqueueCurrent, he]⟩
    · intro v u hv
      by_cases he : v = a.currentThread
      · subst he
        simp [Sched.prio, Sched.enqueueCurrent]
      · simp [Sched.prio, Sched.enqueueCurrent, he]

/-- Once the owner and its chain are promoted, the sleeper blocks it. -/
theorem Exact.enqueueCurrent {o : Addr} (hs : Shape ∅ ∅ ∅ a) (hr : a.CurrentRuns)
    (ho : (a.mtx m).thread = o) (h0 : o ≠ 0) (he : Promoted a.currentThread o a) :
    Exact ∅ (a.enqueueCurrent (.mutex m)) := by
  have hprio : ∀ u, (a.enqueueCurrent (.mutex m)).prio u = a.prio u := by
    intro u
    by_cases he : u = a.currentThread
    · subst he
      simp [Sched.prio, Sched.enqueueCurrent]
    · simp [Sched.prio, Sched.enqueueCurrent, he]
  have hblk : ∀ w u, (a.enqueueCurrent (.mutex m)).blocks w u ↔
      a.blocks w u ∨ (w = a.currentThread ∧ u = o) := by
    intro w u
    have hmo := hs.owned u
    constructor
    · intro hb
      obtain ⟨k, hk, hw⟩ := hb
      change k ∈ a.owned u at hk
      by_cases hkm : k = m
      · subst hkm
        have hw' : w = a.currentThread ∨ w ∈ a.queue (.mutex k) := by
          simpa [Sched.enqueueCurrent] using hw
        rcases hw' with rfl | hw'
        · exact .inr ⟨rfl, ((hmo k).mp hk).2.symm.trans ho⟩
        · exact .inl ⟨k, hk, hw'⟩
      · have hne : QueueAddr.mutex k ≠ .mutex m := by simpa using hkm
        exact .inl ⟨k, hk, by simpa [Sched.enqueueCurrent, hne] using hw⟩
    · intro hb
      rcases hb with ⟨k, hk, hw⟩ | ⟨rfl, rfl⟩
      · refine ⟨k, hk, ?_⟩
        by_cases hkm : k = m
        · subst hkm
          simp [Sched.enqueueCurrent, hw]
        · simpa [Sched.enqueueCurrent, hkm] using hw
      · exact ⟨m, (hmo m).mpr ⟨h0, ho⟩, by simp [Sched.enqueueCurrent]⟩
  intro u _ hl hn
  have hlive : a.live u := by
    by_cases he : u = a.currentThread
    · subst he
      exact hr.live
    · simpa [Sched.live, Sched.enqueueCurrent, he] using hl
  have hsus : ¬ a.suspended u := by
    by_cases he : u = a.currentThread
    · subst he
      exact hr.not_suspended hs.core (by simp)
    · simpa [suspended, Sched.enqueueCurrent, he] using hn
  apply (he u hlive hsus).congr
  · by_cases he : u = a.currentThread
    · subst he
      simp [Sched.base, Sched.enqueueCurrent]
    · simp [Sched.base, Sched.enqueueCurrent, he]
  · exact hprio u
  · exact fun w => hblk w u
  · exact fun w _ => hprio w

/-- The caller of a lock has named the mutex and handed its priority on. It still runs. -/
theorem Fit.promoted (h : Fine W a) (hr : a.CurrentRuns) (hm : MutexAddr m) {a₁ c : Sched}
    (ha₁ : a₁ = a.modT a.currentThread ({ · with mutex := m }))
    (hc : Sched.promoteThread (a₁.prio a₁.currentThread) n a₁ t = .ok c) :
    Fine W a₁ ∧ a₁.prio a₁.currentThread ≤ 31 ∧ Core ∅ c ∧ Reprio a₁ c ∧ c.CurrentRuns := by
  have h₁ : Fine W a₁ := by
    rw [ha₁]
    exact h.modWords ⟨rfl, rfl, rfl, rfl, (h.shape.core.bounded _).suspend, Iff.rfl⟩ (fun _ => hm) (by simp [hr.2])
  have hr₁ : a₁.CurrentRuns := by
    rw [ha₁]
    exact ⟨hr.1, by simp [hr.2]⟩
  have hp31 := hr₁.prio_le h₁.shape.core (by simp)
  obtain ⟨hcc, hrep⟩ := h₁.shape.core.promoteThread (fun _ hx => hx.elim) hp31 hc
  refine ⟨h₁, hp31, hcc, hrep, ?_⟩
  rw [CurrentRuns, hrep.current, hrep.state]
  exact hr₁

theorem Fit.blockOn (h : Fine W a) (hr : a.CurrentRuns) (hm : MutexAddr m)
    (h0 : (a.mtx m).thread ≠ 0) (hne : (a.mtx m).thread ≠ a.currentThread)
    (hb : a.blockOn n m = .ok b) : Fine W b := by
  obtain ⟨c, hc, hb⟩ := bind_eq_ok.mp hb
  cases hb
  set a₁ := a.modT a.currentThread ({ · with mutex := m }) with ha₁
  obtain ⟨h₁, hp31, hcc, hrep, hrc⟩ := h.promoted hr hm ha₁ hc
  have hs := h₁.shape.reprio hcc hrep
  have hcur : c.currentThread = a.currentThread := hrep.current
  have hmut : (c.tcb c.currentThread).mutex = m := by
    rw [hcur, hrep.mutex]
    simp [ha₁]
  have hown : (c.mtx m).thread = (a.mtx m).thread := by
    rw [hrep.mtx]
    rfl
  have hse : Shape ∅ ∅ ∅ (c.enqueueCurrent (.mutex m)) := by
    apply hs.enqueueCurrent (by simp) hrc (QueueAddr.mutex_isWait m)
    intro k hk
    cases hk
    rw [hown, hcur]
    exact ⟨by rw [← hcur]; exact hmut, h0, hne⟩
  refine Fit.osReschedule (a := c.enqueueCurrent (.mutex m)) ?_ (by simp)
  refine ⟨hse, ?_, ?_, fun _ hf => by simp [Sched.enqueueCurrent] at hf⟩
  · intro hw u hu hst hne'
    by_cases he : u = c.currentThread
    · subst he
      simp [Sched.enqueueCurrent, hmut]
    · simp only [Sched.enqueueCurrent, setHint_tcb, addPrio_tcb, modT_tcb,
        Function.update_of_ne he] at hst hne' ⊢
      exact (h₁.waits hw).reprio hrep u hu hst hne'
  · intro hw
    apply Exact.enqueueCurrent hs hrc hown h0
    rw [hcur]
    exact (Promoting.promoteThread hp31 h₁.shape (h₁.waits hw)
      ((h₁.exact hw).promoting a.currentThread _) hc).1

theorem Fit.lockMutex (h : Fine W a) (hr : a.CurrentRuns) (hm : MutexAddr m)
    (hb : a.lockMutex n m = .ok b) : Fine W b := by
  unfold Sched.lockMutex at hb
  split at hb
  · rename_i h0
    exact h.acquire hr hm (by simp) h0 hb
  split at hb
  · exact h.relock hb
  · rename_i h0 hne
    exact h.blockOn hr hm h0 hne hb

theorem Fit.tryLockMutex (h : Fine W a) (hr : a.CurrentRuns) (hm : MutexAddr m)
    (hb : a.tryLockMutex m = .ok b) : Fine W b := by
  unfold Sched.tryLockMutex at hb
  split at hb
  · rename_i h0
    exact h.acquire hr hm (by simp) h0 hb
  split at hb
  · exact h.relock hb
  · cases hb
    exact h

theorem disown_blocks (t m w u : Addr) :
    (a.disown t m).blocks w u → a.blocks w u := by
  intro hb
  obtain ⟨k, hk, hw⟩ := hb
  refine ⟨k, ?_, hw⟩
  by_cases he : u = t
  · subst he
    exact List.mem_of_mem_erase (by simpa using hk)
  · simpa [he] using hk

theorem disown_blocks_other (t m : Addr) (h : u ≠ t) :
    (a.disown t m).blocks w u ↔ a.blocks w u := by
  simp [Sched.blocks, h]

/-- The best demand on the owner is unchanged unless it came from a waiter that is
about to be woken. -/
theorem Shape.disown_isLeast (h : Shape X D H a) (hX : a.currentThread ∉ X) (hr : a.CurrentRuns)
    (hs : Settled a.blocks a.base a.prio a.currentThread)
    (hall : ∀ u ∈ a.queue (.mutex m), a.suspended u) :
    IsLeast (demands (a.disown a.currentThread m).blocks a.base a.prio a.currentThread)
      (a.prio a.currentThread) := by
  constructor
  · rcases hs.1 with he | ⟨w, ⟨k, hk, hw⟩, he⟩
    · exact .inl he
    · refine .inr ⟨w, ⟨k, ?_, hw⟩, he⟩
      have hkm : k ≠ m := by
        intro hkm
        subst hkm
        obtain ⟨hwX, hst, _⟩ := (h.core.mem_wait (QueueAddr.mutex_isWait k)).mp hw
        have h32 : a.prio w = 32 := (h.core.placed w hwX).parked hst (hall w hw)
        have := hr.prio_le h.core hX
        omega
      simpa [(h.nodup _).mem_erase_iff, hkm] using hk
  · intro x hx
    rcases hx with rfl | ⟨w, hw, rfl⟩
    · exact hs.le_base
    · exact hs.le_blocker (disown_blocks _ _ _ _ hw)

theorem Exact.release (h : Exact ∅ a) (hs : Shape ∅ D H a) (hr : a.CurrentRuns)
    (hm : (a.mtx m).thread = a.currentThread) : Exact ∅ (a.release a.currentThread m) := by
  have hX : a.currentThread ∉ (∅ : Set Addr) := by simp
  have hd := hs.disown ((hs.owned a.currentThread m).mpr ⟨hr.1, hm⟩)
  have hrd : (a.disown a.currentThread m).CurrentRuns := hr
  have hle := hd.core.effectivePriority_isLeast a.currentThread
  have hset := h a.currentThread hX hr.live (hr.not_suspended hs.core hX)
  have hother : ∀ u, u ≠ a.currentThread → a.live u → ¬ a.suspended u →
      Settled (a.disown a.currentThread m).blocks a.base a.prio u := by
    intro u hu hl hn
    exact (h u (by simp) hl hn).congr rfl rfl (fun w => disown_blocks_other _ _ hu) (fun _ _ => rfl)
  unfold Sched.release Sched.dropBoost
  split
  · have hpr : ((a.disown a.currentThread m).modT a.currentThread ({ · with
        priority := (a.disown a.currentThread m).effectivePriority a.currentThread })).prio =
        Function.update a.prio a.currentThread
          ((a.disown a.currentThread m).effectivePriority a.currentThread) := by
      funext u
      by_cases he : u = a.currentThread <;> simp [Sched.prio, he]
    have hba : ((a.disown a.currentThread m).modT a.currentThread ({ · with
        priority := (a.disown a.currentThread m).effectivePriority a.currentThread })).base =
        a.base := by
      funext u
      by_cases he : u = a.currentThread <;> simp [Sched.base, he]
    intro u _ hl hn
    rw [hpr, hba]
    have hnb : ¬ (a.disown a.currentThread m).blocks a.currentThread u := hrd.not_blocks hd.core u
    by_cases he : u = a.currentThread
    · subst he
      exact Inherit.settled_set hle hnb
    · apply Settled.set_other _ he hnb
      apply hother u he
      · simpa [Sched.live, he] using hl
      · simpa [suspended, he] using hn
  · rename_i hge
    intro u _ hl hn
    by_cases he : u = a.currentThread
    · subst he
      have hb : a.prio a.currentThread = a.base a.currentThread := by
        have := hset.le_base
        simp only [Sched.base, Sched.prio, disown_tcb, not_lt] at this hge ⊢
        omega
      refine ⟨.inl hb, ?_⟩
      intro x hx
      rcases hx with rfl | ⟨w, hw', rfl⟩
      · exact hset.le_base
      · exact hset.le_blocker (disown_blocks _ _ _ _ hw')
    · exact hother u he hl hn

theorem release_suspended (a : Sched) (t m u : Addr) : (a.release t m).suspended u ↔ a.suspended u := by
  unfold Sched.release Sched.dropBoost
  split
  · by_cases he : u = t
    · simp [suspended, he]
    · simp [suspended, he]
  · rfl

/-- The running thread stays the best one, unless it freed a mutex that somebody awake waits for. -/
theorem Hinted.release (h : Hinted H a) (hx : Exact ∅ a) (hs : Shape ∅ D H a) (hr : a.CurrentRuns)
    (hm : (a.mtx m).thread = a.currentThread) : Hinted (insert m H) (a.release a.currentThread m) := by
  have hX : a.currentThread ∉ (∅ : Set Addr) := by simp
  have hd := hs.disown ((hs.owned a.currentThread m).mpr ⟨hr.1, hm⟩)
  have hle := hd.core.effectivePriority_isLeast a.currentThread
  intro hf
  have hfa : a.runQueueHint = false := by
    revert hf
    unfold Sched.release Sched.dropBoost
    split <;> exact id
  have hcur : (a.release a.currentThread m).currentThread = a.currentThread := by
    unfold Sched.release Sched.dropBoost
    split <;> rfl
  have hqueue : (a.release a.currentThread m).queue = a.queue := by
    unfold Sched.release Sched.dropBoost
    split <;> rfl
  rcases h hfa with hbest | ⟨k, hk, u, hu, hn⟩
  · by_cases hall : ∀ u ∈ a.queue (.mutex m), a.suspended u
    · left
      have hset := hx a.currentThread hX hr.live (hr.not_suspended hs.core hX)
      have heq := (hs.disown_isLeast hX hr hset hall).unique hle
      have hpr : (a.release a.currentThread m).prio a.currentThread = a.prio a.currentThread := by
        unfold Sched.release Sched.dropBoost
        split
        · simp [Sched.prio, ← heq]
        · rfl
      refine ⟨(hs.release hX hr hm).2, ?_⟩
      intro p u hu
      rw [hcur, hpr]
      rw [hqueue] at hu
      exact hbest.2 p u hu
    · right
      simp only [not_forall] at hall
      obtain ⟨u, hu, hn⟩ := hall
      exact ⟨m, by simp, u, by rwa [hqueue], fun hx => hn ((a.release_suspended _ m u).mp hx)⟩
  · exact .inr ⟨k, by simp [hk], u, by rwa [hqueue], fun hx => hn ((a.release_suspended _ m u).mp hx)⟩

theorem Fit.release (h : Fit W W ∅ D H ∅ a) (hr : a.CurrentRuns)
    (hm : (a.mtx m).thread = a.currentThread) :
    Fit W W ∅ D (insert m H) ∅ (a.release a.currentThread m) := by
  have hs := h.shape
  refine ⟨(hs.release (Set.notMem_empty _) hr hm).1, ?_, fun hw => (h.exact hw).release hs hr hm,
    fun hw => (h.hint hw).release (h.exact hw) hs hr hm⟩
  intro hw
  unfold Sched.release Sched.dropBoost
  split
  · refine Waits.modT (a := a.disown a.currentThread m) (h.waits hw) ?_
    simp [hr.2]
  · exact h.waits hw

theorem Fit.unlockMutex (h : Fine W a) (hr : a.CurrentRuns) (hb : a.unlockMutex m = .ok b) :
    Fine W b := by
  unfold Sched.unlockMutex at hb
  split at hb
  · rename_i hm
    obtain ⟨count, _, hb⟩ := bind_eq_ok.mp hb
    split at hb
    · cases hb
      apply (h.release hr hm).wakeupMutex (by simp)
      unfold Sched.release Sched.dropBoost
      split <;> simp
    · cases hb
      exact h.modM rfl
  · cases hb
    exact h

end SdkPort.OSThread.Sched
