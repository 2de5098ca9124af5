import SdkPort.OS.WaveEnds
import SdkPort.OS.Cancel
import SdkPort.OS.Depth

/-!
# Pending locks end

Each pending lock that is retried is granted, or puts the running thread to sleep. So
there are no more retries than threads, and the counts cannot overflow on the way: a free
mutex has count 0 and no thread names a mutex that it owns.
-/
namespace SdkPort.OSThread

namespace Sched

open Runs (bind_eq_ok)

variable {W : Prop} {X : Set Addr} {a b c : Sched} {t u m : Addr} {n k : Nat} {o : Op}

/-- A lock that a thread still has to get can be counted when it is granted. -/
structure Grantable (a : Sched) : Prop where
  free : ∀ m, (a.mtx m).thread = 0 → (a.mtx m).count = 0
  named : ∀ t, t ≠ 0 → a.live t → (a.tcb t).mutex ≠ 0 → (a.mtx (a.tcb t).mutex).thread ≠ t

namespace Grantable

theorem congr (h : a.Grantable) (hm : b.mtx = a.mtx) (ht : b.tcb = a.tcb) : b.Grantable := by
  refine ⟨by rw [hm]; exact h.free, fun t h0 hl => ?_⟩
  rw [Sched.live, ht] at hl
  rw [ht, hm]
  exact h.named t h0 hl

theorem quiet (h : a.Grantable) (hq : Quiet a b) : b.Grantable := by
  refine ⟨by rw [hq.mtx]; exact h.free, fun t h0 hl => ?_⟩
  rw [(hq.words t hl).2, hq.mtx]
  exact h.named t h0 (hq.live t hl)

/-- Mutexes may be released while the words of threads stay. -/
theorem released (h : a.Grantable) (hl : ∀ t, b.live t → a.live t)
    (hw : ∀ t, b.live t → (b.tcb t).mutex = (a.tcb t).mutex)
    (hm : ∀ m, b.mtx m = ⟨0, 0⟩ ∨ b.mtx m = a.mtx m) : b.Grantable := by
  constructor
  · intro m h0
    rcases hm m with he | he
    · rw [he]
    · rw [he] at h0 ⊢
      exact h.free m h0
  · intro t h0 hlt
    rw [hw t hlt]
    intro hne
    rcases hm (a.tcb t).mutex with he | he
    · rw [he]
      exact h0.symm
    · rw [he]
      exact h.named t h0 (hl t hlt) hne

theorem buried (h : a.Grantable) (hb : Buried t a b) : b.Grantable := by
  refine h.released hb.live (fun u hu => (hb.words u hu).2) fun m => ?_
  rw [hb.released]
  split
  · exact .inl rfl
  · exact .inr rfl

/-- A mutex changes, and its owner names none. -/
theorem own (h : a.Grantable) (ht : t ≠ 0) (h0 : (a.tcb t).mutex = 0) (i : Int) :
    (a.modM m fun _ => ⟨t, i⟩).Grantable := by
  constructor
  · intro k hk
    by_cases hkm : k = m
    · subst hkm
      exact absurd (by simpa using hk) ht
    · simpa [hkm] using h.free k (by simpa [hkm] using hk)
  · intro u hu hl hne
    have hne' : (a.tcb u).mutex ≠ 0 := hne
    by_cases hkm : (a.tcb u).mutex = m
    · have hut : t ≠ u := by
        rintro rfl
        exact hne' h0
      simpa [hkm] using hut
    · simpa [hkm] using h.named u hu hl hne'

theorem recount (h : a.Grantable) (hm : (a.mtx m).thread ≠ 0) (i : Int) :
    (a.modM m ({ · with count := i })).Grantable := by
  constructor
  · intro k hk
    by_cases hkm : k = m
    · subst hkm
      exact absurd (by simpa using hk) hm
    · simpa [hkm] using h.free k (by simpa [hkm] using hk)
  · intro u hu hl hne
    have hold := h.named u hu hl hne
    have hsame : ((a.modM m ({ · with count := i })).mtx (a.tcb u).mutex).thread =
        (a.mtx (a.tcb u).mutex).thread := by
      by_cases hkm : (a.tcb u).mutex = m
      · simp [hkm]
      · simp [hkm]
    exact fun he => hold (hsame.symm.trans he)

/-- A thread comes to name a mutex, at most one of another thread. -/
theorem name (h : a.Grantable) {g : Tcb → Tcb} (hl : (a.modT t g).live t → a.live t)
    (hg : (g (a.tcb t)).mutex ≠ 0 → (a.mtx (g (a.tcb t)).mutex).thread ≠ t) : (a.modT t g).Grantable := by
  refine ⟨h.free, fun u h0 hlu hne => ?_⟩
  by_cases hu : u = t
  · subst hu
    simp only [modT_tcb, Function.update_self] at hne ⊢
    exact hg hne
  · simp only [Sched.live, modT_tcb, Function.update_of_ne hu] at hlu hne ⊢
    exact h.named u h0 hlu hne

theorem acquire (h : a.Grantable) (ht : t ≠ 0) (h0 : (a.tcb t).mutex = 0) (hb : a.acquire t m = .ok b) :
    b.Grantable := by
  obtain ⟨i, _, hb⟩ := bind_eq_ok.mp hb
  cases hb
  exact (h.own ht h0 i).congr rfl rfl

theorem relock (h : a.Grantable) (hm : (a.mtx m).thread ≠ 0) (hb : a.relock m = .ok b) : b.Grantable := by
  obtain ⟨i, _, hb⟩ := bind_eq_ok.mp hb
  cases hb
  exact h.recount hm i

theorem blockOn (h : a.Grantable) (hf : Fine W a) (hr : a.CurrentRuns) (hm : MutexAddr m)
    (hne : (a.mtx m).thread ≠ a.currentThread) (hb : a.blockOn n m = .ok b) : b.Grantable := by
  have hnamed : (a.modT a.currentThread ({ · with mutex := m })).Grantable :=
    h.name (fun _ => hr.live) fun _ => hne
  exact hnamed.quiet (hf.quiet_blockOn hr hm hb)

theorem lockMutex (h : a.Grantable) (hf : Fine W a) (hr : a.CurrentRuns) (hm : MutexAddr m)
    (h0 : (a.tcb a.currentThread).mutex = 0) (hb : a.lockMutex n m = .ok b) : b.Grantable := by
  unfold Sched.lockMutex at hb
  split at hb
  · exact h.acquire hr.1 h0 hb
  split at hb
  · rename_i hm0 _
    exact h.relock hm0 hb
  · rename_i hne
    exact h.blockOn hf hr hm hne hb

theorem tryLockMutex (h : a.Grantable) (hr : a.CurrentRuns)
    (h0 : (a.tcb a.currentThread).mutex = 0) (hb : a.tryLockMutex m = .ok b) : b.Grantable := by
  unfold Sched.tryLockMutex at hb
  split at hb
  · exact h.acquire hr.1 h0 hb
  split at hb
  · rename_i hm0 _
    exact h.relock hm0 hb
  · cases hb
    exact h

theorem unlockMutex (h : a.Grantable) (hf : Fine W a) (hr : a.CurrentRuns)
    (hb : a.unlockMutex m = .ok b) : b.Grantable := by
  unfold Sched.unlockMutex at hb
  split at hb
  · rename_i hown
    obtain ⟨i, _, hb⟩ := bind_eq_ok.mp hb
    split at hb
    · cases hb
      have hrel : (a.release a.currentThread m).Grantable := by
        refine h.released (fun u => (release_live a _ m u).mp) (fun u _ => (release_words a _ m u).2) ?_
        intro k
        rw [release_mtx]
        split
        · exact .inl rfl
        · exact .inr rfl
      have hs := (hf.shape.release (Set.notMem_empty _) hr hown).1
      exact hrel.quiet (hs.quiet_wakeupThread (QueueAddr.mutex_isWait m))
    · cases hb
      exact h.recount (hown ▸ hr.1) i
  · cases hb
    exact h

theorem initMutex (h : a.Grantable) (m : Addr) : (a.initMutex m).Grantable := by
  refine h.released (fun _ => id) (fun _ _ => rfl) fun k => ?_
  by_cases hk : k = m
  · exact .inl (by simp [Sched.initMutex, hk])
  · exact .inr (by simp [Sched.initMutex, hk])

theorem createThread (h : a.Grantable) (slot : Nat) (p : Int) (attr : Nat) :
    (a.createThread slot p attr).Grantable := by
  unfold Sched.createThread
  split
  · exact h
  · refine ⟨h.free, fun u h0 hl hne => ?_⟩
    by_cases hu : u = PORT_THREAD_ADDR slot
    · subst hu
      simp at hne
    · simp [hu] at hne ⊢
      exact h.named u h0 (by simpa [Sched.live, hu] using hl) hne

theorem restoreCount (h : a.Grantable) (ht : t ≠ 0) (m : Addr) (saved : Nat) :
    (a.restoreCount t m saved).Grantable := by
  unfold Sched.restoreCount
  split
  · rename_i hg
    have hm : (a.mtx m).thread ≠ 0 := by
      rw [hg.2.1]
      exact ht
    refine (h.recount hm (toS32 saved)).released ?_ ?_ fun _ => .inr rfl
    · intro u hl
      by_cases hu : u = t
      · subst hu
        simpa [Sched.live] using hl
      · simpa [Sched.live, hu] using hl
    · intro u _
      by_cases hu : u = t
      · subst hu
        simp
      · simp [hu]
  · exact h

end Grantable

/-- The threads that wait. -/
def asleep (a : Sched) : Finset Addr := slots.filter fun t => (a.tcb t).state = .waiting

theorem mem_asleep (h : Core X a) : t ∈ a.asleep ↔ (a.tcb t).state = .waiting := by
  rw [asleep, Finset.mem_filter, and_iff_right_iff_imp]
  intro hs
  exact Sched.mem_slots.mpr (h.slot t (by simp [hs]))

theorem card_asleep_le (a : Sched) : a.asleep.card ≤ PORT_MAX_THREADS :=
  (Finset.card_filter_le _ _).trans (Nat.le_of_eq (Nat.card_Icc 1 PORT_MAX_THREADS))

/-- A caller that goes to sleep joins the threads that wait. -/
theorem Core.asleep_sleepThread (h : Core ∅ a) (hr : a.CurrentRuns) {q : QueueAddr} (hq : q.isWait) :
    a.asleep.card < (a.sleepThread q).asleep.card := by
  have hX := Set.notMem_empty a.currentThread
  obtain ⟨hc, hm⟩ := (h.enqueueCurrent hX hr hq).osReschedule (q := .null) hX
  change Core ∅ (a.sleepThread q) at hc
  apply Finset.card_lt_card
  refine Finset.ssubset_iff_subset_ne.mpr ⟨fun t ht => ?_, fun he => ?_⟩
  · rw [mem_asleep h] at ht
    have hne : t ≠ a.currentThread := by
      rintro rfl
      rw [hr.2] at ht
      cases ht
    have htcb : (a.enqueueCurrent q).tcb t = a.tcb t := by simp [Sched.enqueueCurrent, hne]
    have hw := (h.placed t (Set.notMem_empty t)).waiting ht
    have hkept : (a.sleepThread q).tcb t = (a.enqueueCurrent q).tcb t :=
      hm.still t (by rw [htcb, ht]) (by rw [htcb]; exact hw.ne_null)
    rw [mem_asleep hc, hkept, htcb]
    exact ht
  · have hin : a.currentThread ∈ a.asleep := by
      rw [he, mem_asleep hc]
      exact (h.sleeps hr hq).1
    rw [mem_asleep h, hr.2] at hin
    cases hin

theorem asleep_congr (h : ∀ u, (b.tcb u).state = (a.tcb u).state) : b.asleep = a.asleep := by
  simp only [asleep, h]

/-- Whoever is granted a lock names no mutex any more. -/
theorem pendingLock_granted {v : Nat} (h : (a.tcb a.currentThread).mutex = 0) (t m : Addr) :
    (a.restoreCount t m v).pendingLock = none := by
  have hcur : (a.restoreCount t m v).currentThread = a.currentThread := (restoreCount_frame a t m v).1
  have hmut : ((a.restoreCount t m v).tcb a.currentThread).mutex = 0 := by
    unfold Sched.restoreCount
    split
    · by_cases hu : a.currentThread = t
      · subst hu
        simpa using h
      · simpa [hu] using h
    · exact h
  simp [Sched.pendingLock, hcur, hmut]

/-- The running thread tries again for the mutex it names. -/
theorem Grantable.cleared (h : a.Grantable) (hf : Fine W a) (hp : a.pendingLock = some (t, m)) :
    t = a.currentThread ∧ a.CurrentRuns ∧ MutexAddr m ∧ (a.mtx m).thread ≠ t ∧
      (a.modT t ({ · with mutex := 0 })).Grantable ∧ Fine W (a.modT t ({ · with mutex := 0 })) := by
  obtain ⟨hr, ht, hm, hm0⟩ := pendingLock_eq hp
  simp only at ht hm hm0
  subst ht
  have hma : MutexAddr m := hm ▸ hf.shape.pending _ (hm ▸ hm0)
  have hown : (a.mtx m).thread ≠ a.currentThread := hm ▸ h.named _ hr.1 hr.live (hm ▸ hm0)
  exact ⟨rfl, hr, hma, hown, h.name (fun _ => hr.live) fun hne => absurd rfl hne, hf.clearPending hr⟩

theorem Grantable.retryLock (h : a.Grantable) (hf : Fine W a) (hp : a.pendingLock = some (t, m))
    (hb : a.retryLock n t m = .ok b) : b.Grantable := by
  obtain ⟨rfl, hr, hma, _, h₁, hf₁⟩ := h.cleared hf hp
  obtain ⟨c, hc, hb⟩ := bind_eq_ok.mp hb
  cases hb
  have hr₁ : (a.modT a.currentThread ({ · with mutex := 0 })).CurrentRuns := ⟨hr.1, by simp [hr.2]⟩
  exact (h₁.lockMutex hf₁ hr₁ hma (by simp) hc).restoreCount hr.1 m _

theorem Grantable.processPendingLocks (h : a.Grantable) (hf : Fine W a)
    (hb : Sched.processPendingLocks n k a = .ok b) : b.Grantable := by
  induction k generalizing a with
  | zero => cases hb
  | succ k ih =>
    rw [Sched.processPendingLocks] at hb
    cases hp : a.pendingLock with
    | none =>
      rw [hp] at hb
      cases hb
      exact h
    | some p =>
      rw [hp] at hb
      obtain ⟨c, hc, hb⟩ := bind_eq_ok.mp hb
      exact ih (h.retryLock hf hp hc) (hf.retryLock hp hc) hb

/-- A retry is granted or puts its thread to sleep. -/
theorem Grantable.retryLock_ends (h : a.Grantable) (hf : Fine True a)
    (hp : a.pendingLock = some (t, m)) (hn : PORT_MAX_THREADS < n) :
    ∃ b, a.retryLock n t m = .ok b ∧ (b.pendingLock = none ∨ a.asleep.card < b.asleep.card) := by
  obtain ⟨rfl, hr, hma, hown, h₁, hf₁⟩ := h.cleared hf hp
  set a₁ := a.modT a.currentThread ({ · with mutex := 0 }) with ha₁
  have hr₁ : a₁.CurrentRuns := ⟨hr.1, by simp [ha₁, hr.2]⟩
  by_cases hfree : (a.mtx m).thread = 0
  · have hcount : checkS32 ((a₁.mtx m).count + 1) = .ok 1 := by
      rw [show (a₁.mtx m).count = 0 from h.free m hfree]
      rfl
    have hacq : a₁.acquire a.currentThread m = .ok ((a₁.modM m fun _ => ⟨a.currentThread, 1⟩).setOwned
        a.currentThread (a₁.owned a.currentThread ++ [m])) := by
      rw [Sched.acquire, hcount]
      rfl
    have hlock : a₁.lockMutex n m = _ := (if_pos hfree).trans hacq
    have hcleared : (a₁.tcb a₁.currentThread).mutex = 0 := by simp [ha₁]
    exact ⟨_, by rw [Sched.retryLock, hlock]; rfl, .inl (pendingLock_granted (by exact hcleared) _ m)⟩
  · obtain ⟨c, b, hb, hsleep, hrep, hcc⟩ := hf₁.blockOn_ends hr₁ hma hn
    have hlock : a₁.lockMutex n m = .ok b := ((if_neg hfree).trans (if_neg hown)).trans hb
    refine ⟨_, by rw [Sched.retryLock, hlock]; rfl, .inr ?_⟩
    have hrc : c.CurrentRuns := by
      rw [CurrentRuns, hrep.current, hrep.state]
      exact ⟨hr₁.1, by simpa using hr₁.2⟩
    have hlt := hcc.asleep_sleepThread hrc (QueueAddr.mutex_isWait m)
    have hfrom : c.asleep = a.asleep := by
      apply asleep_congr
      intro u
      rw [hrep.state]
      by_cases hu : u = a.currentThread
      · subst hu
        simp [ha₁]
      · simp [ha₁, hu]
    rw [asleep_congr (restoreCount_frame b a.currentThread m _).2.1, hsleep, ← hfrom]
    exact hlt

/-- The loop over pending locks ends: no more threads can fall asleep than there are. -/
theorem Grantable.processPendingLocks_ends (h : a.Grantable) (hf : Fine True a)
    (hn : PORT_MAX_THREADS < n) (hk : PORT_MAX_THREADS + 2 ≤ k + a.asleep.card) :
    ∃ b, Sched.processPendingLocks n k a = .ok b := by
  induction k generalizing a with
  | zero =>
    have hle := card_asleep_le a
    omega
  | succ k ih =>
    rw [Sched.processPendingLocks]
    cases hp : a.pendingLock with
    | none => exact ⟨a, rfl⟩
    | some p =>
      obtain ⟨b, hb, hnext⟩ := h.retryLock_ends hf hp hn
      have hrest : ∃ c, Sched.processPendingLocks n k b = .ok c := by
        rcases hnext with hnone | hlt
        · have hle := card_asleep_le a
          obtain ⟨j, rfl⟩ : ∃ j, k = j + 1 := Nat.exists_eq_succ_of_ne_zero (by omega)
          exact ⟨b, by rw [Sched.processPendingLocks, hnone]⟩
        · exact ih (h.retryLock hf hp hb) (hf.retryLock hp hb) (by omega)
      obtain ⟨c, hc⟩ := hrest
      refine ⟨c, ?_⟩
      change (a.retryLock n p.1 p.2 >>= fun b => Sched.processPendingLocks n k b) = _
      rw [hb]
      exact hc

theorem grantable_initial : initial.Grantable := by
  refine ⟨fun _ _ => rfl, fun t _ _ hne => absurd ?_ hne⟩
  rw [initial_tcb]
  split <;> rfl

end Sched

open Runs (bind_eq_ok)
open Sched (Grantable Ends)

variable {s s' : St} {a b : Sched} {n k : Nat} {o : Op} {P : St → Op → Prop} {ph : Phase}

/-- One call of the interface. -/
theorem Represents.grantable_apply (h : Represents True .idle s a) (hgr : a.Grantable)
    (hg : o.Guarded s) (hp : ¬ o.Parks s) (hb : a.apply n o = .ok b) : b.Grantable := by
  have hf := h.fine
  have hnone : a.CurrentRuns → (a.tcb a.currentThread).mutex = 0 :=
    Sched.mutex_of_pendingLock (h.settled rfl)
  cases o with
  | create slot p attr =>
    cases hb
    exact hgr.createThread slot p attr
  | cancel t =>
    by_cases hl : a.live t
    · exact hgr.buried (hf.cancelThread_buried hl hb)
    · rwa [Sched.cancelThread_dead hl hb]
  | exit v =>
    cases hb
    exact hgr.buried (hf.exitThread_buried (h.rep.running.mp hg) v)
  | disable =>
    obtain ⟨_, _, hb⟩ := bind_eq_ok.mp hb
    cases hb
    exact hgr.congr rfl rfl
  | enable =>
    obtain ⟨_, _, hb⟩ := bind_eq_ok.mp hb
    cases hb
    exact hgr.congr rfl rfl
  | initMutex m =>
    cases hb
    exact hgr.initMutex m
  | lock m =>
    have hr := h.rep.running.mp hg.1
    exact hgr.lockMutex hf hr hg.2 (hnone hr) hb
  | unlock m => exact hgr.unlockMutex hf (h.rep.running.mp hg.1) hb
  | tryLock m =>
    have hr := h.rep.running.mp hg.1
    exact hgr.tryLockMutex hr (hnone hr) hb
  | initCond c =>
    cases hb
    exact hgr
  | waitCond c m =>
    have hne : (a.mtx m).thread ≠ a.currentThread := by
      rw [← h.rep.owner, ← h.rep.current]
      exact hp
    rw [Sched.apply, Sched.waitCond, if_pos hne] at hb
    cases hb
    exact hgr
  | initMessageQueue k c =>
    cases hb
    exact hgr.congr rfl rfl
  | _ => exact hgr.quiet (h.quiet_apply hg hb trivial)

/-- In every state of a run a lock that is still to be had can be counted. -/
theorem Reached.grantable (h : Reached P ph s) (hP : ∀ s o, P s o → ¬ o.Parks s) :
    ∃ a, Represents True ph s a ∧ a.Grantable := by
  induction h with
  | init hs =>
    obtain ⟨_, he, hr⟩ := rep_initial _
    rw [he] at hs
    cases hs
    refine ⟨_, ⟨hr, Sched.fine_initial True, fun _ => ?_⟩, Sched.grantable_initial⟩
    simp [Sched.pendingLock, Sched.initial]
  | call _ hg hp hs ih =>
    obtain ⟨a, ha, hgr⟩ := ih
    obtain ⟨b, hb, hr⟩ := ha.apply (fun _ => rfl) hg (fun _ => hP _ _ hp) hs
    exact ⟨b, hr, ha.grantable_apply hgr hg (hP _ _ hp) hb⟩
  | locks _ hs ih =>
    obtain ⟨a, ha, hgr⟩ := ih
    obtain ⟨b, hb, hr⟩ := ha.locks hs
    exact ⟨b, hr, hgr.processPendingLocks ha.fine hb⟩

/-- The calls that follow chains of owners. -/
def Op.Propagates : Op → Prop
  | .lock _ | .suspend _ | .resume _ => True
  | _ => False

instance : (o : Op) → Decidable o.Propagates
  | .lock _ | .suspend _ | .resume _ => .isTrue trivial
  | .create .. | .cancel _ | .join _ | .yield | .exit _ | .sleep _ | .wakeup _ | .disable | .enable
  | .initMutex _ | .unlock _ | .tryLock _ | .initCond _ | .waitCond .. | .signalCond _
  | .initMessageQueue .. | .send .. | .receive .. | .jam .. => .isFalse id

theorem Represents.propagates (h : Represents True ph s a) (hw : o.Propagates) (hg : o.Guarded s)
    (hn : PORT_MAX_THREADS < n) : Ends (o.exec n s) := by
  have hx := h.rep.exec h.fine.shape hg n
  have hy : Ends (a.apply n o) := by
    cases o with
    | lock m => exact h.fine.lockMutex_ends (h.rep.running.mp hg.1) hg.2 hn
    | suspend t => exact h.fine.suspendThread_ends hn t
    | resume t => exact h.fine.resumeThread_ends hn t
    | _ => exact hw.elim
  rcases hy with ⟨b, hb⟩ | hb
  · rw [hb] at hx
    obtain ⟨v, s', hs, _⟩ := Runs.lockstep_ok_left.mp hx
    exact .inl ⟨_, hs⟩
  · rw [hb] at hx
    right
    cases he : o.exec n s with
    | ok r => exact (by rw [he] at hx; exact hx.elim)
    | error e =>
      rw [he] at hx
      exact congrArg _ hx

/-- Every wave along owners ends, deadlocks included: with fuel for one change of each
thread, locking, suspending and resuming succeed, or stop at a counter that overflows; and
the processing of pending locks succeeds and leaves no running thread with a pending lock. -/
theorem reached_propagation (h : Reached NoCondWait ph s) {n : Nat} (hn : PORT_MAX_THREADS < n) :
    (∀ o : Op, o.Propagates → o.Guarded s →
      (∃ s', o.exec n s = .ok ((), s')) ∨ o.exec n s = .error .overflow) ∧
    ∀ k ≥ PORT_MAX_THREADS + 2, ∃ s', portProcessPendingLocks n k s = .ok ((), s') ∧
      (¬ s'.Running ∨ (s'.thr s'.currentThread).mutex = 0) := by
  obtain ⟨a, ha, hgr⟩ := h.grantable fun _ _ hp => hp
  refine ⟨fun o hw hg => ?_, fun k hk => ?_⟩
  · rcases ha.propagates hw hg hn with ⟨v, hv⟩ | he
    · exact .inl ⟨v.2, hv⟩
    · exact .inr he
  · obtain ⟨b, hb⟩ := hgr.processPendingLocks_ends ha.fine hn (hk.trans (Nat.le_add_right _ _))
    have hx := ha.rep.portProcessPendingLocks ha.fine.shape n k
    rw [hb] at hx
    obtain ⟨_, s', hs, hrep⟩ := Runs.lockstep_ok_left.mp hx
    refine ⟨s', hs, ?_⟩
    by_cases hr : s'.Running
    · right
      rw [hrep.tcb, hrep.current]
      exact Sched.mutex_of_pendingLock (ha.fine.processPendingLocks hb).2 (hrep.running.mp hr)
    · exact .inl hr

/-- Threads 2 and 3 wait for each other, and the default thread, which is better than both,
is about to wait for thread 2: its priority goes round the circle once. -/
theorem deadlock_propagation : ∃ s, Reached NoCondWait .idle s ∧
    ((s.mtx 1).thread = 2 ∧ (s.mtx 2).thread = 3 ∧ 2 ∈ s.members (.mutex 2) ∧ 3 ∈ s.members (.mutex 1)) ∧
    ((∃ s', (Op.lock 1).exec 33 s = .ok ((), s')) ∨ (Op.lock 1).exec 33 s = .error .overflow) := by
  have hrun : (bootTrial NoCondWait 40 (deadlock ++ [.resume 1])).any (fun s => ((s.mtx 1).thread = 2 ∧
      (s.mtx 2).thread = 3 ∧ 2 ∈ s.members (.mutex 2) ∧ 3 ∈ s.members (.mutex 1)) ∧
      (Op.lock 1).Guarded s) = true := by
    decide +kernel
  obtain ⟨s, hs, hp⟩ := bootTrial_any hrun
  obtain ⟨hcircle, hg⟩ := of_decide_eq_true hp
  have hreach := reached_bootTrial hs
  exact ⟨s, hreach, hcircle, (reached_propagation hreach (n := 33) (by decide)).1 (.lock 1) trivial hg⟩

end SdkPort.OSThread
