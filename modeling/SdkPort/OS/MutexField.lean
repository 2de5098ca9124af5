import SdkPort.OS.Preempt
import Mathlib.Logic.Relation

/-!
# What the mutex word of a waiting thread means

Suspending, resuming and cancelling take a waiting thread that names a mutex to be
queued on it, and follow the chain of owners from there. Without condition waits it is
queued, so the chain starts at an owner and follows threads that block each other.
-/
namespace SdkPort.OSThread

open Runs (bind_eq_ok)
open Relation (TransGen ReflTransGen)

namespace Sched

variable {W : Prop} {X D H E : Set Addr} {a b c : Sched} {t u m : Addr} {q : QueueAddr} {n : Nat}

theorem setEffectivePriority_ne_null (a : Sched) (t : Addr) (p : Nat) :
    a.setEffectivePriority t p ≠ .error .nullThread := by
  unfold Sched.setEffectivePriority
  cases (a.tcb t).state <;> simp
  split <;> simp

theorem bind_ne {x : Except Fault α} {f : α → Except Fault β} {e : Fault} (hx : x ≠ .error e)
    (hf : ∀ v, x = .ok v → f v ≠ .error e) : (x >>= f) ≠ .error e := by
  cases x with
  | error e' => exact fun h => hx (by cases h; rfl)
  | ok v => exact hf v rfl

theorem ok_ne (v : α) (e : Fault) : (.ok v : Except Fault α) ≠ .error e := by simp

theorem updatePriority_ne_null (ht : t ≠ 0) : updatePriority n a t ≠ .error .nullThread := by
  induction n generalizing a t with
  | zero => simp [updatePriority]
  | succ n ih =>
    unfold updatePriority
    rw [if_neg ht]
    split
    · simp
    split
    · simp
    refine bind_ne (setEffectivePriority_ne_null a t _) fun r _ => ?_
    split
    · simp
    · rename_i h0
      exact ih h0

theorem promoteThread_ne_null {p : Nat} : promoteThread p n a t ≠ .error .nullThread := by
  induction n generalizing a t with
  | zero => simp [promoteThread]
  | succ n ih =>
    unfold promoteThread
    split
    · simp
    split
    · simp
    refine bind_ne (setEffectivePriority_ne_null a t p) fun r _ => ?_
    split
    · simp
    · exact ih

theorem updateOwner_ne_null (h : (a.tcb t).mutex ≠ 0 → a.nextOwner t ≠ 0) :
    a.updateOwner n t ≠ .error .nullThread := by
  unfold Sched.updateOwner
  split
  · simp
  · rename_i hm
    have h0 := h hm
    rw [nextOwner, if_neg hm] at h0
    exact updatePriority_ne_null h0

theorem checkS32_ne_null (v : Int) : checkS32 v ≠ .error .nullThread := by
  unfold checkS32
  split <;> simp

/-- A waiting thread that names a mutex waits for its owner. -/
theorem Fit.nextOwner_ne (h : Fine True a) (hs : (a.tcb t).state = .waiting)
    (hm : (a.tcb t).mutex ≠ 0) : t ∈ a.queue (.mutex (a.tcb t).mutex) ∧ a.nextOwner t ≠ 0 := by
  have hq := h.waits trivial t (by simp) hs hm
  have hmem := (h.shape.core.mem_wait (QueueAddr.mutex_isWait _)).mpr ⟨by simp, hs, hq⟩
  refine ⟨hmem, ?_⟩
  rw [nextOwner, if_neg hm]
  exact (h.shape.held _ t (by simp) hmem).1

theorem suspendThread_ne_null (h : Fine True a) : a.suspendThread n t ≠ .error .nullThread := by
  refine bind_ne (checkS32_ne_null _) fun inc hinc => ?_
  split
  · refine bind_ne ?_ fun _ _ => ok_ne _ _
    unfold Sched.suspendRequeue
    simp only [modT_tcb, Function.update_self]
    split
    · simp
    · simp
    · rename_i hs
      apply updateOwner_ne_null
      intro hm
      have hne := (h.nextOwner_ne hs (by simpa [park] using hm)).2
      simpa [nextOwner, park] using hne
    · simp
  · simp

theorem resumeThread_ne_null (h : Fine True a) : a.resumeThread n t ≠ .error .nullThread := by
  refine bind_ne (checkS32_ne_null _) fun dec hdec => ?_
  split
  · simp
  split
  · refine bind_ne ?_ fun _ _ => ok_ne _ _
    unfold Sched.resumeRequeue
    simp only [modT_tcb, Function.update_self]
    split
    · simp
    · rename_i hs
      apply updateOwner_ne_null
      intro hm
      have hne := (h.nextOwner_ne hs (by simpa [refresh] using hm)).2
      simpa [nextOwner, refresh] using hne
    · simp
  · simp

theorem cancelThread_ne_null (h : Fine True a) : a.cancelThread n t ≠ .error .nullThread := by
  refine bind_ne ?_ fun r _ => ?_
  · unfold Sched.cancelUnlink
    split
    · simp
    · simp
    · rename_i hs
      split
      · simp
      · refine bind_ne ?_ fun _ _ => ok_ne _ _
        apply updateOwner_ne_null
        intro hm
        have hne := (h.nextOwner_ne hs (by simpa [detach] using hm)).2
        simpa [nextOwner, detach] using hne
    · simp
  · split <;> simp

theorem lockMutex_ne_null (a : Sched) (n : Nat) (m : Addr) :
    a.lockMutex n m ≠ .error .nullThread := by
  unfold Sched.lockMutex
  split
  · exact bind_ne (checkS32_ne_null _) fun _ _ => ok_ne _ _
  split
  · exact bind_ne (checkS32_ne_null _) fun _ _ => ok_ne _ _
  · exact bind_ne promoteThread_ne_null fun _ _ => ok_ne _ _

theorem processPendingLocks_ne_null (a : Sched) (n k : Nat) :
    Sched.processPendingLocks n k a ≠ .error .nullThread := by
  induction k generalizing a with
  | zero => simp [Sched.processPendingLocks]
  | succ k ih =>
    unfold Sched.processPendingLocks
    split
    · simp
    · exact bind_ne (bind_ne (lockMutex_ne_null _ n _) fun _ _ => ok_ne _ _) fun b _ => ih b

/-- A wave changes priorities only of threads that the first one blocks, directly or
through others. -/
theorem updatePriority_changes (hs : Shape X D ∅ a) (hX : Adrift X a) (hw : Waits X a)
    (hr : updatePriority n a t = .ok b) (hu : b.prio u ≠ a.prio u) : ReflTransGen a.blocks t u := by
  induction n generalizing a t with
  | zero => cases hr
  | succ n ih =>
    unfold updatePriority at hr
    split at hr
    · cases hr
    split at hr
    · cases hr
      exact absurd rfl hu
    split at hr
    · cases hr
      exact absurd rfl hu
    rename_i ht h0 hp
    obtain ⟨r, hset, hr⟩ := bind_eq_ok.mp hr
    have hcore := hs.core.setEffectivePriority hX h0 (hs.core.effectivePriority_le t) hset
    have hrep := Reprio.setEffectivePriority h0 hset
    by_cases hl : a.live t
    · obtain ⟨hprio, hnext, hstop⟩ := setEffectivePriority_prio hl hset
      by_cases hut : u = t
      · subst hut
        exact .refl
      have hsame : r.2.prio u = a.prio u := by rw [hprio, Function.update_of_ne hut]
      split at hr
      · cases hr
        exact absurd hsame hu
      · rename_i hz
        have hst : (a.tcb t).state = .waiting := by
          by_contra hne
          exact hz (hstop hne)
        have hXt : t ∉ X := by
          intro hx
          unfold Sched.setEffectivePriority at hset
          simp [hst, (hX t hx).2] at hset
        have hb : a.blocks t r.1 := by
          rw [hnext hst] at hz ⊢
          exact hs.blocks_nextOwner hw hXt hst hz
        refine .head hb ?_
        have hrest := ih (hs.reprio hcore hrep) (hX.setEffectivePriority hset) (hw.reprio hrep) hr
          (by rwa [hsame])
        exact ReflTransGen.mono (fun w v => (hrep.blocks hs.core hcore w v).mp) _ _ hrest
    · -- a dead thread ends the wave
      have hdead : (a.tcb t).state = .unused ∨ (a.tcb t).state = .moribund := by
        simp only [Sched.live] at hl
        tauto
      have hra : r = (0, a) := by
        unfold Sched.setEffectivePriority at hset
        rcases hdead with hd | hd <;>
          · simp only [hd] at hset
            cases hset
            rfl
      subst hra
      simp only [if_true] at hr
      cases hr
      exact absurd rfl hu

/-- The wave from the thread that a waiting one blocks. -/
theorem updateOwner_changes (hs : Shape X D ∅ b) (hX : Adrift X b) (hw : Waits X b)
    (hsub : ∀ w v, b.blocks w v → a.blocks w v) (hfirst : (b.tcb t).mutex ≠ 0 →
      a.blocks t (b.nextOwner t)) (hr : b.updateOwner n t = .ok c) (hu : c.prio u ≠ b.prio u) :
    TransGen a.blocks t u := by
  unfold Sched.updateOwner at hr
  split at hr
  · cases hr
    exact absurd rfl hu
  · rename_i hm
    have hf := hfirst hm
    rw [nextOwner, if_neg hm] at hf
    exact .head' hf (ReflTransGen.mono hsub _ _ (updatePriority_changes hs hX hw hr hu))

/-- Members of mutex queues are told by the words of threads. -/
theorem blocks_of_words (ha : Core X a) {Y : Set Addr} (hb : Core Y b) (ho : b.owned = a.owned)
    (hw : ∀ w, w ∉ Y → (b.tcb w).state = .waiting →
      w ∉ X ∧ (a.tcb w).state = .waiting ∧ (b.tcb w).queue = (a.tcb w).queue) {w v : Addr}
    (h : b.blocks w v) : a.blocks w v := by
  obtain ⟨k, hk, hm⟩ := h
  obtain ⟨hY, hs, hq⟩ := (hb.mem_wait (QueueAddr.mutex_isWait k)).mp hm
  obtain ⟨hX, hs', hq'⟩ := hw w hY hs
  refine ⟨k, ho ▸ hk, (ha.mem_wait (QueueAddr.mutex_isWait k)).mpr ⟨hX, hs', ?_⟩⟩
  rw [← hq', hq]

/-- A waiting thread blocks the owner of the mutex it names. -/
theorem Fit.blocks_owner (h : Fine True a) (hs : (a.tcb t).state = .waiting)
    (hm : (a.tcb t).mutex ≠ 0) : a.blocks t (a.nextOwner t) :=
  h.shape.blocks_nextOwner (h.waits trivial) (by simp) hs (h.nextOwner_ne hs hm).2

theorem Fit.suspendThread_changes (h : Fine True a) (hb : a.suspendThread n t = .ok b)
    (hut : u ≠ t) (hu : b.prio u ≠ a.prio u) : TransGen a.blocks t u := by
  obtain ⟨inc, hinc, hb⟩ := bind_eq_ok.mp hb
  have hi := checkS32_eq hinc
  subst hi
  split at hb
  · rename_i hz
    obtain ⟨c, hc, hb⟩ := bind_eq_ok.mp hb
    cases hb
    rw [hz] at hc
    have hf := h.suspendRequeue hz hc
    rw [(hf.shape.core.osReschedule (q := .null) (by simp)).2.prio] at hu
    unfold Sched.suspendRequeue at hc
    simp only [modT_tcb, Function.update_self] at hc
    split at hc
    case h_1 =>
      cases hc
      simp [Sched.prio, hut] at hu
    case h_2 =>
      cases hc
      simp [Sched.prio, hut] at hu
    case h_3 hs =>
      have hpark := h.parked hs
      refine updateOwner_changes hpark.shape (fun _ hx => hx.elim) (hpark.waits trivial) ?_ ?_ hc ?_
      · intro w v
        apply blocks_of_words h.shape.core hpark.shape.core rfl
        intro x _ hx
        by_cases hxt : x = t
        · subst hxt
          simp [park, hs]
        · simpa [park, hxt] using hx
      · intro hm
        have hbl := h.blocks_owner hs (by simpa [park] using hm)
        simpa [nextOwner, park] using hbl
      · simpa [park, Sched.prio, hut] using hu
    case h_4 =>
      cases hc
      simp [Sched.prio, hut] at hu
  · cases hb
    simp [Sched.prio, hut] at hu

theorem Fit.resumeThread_changes (h : Fine True a) (hb : a.resumeThread n t = .ok b)
    (hut : u ≠ t) (hu : b.prio u ≠ a.prio u) : TransGen a.blocks t u := by
  obtain ⟨dec, hdec, hb⟩ := bind_eq_ok.mp hb
  have hd := checkS32_eq hdec
  subst hd
  split at hb
  · cases hb
    simp [Sched.prio, hut] at hu
  split at hb
  · rename_i hz
    obtain ⟨c, hc, hb⟩ := bind_eq_ok.mp hb
    cases hb
    rw [hz] at hc
    have hf := h.resumeRequeue (by omega) hc
    rw [(hf.shape.core.osReschedule (q := .null) (by simp)).2.prio] at hu
    unfold Sched.resumeRequeue at hc
    simp only [modT_tcb, Function.update_self] at hc
    split at hc
    case h_1 =>
      cases hc
      simp [Sched.prio, hut] at hu
    case h_2 hs =>
      have href := h.refreshed hs
      refine updateOwner_changes href.shape (fun _ hx => hx.elim) (href.waits trivial) ?_ ?_ hc ?_
      · intro w v
        apply blocks_of_words h.shape.core href.shape.core rfl
        intro x _ hx
        by_cases hxt : x = t
        · subst hxt
          simp [refresh, hs]
        · simpa [refresh, hxt] using hx
      · intro hm
        have hbl := h.blocks_owner hs (by simpa [refresh] using hm)
        simpa [nextOwner, refresh] using hbl
      · simpa [refresh, Sched.prio, hut] using hu
    case h_3 =>
      cases hc
      simp [Sched.prio, hut] at hu
  · cases hb
    simp [Sched.prio, hut] at hu

theorem retire_prio (a : Sched) (t : Addr) (v : Option Nat) : (a.retire t v).prio = a.prio := by
  funext u
  unfold Sched.retire
  split <;>
    · by_cases hu : u = t <;> simp [Sched.prio, hu]

theorem Fit.unlockHeads_prio {V : Prop} (h : Fit W V ∅ (insert t ∅) ∅ ∅ a) (hd : ¬ a.live t)
    {l : List Addr} (hl : a.owned t = l) : (l.foldl (Sched.unlockHead t) a).prio = a.prio := by
  induction l generalizing a with
  | nil => rfl
  | cons m l ih =>
    have hm : m ∈ a.owned t := by simp [hl]
    have hcd : Core ∅ (a.disown t m) := (h.shape.disown hm).core
    have hmv := (hcd.wakeupThread (by simp) (QueueAddr.mutex_isWait m)).2.1
    have hstep : Sched.unlockHead t a m = (a.disown t m).wakeupThread (.mutex m) := rfl
    rw [List.foldl_cons, ih (h.unlockHead hd hm) (fun hlv => hd ((hmv.live_iff t).mp hlv)) (by
      rw [hstep, hmv.owned]
      simp [hl]), hstep]
    exact funext hmv.prio

theorem Fit.bury_prio {V : Prop} (h : Fit W V (insert t ∅) ∅ ∅ (insert t ∅) a)
    (hs : (a.tcb t).state ≠ .unused) (hq : V → a.runQueueHint = false → a.currentThread ≠ t)
    (v : Option Nat) : (a.bury t v).prio = a.prio := by
  have hr := h.retire hs hq v
  have hd := retire_dead a t v
  have hu := hr.unlockAllMutex hd
  unfold Sched.bury
  rw [hu.shape.core.wakeupThread_join]
  have hm := (hu.shape.core.osReschedule (q := .null) (by simp)).2
  rw [funext hm.prio, Sched.unlockAllMutex, hr.unlockHeads_prio hd rfl, retire_prio]

theorem Fit.cancelThread_changes (h : Fine True a) (hb : a.cancelThread n t = .ok b)
    (hut : u ≠ t) (hu : b.prio u ≠ a.prio u) : TransGen a.blocks t u := by
  obtain ⟨r, hr, hb⟩ := bind_eq_ok.mp hb
  have hru : r.2.prio u ≠ a.prio u := by
    rcases h.cancelUnlink hr with ⟨h1, ho⟩ | ⟨h1, h2⟩
    · rw [if_pos h1] at hb
      cases hb
      have hbur := ho.fit.bury ho.used ho.quiet none
      rw [(hbur.shape.core.osReschedule (q := .null) (by simp)).2.prio,
        ho.fit.bury_prio ho.used ho.quiet none] at hu
      exact hu
    · simp only [h1] at hb
      cases hb
      exact hu
  unfold Sched.cancelUnlink at hr
  split at hr
  case h_1 =>
    cases hr
    split at hru <;> simp [Sched.prio, hut] at hru
  case h_2 =>
    cases hr
    exact absurd rfl hru
  case h_3 hs =>
    obtain ⟨hfit, hadrift⟩ := h.detached hs
    split at hr
    · cases hr
      simp [detach, Sched.prio, hut] at hru
    · obtain ⟨c, hc, hr⟩ := bind_eq_ok.mp hr
      cases hr
      refine updateOwner_changes hfit.shape hadrift (hfit.waits trivial) ?_ ?_ hc ?_
      · intro w v
        apply blocks_of_words h.shape.core hfit.shape.core rfl
        intro x hx hxs
        have hxt : x ≠ t := fun he => hx (.inl he)
        simpa [detach, hxt] using hxs
      · intro hm
        have hbl := h.blocks_owner hs (by simpa [detach] using hm)
        simpa [nextOwner, detach] using hbl
      · simpa [detach, Sched.prio, hut] using hru
  case h_4 =>
    cases hr
    exact absurd rfl hru

end Sched

open Sched (Fine Sound)

variable {s s' : St} {a b : Sched} {t u m : Addr} {n : Nat} {o : Op} {ph : Phase}

/-- Thread `w` is queued on a mutex that `t` owns. -/
def St.blocks (s : St) (w t : Addr) : Prop :=
  ∃ m, t ≠ 0 ∧ (s.mtx m).thread = t ∧ w ∈ s.members (.mutex m)

theorem Rep.blocks (h : Rep s a) (hs : Sound a) (w t : Addr) : s.blocks w t ↔ a.blocks w t := by
  have hmtx : ∀ m, (s.mtx m).thread = (a.mtx m).thread := fun m => congrArg (·.thread) (h.mtx m)
  simp only [St.blocks, Sched.blocks, h.members hs, hmtx, hs.owned]
  constructor
  · rintro ⟨m, h0, ho, hw⟩
    exact ⟨m, ⟨h0, ho⟩, hw⟩
  · rintro ⟨m, ⟨h0, ho⟩, hw⟩
    exact ⟨m, h0, ho, hw⟩

/-- The calls that change the scheduling of one thread from outside. -/
def Op.Concerns (t : Addr) : Op → Prop
  | .suspend u | .resume u | .cancel u => u = t
  | _ => False

/-- A waiting thread that names a mutex is queued on it and the mutex has an owner; no
call follows a null owner; and suspending, resuming or cancelling a thread changes the
priority of others only along chains of threads queued on each other's mutexes. -/
structure MutexMeansWait (s : St) : Prop where
  queued : ∀ t, (s.thr t).state = .waiting → (s.thr t).mutex ≠ 0 →
    t ∈ s.members (.mutex (s.thr t).mutex) ∧ (s.mtx (s.thr t).mutex).thread ≠ 0
  calls : ∀ (o : Op) (n : Nat), o.Guarded s → ¬ o.Parks s → o.exec n s ≠ .error .nullThread
  locks : ∀ n k, portProcessPendingLocks n k s ≠ .error .nullThread
  changes : ∀ (t u : Addr) (o : Op) (n : Nat) (s' : St), o.Concerns t → o.Guarded s →
    o.exec n s = .ok ((), s') → u ≠ t → s'.prio u ≠ s.prio u → TransGen s.blocks t u

theorem Sched.apply_ne_null (hf : Fine True a) (hw : ∀ c m, o = .waitCond c m →
    (a.mtx m).thread ≠ a.currentThread) : a.apply n o ≠ .error .nullThread := by
  cases o with
  | resume t => exact resumeThread_ne_null hf
  | suspend t => exact suspendThread_ne_null hf
  | cancel t => exact cancelThread_ne_null hf
  | lock m => exact lockMutex_ne_null a n m
  | disable => exact bind_ne (checkS32_ne_null _) fun _ _ => ok_ne _ _
  | enable => exact bind_ne (checkS32_ne_null _) fun _ _ => ok_ne _ _
  | unlock m =>
    simp only [Sched.apply, Sched.unlockMutex]
    split
    · refine bind_ne (checkS32_ne_null _) fun c _ => ?_
      split <;> simp
    · simp
  | tryLock m =>
    simp only [Sched.apply, Sched.tryLockMutex]
    split
    · exact bind_ne (checkS32_ne_null _) fun _ _ => ok_ne _ _
    split
    · exact bind_ne (checkS32_ne_null _) fun _ _ => ok_ne _ _
    · simp
  | waitCond c m => simp [Sched.apply, Sched.waitCond, hw c m rfl]
  | _ => exact ok_ne _ _

theorem Represents.mutexMeansWait (h : Represents True ph s a) : MutexMeansWait s := by
  have hs := h.fine.shape
  have hmtx : ∀ m, (s.mtx m).thread = (a.mtx m).thread := fun m => congrArg (·.thread) (h.rep.mtx m)
  have hblk : a.blocks ≤ s.blocks := fun w v hw => (h.rep.blocks hs w v).mpr hw
  refine ⟨?_, ?_, ?_, ?_⟩
  · intro t hst hm
    rw [h.rep.tcb] at hst hm ⊢
    rw [h.rep.members hs, hmtx]
    obtain ⟨hmem, hne⟩ := h.fine.nextOwner_ne hst hm
    rw [Sched.nextOwner, if_neg hm] at hne
    exact ⟨hmem, hne⟩
  · intro o n hg hW he
    refine Sched.apply_ne_null (o := o) (n := n) h.fine ?_
      (Runs.lockstep_error_right (he ▸ h.rep.exec hs hg n))
    intro c m ho
    subst ho
    rw [← hmtx, ← h.rep.current]
    exact hW
  · intro n k he
    exact Sched.processPendingLocks_ne_null a n k
      (Runs.lockstep_error_right (he ▸ h.rep.portProcessPendingLocks hs n k))
  · intro t u o n s' ho hg hx hut hu
    obtain ⟨b, hb, hr⟩ := Runs.lockstep_ok_right (hx ▸ h.rep.exec hs hg n)
    rw [hr.prio, h.rep.prio] at hu
    refine TransGen.mono hblk _ _ ?_
    cases o with
    | suspend v =>
      cases ho
      exact h.fine.suspendThread_changes hb hut hu
    | resume v =>
      cases ho
      exact h.fine.resumeThread_changes hb hut hu
    | cancel v =>
      cases ho
      exact h.fine.cancelThread_changes hb hut hu
    | _ => exact ho.elim

/-- Without condition waits the mutex word of a waiting thread means a wait for that
mutex, deadlocks included. -/
theorem reached_mutexMeansWait (h : Reached NoCondWait ph s) : MutexMeansWait s := by
  obtain ⟨a, ha⟩ := h.represents (W := True) fun _ _ _ hp => hp
  exact ha.mutexMeansWait

theorem contention_mutexMeansWait :
    ∃ s, bootTrial NoCondWait 40 contention = some s ∧ s.members (.mutex 1) = [3, 2] ∧ (s.thr 2).mutex = 1 ∧
      MutexMeansWait s := by
  obtain ⟨s, hs, hmembers, _, hmutex, -⟩ := contention_runs
  exact ⟨s, hs, hmembers, hmutex, reached_mutexMeansWait (reached_bootTrial hs)⟩

/-- The thread of priority 10 waits on a condition with a mutex it has released. -/
def condWait : List Op := [.create 1 10 0, .resume 2, .initMutex 1, .initCond 0, .lock 1, .waitCond 0 1]

/-- After a condition wait the waiting thread names a mutex without owner it is not queued
on, and suspending it follows the null owner. -/
theorem condWait_not_mutexMeansWait : ∃ s, Reached AnyCall .idle s ∧
    (s.thr 2).state = .waiting ∧ (s.thr 2).mutex = 1 ∧ (s.mtx 1).thread = 0 ∧
    2 ∉ s.members (.mutex 1) ∧ (Op.suspend 2).Guarded s ∧
    (Op.suspend 2).exec 40 s = .error .nullThread ∧ ¬ MutexMeansWait s := by
  have hrun : (bootTrial AnyCall 40 condWait).any (fun s => (s.thr 2).state = .waiting ∧
      (s.thr 2).mutex = 1 ∧ (s.mtx 1).thread = 0 ∧ 2 ∉ s.members (.mutex 1) ∧
      (Op.suspend 2).Guarded s ∧ failure ((Op.suspend 2).exec 40 s) = some .nullThread) = true := by
    decide +kernel
  obtain ⟨s, hs, hp⟩ := bootTrial_any hrun
  obtain ⟨hst, hm, ho, hq, hg, hf⟩ := of_decide_eq_true hp
  refine ⟨s, reached_bootTrial hs, hst, hm, ho, hq, hg, eq_error_of_failure hf, ?_⟩
  intro h
  have hmem := (h.queued 2 hst (by rw [hm]; decide)).1
  rw [hm] at hmem
  exact hq hmem

end SdkPort.OSThread
