import SdkPort.OS.Messages

/-!
# No lost wakeup

Only a call that finds a message queue full or empty brings its caller into a wait queue of
it. Every other operation of the scheduler moves threads out of that queue or leaves them
there, and the call that ends the condition wakes them all.
-/
namespace SdkPort.OSThread

namespace Sched

open Runs (bind_eq_ok)

variable {X : Set Addr} {W : Prop} {a b c : Sched} {t m : Addr} {q r : QueueAddr} {n k : Nat}

/-- Nobody has come to wait in `q`. -/
def NoneJoins (q : QueueAddr) (a b : Sched) : Prop := ∀ t, (b.tcb t).state = .waiting → (b.tcb t).queue = q →
  (a.tcb t).state = .waiting ∧ (a.tcb t).queue = q

namespace NoneJoins

theorem refl (q : QueueAddr) (a : Sched) : NoneJoins q a a := fun _ hs hq => ⟨hs, hq⟩

theorem trans (h : NoneJoins q a b) (h' : NoneJoins q b c) : NoneJoins q a c := by
  intro t hs hq
  obtain ⟨hs', hq'⟩ := h' t hs hq
  exact h t hs' hq'

theorem of_tcb (h : b.tcb = a.tcb) : NoneJoins q a b := by
  intro t hs hq
  rw [h] at hs hq
  exact ⟨hs, hq⟩

/-- One thread changes, and does not come to wait in `q`. -/
theorem one (t : Addr) {th : Tcb} (htcb : b.tcb = Function.update a.tcb t th)
    (h : th.state = .waiting → th.queue = q → (a.tcb t).state = .waiting ∧ (a.tcb t).queue = q) :
    NoneJoins q a b := by
  intro u hs hq
  rw [htcb] at hs hq
  by_cases hu : u = t
  · subst hu
    rw [Function.update_self] at hs hq
    exact h hs hq
  · rw [Function.update_of_ne hu] at hs hq
    exact ⟨hs, hq⟩

/-- A wait queue that is empty stays so. -/
theorem nil_of_nil (h : NoneJoins q a b) (ha : Core ∅ a) (hb : Core ∅ b) (hq : q.isWait)
    (he : a.queue q = []) : b.queue q = [] := by
  apply List.eq_nil_iff_forall_not_mem.mpr
  intro t ht
  obtain ⟨hX, hh⟩ := (hb.mem q hq.ne_active t).mp ht
  obtain ⟨hs, hl⟩ := (home_wait hq).mp hh
  have hm := (ha.mem q hq.ne_active t).mpr ⟨hX, (home_wait hq).mpr (h t hs hl)⟩
  rw [he] at hm
  cases hm

end NoneJoins

section Moves

theorem NoneJoins.selectNext (a : Sched) : NoneJoins q a a.selectNext := by
  unfold Sched.selectNext
  dsimp only
  split
  · exact .of_tcb rfl
  · split
    · exact .of_tcb rfl
    · exact .one _ rfl (by simp)

theorem NoneJoins.setRun (hq : q.isWait) (a : Sched) (t : Addr) : NoneJoins q a (a.setRun t) := by
  apply NoneJoins.one t (by exact setRun_tcb a t)
  intro _ he
  exact absurd he.symm (hq.ne_run _)

theorem NoneJoins.unsetRun (hq : q.isWait) (a : Sched) (t : Addr) : NoneJoins q a (a.unsetRun t) := by
  apply NoneJoins.one t (unsetRun_tcb a t)
  intro _ he
  exact absurd he.symm hq.ne_null

theorem NoneJoins.preempt (hq : q.isWait) (a : Sched) (t : Addr) : NoneJoins q a (a.preempt t) :=
  .trans (.one t rfl (by simp)) (.setRun hq _ t)

theorem NoneJoins.selectThread (hq : q.isWait) (a : Sched) (yield : Bool) :
    NoneJoins q a (a.selectThread yield) := by
  have hyield := (NoneJoins.preempt hq a a.currentThread).trans (.selectNext _)
  unfold Sched.selectThread
  split_ifs
  · exact .refl q a
  · exact .selectNext a
  · exact hyield
  · exact .refl q a
  · exact hyield
  · exact .selectNext a

theorem NoneJoins.osReschedule (hq : q.isWait) (a : Sched) : NoneJoins q a a.osReschedule := by
  unfold Sched.osReschedule
  split
  · exact .selectThread hq a false
  · exact .refl q a

theorem NoneJoins.wakeOne (hq : q.isWait) (a : Sched) (r : QueueAddr) (t : Addr) :
    NoneJoins q a (a.wakeOne r t) := by
  have hready : NoneJoins q a ((a.removeItem r t).modT t ({ · with state := .ready })) :=
    .one t rfl (by simp)
  unfold Sched.wakeOne
  dsimp only
  split
  · exact hready
  · exact hready.trans (.setRun hq _ t)

theorem NoneJoins.wakeupThread (hq : q.isWait) (a : Sched) (r : QueueAddr) :
    NoneJoins q a (a.wakeupThread r) := by
  have hall : ∀ l : List Addr, NoneJoins q a (wakeAll r a l) := by
    intro l
    induction l generalizing a with
    | nil => exact .refl q a
    | cons t l ih => exact (NoneJoins.wakeOne hq a r t).trans (ih (a.wakeOne r t))
  exact (hall (a.queue r)).trans (.osReschedule hq _)

theorem NoneJoins.unlockAllMutex (hq : q.isWait) (a : Sched) (t : Addr) :
    NoneJoins q a (a.unlockAllMutex t) := by
  unfold Sched.unlockAllMutex
  generalize a.owned t = l
  induction l generalizing a with
  | nil => exact .refl q a
  | cons m l ih =>
    have hhead : NoneJoins q a (Sched.unlockHead t a m) :=
      .trans (.of_tcb rfl) (.wakeupThread hq (a.disown t m) (.mutex m))
    exact hhead.trans (ih _)

theorem NoneJoins.sleepThread (hq : q.isWait) (hne : r ≠ q) (a : Sched) : NoneJoins q a (a.sleepThread r) := by
  have henq : NoneJoins q a (a.enqueueCurrent r) :=
    .one a.currentThread rfl fun _ he => absurd he hne
  exact henq.trans (.osReschedule hq _)

theorem NoneJoins.blockIf (hq : q.isWait) (hne : r ≠ q) (a : Sched) (flags : Nat) :
    NoneJoins q a (a.blockIf flags r) := by
  unfold Sched.blockIf
  split
  · exact .sleepThread hq hne a
  · exact .refl q a

theorem NoneJoins.retire (a : Sched) (t : Addr) (v : Option Nat) : NoneJoins q a (a.retire t v) := by
  unfold Sched.retire
  split
  · exact .one t rfl (by simp)
  · exact .one t rfl (by simp)

theorem NoneJoins.bury (hq : q.isWait) (a : Sched) (t : Addr) (v : Option Nat) :
    NoneJoins q a (a.bury t v) :=
  ((NoneJoins.retire a t v).trans (.unlockAllMutex hq _ t)).trans (.wakeupThread hq _ _)

/-- Where a thread waits stays the same when its other words change. -/
theorem NoneJoins.words (t : Addr) {th : Tcb} (htcb : b.tcb = Function.update a.tcb t th)
    (hs : th.state = (a.tcb t).state) (hl : th.queue = (a.tcb t).queue) : NoneJoins q a b :=
  .one t htcb fun hw hq => ⟨hs ▸ hw, hl ▸ hq⟩

theorem NoneJoins.modT (t : Addr) {g : Tcb → Tcb} (hs : (g (a.tcb t)).state = (a.tcb t).state)
    (hl : (g (a.tcb t)).queue = (a.tcb t).queue) : NoneJoins q a (a.modT t g) := .words t rfl hs hl

theorem NoneJoins.requeue (a : Sched) (t : Addr) (p : Nat) : NoneJoins q a (a.requeue t p) := .words t rfl rfl rfl

theorem NoneJoins.park (a : Sched) (t : Addr) : NoneJoins q a (a.park t) := .words t rfl rfl rfl

theorem NoneJoins.dropBoost (a : Sched) (t : Addr) : NoneJoins q a (a.dropBoost t) := by
  unfold Sched.dropBoost
  split
  · exact .words t rfl rfl rfl
  · exact .refl q a

theorem NoneJoins.release (a : Sched) (t m : Addr) : NoneJoins q a (a.release t m) :=
  .trans (.of_tcb rfl) (.dropBoost (a.disown t m) t)

end Moves

section Waves

theorem NoneJoins.setEffectivePriority (hq : q.isWait) {p : Nat} {r : Addr × Sched}
    (h : a.setEffectivePriority t p = .ok r) : NoneJoins q a r.2 := by
  unfold Sched.setEffectivePriority at h
  split at h
  · cases h
    exact ((NoneJoins.unsetRun hq a t).trans (.modT t rfl rfl)).trans (.setRun hq _ t)
  · split at h
    · cases h
    · cases h
      exact .words t rfl rfl rfl
  · cases h
    exact .words t rfl rfl rfl
  · cases h
    exact .refl q a

theorem NoneJoins.updatePriority (hq : q.isWait) (h : Sched.updatePriority n a t = .ok b) :
    NoneJoins q a b := by
  induction n generalizing a t with
  | zero => cases h
  | succ n ih =>
    rw [Sched.updatePriority] at h
    split_ifs at h
    · cases h
      exact .refl q _
    · cases h
      exact .refl q _
    · obtain ⟨r, hr, h⟩ := bind_eq_ok.mp h
      have hstep := NoneJoins.setEffectivePriority hq hr
      split at h
      · cases h
        exact hstep
      · exact hstep.trans (ih h)

theorem NoneJoins.promoteThread (hq : q.isWait) {p : Nat} (h : Sched.promoteThread p n a t = .ok b) :
    NoneJoins q a b := by
  induction n generalizing a t with
  | zero => cases h
  | succ n ih =>
    rw [Sched.promoteThread] at h
    split_ifs at h
    · cases h
      exact .refl q _
    · cases h
      exact .refl q _
    · obtain ⟨r, hr, h⟩ := bind_eq_ok.mp h
      have hstep := NoneJoins.setEffectivePriority hq hr
      split at h
      · cases h
        exact hstep
      · exact hstep.trans (ih h)

theorem NoneJoins.updateOwner (hq : q.isWait) (h : a.updateOwner n t = .ok b) : NoneJoins q a b := by
  unfold Sched.updateOwner at h
  split at h
  · cases h
    exact .refl q a
  · exact .updatePriority hq h

end Waves

section Calls

theorem NoneJoins.createThread (a : Sched) (slot : Nat) (p : Int) (attr : Nat) :
    NoneJoins q a (a.createThread slot p attr) := by
  unfold Sched.createThread
  split
  · exact .refl q a
  · exact .one _ rfl (by simp)

theorem NoneJoins.resumeThread (hq : q.isWait) (h : a.resumeThread n t = .ok b) : NoneJoins q a b := by
  obtain ⟨d, _, h⟩ := bind_eq_ok.mp h
  split_ifs at h
  · cases h
    exact .words t rfl rfl rfl
  · obtain ⟨c, hc, h⟩ := bind_eq_ok.mp h
    cases h
    have hmod : NoneJoins q a (a.modT t ({ · with suspend := d })) := .modT t rfl rfl
    refine NoneJoins.trans (hmod.trans ?_) (.osReschedule hq c)
    unfold Sched.resumeRequeue at hc
    split at hc
    · cases hc
      exact .trans (.modT t rfl rfl) (.setRun hq _ t)
    · exact .trans (.requeue _ t _) (.updateOwner hq hc)
    · cases hc
      exact .refl q _
  · cases h
    exact .words t rfl rfl rfl

theorem NoneJoins.suspendThread (hq : q.isWait) (h : a.suspendThread n t = .ok b) : NoneJoins q a b := by
  obtain ⟨d, _, h⟩ := bind_eq_ok.mp h
  split_ifs at h
  · obtain ⟨c, hc, h⟩ := bind_eq_ok.mp h
    cases h
    have hmod : NoneJoins q a (a.modT t ({ · with suspend := d })) := .modT t rfl rfl
    refine NoneJoins.trans (hmod.trans ?_) (.osReschedule hq c)
    unfold Sched.suspendRequeue at hc
    split at hc
    · cases hc
      exact .one t rfl (by simp)
    · cases hc
      exact .unsetRun hq _ t
    · exact .trans (.park _ t) (.updateOwner hq hc)
    · cases hc
      exact .refl q _
  · cases h
    exact .words t rfl rfl rfl

theorem NoneJoins.cancelUnlink (hq : q.isWait) {r : Bool × Sched} (h : a.cancelUnlink n t = .ok r) :
    NoneJoins q a r.2 := by
  have hdetach : NoneJoins q a (a.detach t) := .one t rfl fun _ he => absurd he.symm hq.ne_null
  unfold Sched.cancelUnlink at h
  split at h
  · cases h
    dsimp only
    split
    · exact .refl q a
    · exact .unsetRun hq a t
  · cases h
    exact .of_tcb rfl
  · split at h
    · cases h
      exact hdetach
    · obtain ⟨c, hc, h⟩ := bind_eq_ok.mp h
      cases h
      exact hdetach.trans (.updateOwner hq hc)
  · cases h
    exact .refl q a

theorem NoneJoins.cancelThread (hq : q.isWait) (h : a.cancelThread n t = .ok b) : NoneJoins q a b := by
  obtain ⟨r, hr, h⟩ := bind_eq_ok.mp h
  have hunlink := NoneJoins.cancelUnlink hq hr
  split at h
  · cases h
    exact (hunlink.trans (.bury hq r.2 t none)).trans (.osReschedule hq _)
  · cases h
    exact hunlink

theorem NoneJoins.exitThread (hq : q.isWait) (a : Sched) (v : Nat) : NoneJoins q a (a.exitThread v) :=
  ((NoneJoins.bury hq a a.currentThread (some v)).trans (.of_tcb rfl)).trans (.selectThread hq _ false)

theorem NoneJoins.joinThread (a : Sched) (t : Addr) : NoneJoins q a (a.joinThread t) := by
  unfold Sched.joinThread
  split
  · exact .one t rfl (by simp)
  · exact .refl q a

theorem NoneJoins.changeScheduler {d : Int} (h : a.changeScheduler d = .ok b) : NoneJoins q a b := by
  obtain ⟨c, _, h⟩ := bind_eq_ok.mp h
  cases h
  exact .of_tcb rfl

theorem NoneJoins.acquire (h : a.acquire t m = .ok b) : NoneJoins q a b := by
  obtain ⟨c, _, h⟩ := bind_eq_ok.mp h
  cases h
  exact .of_tcb rfl

theorem NoneJoins.relock (h : a.relock m = .ok b) : NoneJoins q a b := by
  obtain ⟨c, _, h⟩ := bind_eq_ok.mp h
  cases h
  exact .of_tcb rfl

theorem NoneJoins.lockMutex (hq : q.isWait) (hne : .mutex m ≠ q) (h : a.lockMutex n m = .ok b) :
    NoneJoins q a b := by
  unfold Sched.lockMutex at h
  split_ifs at h
  · exact .acquire h
  · exact .relock h
  · obtain ⟨c, hc, h⟩ := bind_eq_ok.mp h
    cases h
    have hname : NoneJoins q a (a.modT a.currentThread ({ · with mutex := m })) := .words _ rfl rfl rfl
    exact (hname.trans (.promoteThread hq hc)).trans (.sleepThread hq hne c)

theorem NoneJoins.unlockMutex (hq : q.isWait) (h : a.unlockMutex m = .ok b) : NoneJoins q a b := by
  unfold Sched.unlockMutex at h
  split at h
  · obtain ⟨c, _, h⟩ := bind_eq_ok.mp h
    split at h
    · cases h
      exact (NoneJoins.release a a.currentThread m).trans (.wakeupThread hq _ _)
    · cases h
      exact .of_tcb rfl
  · cases h
    exact .refl q a

theorem NoneJoins.tryLockMutex (h : a.tryLockMutex m = .ok b) : NoneJoins q a b := by
  unfold Sched.tryLockMutex at h
  split_ifs at h
  · exact .acquire h
  · exact .relock h
  · cases h
    exact .refl q a

theorem NoneJoins.waitCond (hq : q.isWait) {i : Nat} (hne : .cond i ≠ q) (h : a.waitCond i m = .ok b) :
    NoneJoins q a b := by
  unfold Sched.waitCond at h
  split at h
  · cases h
    exact .refl q a
  · obtain ⟨c, hc, h⟩ := bind_eq_ok.mp h
    obtain ⟨d, hd, h⟩ := bind_eq_ok.mp h
    cases h
    have hrel : NoneJoins q a c := .trans (.release a a.currentThread m) (.changeScheduler hc)
    have hwake := (hrel.trans (.wakeupThread hq c (.mutex m))).trans (.changeScheduler hd)
    exact (hwake.trans (.sleepThread hq hne d)).trans (.words a.currentThread rfl rfl rfl)

theorem NoneJoins.retryLock (hq : q.isWait) (hne : .mutex m ≠ q) (h : a.retryLock n t m = .ok b) :
    NoneJoins q a b := by
  obtain ⟨c, hc, h⟩ := bind_eq_ok.mp h
  cases h
  have hmod : NoneJoins q a (a.modT t ({ · with mutex := 0 })) := .modT t rfl rfl
  have hlock : NoneJoins q a c := hmod.trans (.lockMutex hq hne hc)
  unfold Sched.restoreCount
  split
  · exact hlock.trans (.words t rfl rfl rfl)
  · exact hlock

theorem NoneJoins.processPendingLocks (hq : q.isWait) (hne : ∀ m, .mutex m ≠ q)
    (h : Sched.processPendingLocks n k a = .ok b) : NoneJoins q a b := by
  induction k generalizing a with
  | zero => cases h
  | succ k ih =>
    rw [Sched.processPendingLocks] at h
    split at h
    · cases h
      exact .refl q _
    · obtain ⟨c, hc, h⟩ := bind_eq_ok.mp h
      exact (NoneJoins.retryLock hq (hne _) hc).trans (ih h)

end Calls

section Served

/-- Nobody waits in queue `k` for a message that is there, or for a place that is free. -/
def ServedAt (a : Sched) (k : Nat) : Prop := (0 < (a.msgq k).usedCount → a.queue (.msgRecv k) = []) ∧
  ((a.msgq k).usedCount < (a.msgq k).msgCount → a.queue (.msgSend k) = [])

/-- Without a call on a message queue nobody comes to wait at it. -/
theorem NoneJoins.apply {o : Op} (hq : q = .msgRecv k ∨ q = .msgSend k) (hu : ¬ o.Uses k)
    (hb : a.apply n o = .ok b) : NoneJoins q a b := by
  have hw : q.isWait := by rcases hq with rfl | rfl <;> trivial
  have hmutex : ∀ m, .mutex m ≠ q := by rcases hq with rfl | rfl <;> nofun
  have hcond : ∀ i, .cond i ≠ q := by rcases hq with rfl | rfl <;> nofun
  have hwait : ∀ i, .waitQueue i ≠ q := by rcases hq with rfl | rfl <;> nofun
  have hsend : ∀ j, j ≠ k → .msgSend j ≠ q := by rcases hq with rfl | rfl <;> simp
  have hrecv : ∀ j, j ≠ k → .msgRecv j ≠ q := by rcases hq with rfl | rfl <;> simp
  have hwake : ∀ j g r, NoneJoins q a ((a.modQ j g).wakeupThread r) :=
    fun j g r => .trans (.of_tcb rfl) (.wakeupThread hw (a.modQ j g) r)
  cases o with
  | create slot p attr =>
    cases hb
    exact .createThread a slot p attr
  | resume t => exact .resumeThread hw hb
  | suspend t => exact .suspendThread hw hb
  | cancel t => exact .cancelThread hw hb
  | join t =>
    cases hb
    exact .joinThread a t
  | yield =>
    cases hb
    exact .selectThread hw a true
  | exit v =>
    cases hb
    exact .exitThread hw a v
  | sleep i =>
    cases hb
    exact .sleepThread hw (hwait i) a
  | wakeup i =>
    cases hb
    exact .wakeupThread hw a _
  | disable => exact .changeScheduler hb
  | enable => exact .changeScheduler hb
  | initMutex m =>
    cases hb
    exact .of_tcb rfl
  | lock m => exact .lockMutex hw (hmutex m) hb
  | unlock m => exact .unlockMutex hw hb
  | tryLock m => exact .tryLockMutex hb
  | initCond i =>
    cases hb
    exact .refl _ a
  | waitCond i m => exact .waitCond hw (hcond i) hb
  | signalCond i =>
    cases hb
    exact .wakeupThread hw a _
  | initMessageQueue j c =>
    cases hb
    exact .of_tcb rfl
  | send j msg flags =>
    cases hb
    unfold sendMessage
    dsimp only
    split
    · exact .blockIf hw (hsend j hu) a flags
    · exact hwake _ _ _
  | receive j flags =>
    cases hb
    unfold receiveMessage
    dsimp only
    split
    · exact .blockIf hw (hrecv j hu) a flags
    · exact hwake _ _ _
  | jam j msg flags =>
    cases hb
    unfold jamMessage
    dsimp only
    split
    · exact .blockIf hw (hsend j hu) a flags
    · exact hwake _ _ _

/-- The law is kept where the messages stay and nobody comes to wait. -/
theorem ServedAt.keep (h : a.ServedAt k) (ha : Core ∅ a) (hb : Core ∅ b) (hm : b.msgq k = a.msgq k)
    (hr : NoneJoins (.msgRecv k) a b) (hs : NoneJoins (.msgSend k) a b) : b.ServedAt k := by
  unfold ServedAt
  rw [hm]
  exact ⟨fun hu => hr.nil_of_nil ha hb trivial (h.1 hu), fun hu => hs.nil_of_nil ha hb trivial (h.2 hu)⟩

/-- A caller that is turned away waits for what is not there. -/
theorem ServedAt.blockIf_send (h : a.ServedAt k) (ha : Core ∅ a) {flags : Nat}
    (hb : Core ∅ (a.blockIf flags (.msgSend k))) (hf : (a.msgq k).msgCount ≤ (a.msgq k).usedCount) :
    (a.blockIf flags (.msgSend k)).ServedAt k := by
  unfold ServedAt
  rw [blockIf_msgq]
  constructor
  · intro hu
    have hj : NoneJoins (.msgRecv k) a (a.blockIf flags (.msgSend k)) :=
      NoneJoins.blockIf (q := .msgRecv k) (r := .msgSend k) trivial nofun a flags
    exact hj.nil_of_nil ha hb trivial (h.1 hu)
  · exact fun hu => absurd hf (Nat.not_le.mpr hu)

theorem ServedAt.blockIf_recv (h : a.ServedAt k) (ha : Core ∅ a) {flags : Nat}
    (hb : Core ∅ (a.blockIf flags (.msgRecv k))) (hf : (a.msgq k).usedCount = 0) :
    (a.blockIf flags (.msgRecv k)).ServedAt k := by
  unfold ServedAt
  rw [blockIf_msgq]
  constructor
  · intro hu
    exact absurd hf (Nat.ne_of_gt hu)
  · intro hu
    have hj : NoneJoins (.msgSend k) a (a.blockIf flags (.msgRecv k)) :=
      NoneJoins.blockIf (q := .msgSend k) (r := .msgRecv k) trivial nofun a flags
    exact hj.nil_of_nil ha hb trivial (h.2 hu)

/-- The call that ends the condition wakes everyone who waits for it, and the other
side had nobody waiting. -/
theorem ServedAt.served (ha : Core ∅ a) {r : QueueAddr} (hw : r = .msgRecv k ∧ q = .msgSend k ∨
    r = .msgSend k ∧ q = .msgRecv k) (hnil : a.queue q = []) (g : MsgQueue → MsgQueue) :
    ((a.modQ k g).wakeupThread r).ServedAt k := by
  have hq : q.isWait := by rcases hw with ⟨-, rfl⟩ | ⟨-, rfl⟩ <;> trivial
  have hr : r.isWait := by rcases hw with ⟨rfl, -⟩ | ⟨rfl, -⟩ <;> trivial
  obtain ⟨hc, _, hwoken⟩ := (ha.modQ k g).wakeupThread (Set.notMem_empty _) hr
  have hj : NoneJoins q (a.modQ k g) ((a.modQ k g).wakeupThread r) := .wakeupThread hq (a.modQ k g) r
  have hother := hj.nil_of_nil (ha.modQ k g) hc hq hnil
  rcases hw with ⟨rfl, rfl⟩ | ⟨rfl, rfl⟩
  · exact ⟨fun _ => hwoken, fun _ => hother⟩
  · exact ⟨fun _ => hother, fun _ => hwoken⟩

/-- A call on the queue keeps the law of that queue. -/
theorem ServedAt.uses (h : a.ServedAt k) (ha : Core ∅ a) (hc : Core ∅ b) {o : Op} (hu : o.Uses k)
    (hb : a.apply n o = .ok b) : b.ServedAt k := by
  cases o with
  | initMessageQueue j i =>
    obtain rfl : j = k := hu
    cases hb
    simp [ServedAt, Sched.initMessageQueue]
  | send j msg flags =>
    obtain rfl : j = k := hu
    cases hb
    unfold sendMessage at hc ⊢
    dsimp only at hc ⊢
    split at hc
    · rename_i hf
      rw [if_pos hf]
      exact h.blockIf_send ha hc hf
    · rename_i hf
      rw [if_neg hf]
      exact .served ha (.inl ⟨rfl, rfl⟩) (h.2 (Nat.not_le.mp hf)) _
  | receive j flags =>
    obtain rfl : j = k := hu
    cases hb
    unfold receiveMessage at hc ⊢
    dsimp only at hc ⊢
    split at hc
    · rename_i hf
      rw [if_pos hf]
      exact h.blockIf_recv ha hc hf
    · rename_i hf
      rw [if_neg hf]
      exact .served ha (.inr ⟨rfl, rfl⟩) (h.1 (Nat.pos_of_ne_zero hf)) _
  | jam j msg flags =>
    obtain rfl : j = k := hu
    cases hb
    unfold jamMessage at hc ⊢
    dsimp only at hc ⊢
    split at hc
    · rename_i hf
      rw [if_pos hf]
      exact h.blockIf_send ha hc hf
    · rename_i hf
      rw [if_neg hf]
      exact .served ha (.inl ⟨rfl, rfl⟩) (h.2 (Nat.not_le.mp hf)) _
  | _ => cases hu

end Served

end Sched

section Runs

open Sched (ServedAt NoneJoins)

variable {W : Prop} {P : St → Op → Prop} {ph : Phase} {s s' : St} {a b : Sched} {o : Op} {n k j : Nat}

/-- One call of the interface. -/
theorem Represents.served_apply (h : Represents W ph s a) (h' : Represents W .pending s' b)
    (hv : ∀ k, a.ServedAt k) (hb : a.apply n o = .ok b) (k : Nat) : b.ServedAt k := by
  have ha := h.fine.shape.core
  have hc := h'.fine.shape.core
  by_cases hu : o.Uses k
  · exact (hv k).uses ha hc hu hb
  · exact (hv k).keep ha hc (Sched.apply_msgq hu hb) (NoneJoins.apply (.inl rfl) hu hb)
      (NoneJoins.apply (.inr rfl) hu hb)

/-- A pending lock request of the thread that resumes. -/
theorem Represents.served_locks (h : Represents W .pending s a) (h' : Represents W .idle s' b)
    (hv : ∀ k, a.ServedAt k) (hb : Sched.processPendingLocks n j a = .ok b) (k : Nat) : b.ServedAt k :=
  (hv k).keep h.fine.shape.core h'.fine.shape.core (congrFun (Sched.processPendingLocks_msgq hb) k)
    (NoneJoins.processPendingLocks trivial nofun hb) (NoneJoins.processPendingLocks trivial nofun hb)

/-- The law holds in every state of a run. -/
theorem Reached.served (h : Reached P ph s) : ∃ a, Represents False ph s a ∧ ∀ k, a.ServedAt k := by
  induction h with
  | init hs =>
    obtain ⟨_, he, hr⟩ := rep_initial _
    rw [he] at hs
    cases hs
    refine ⟨_, ⟨hr, Sched.fine_initial False, fun _ => ?_⟩, fun k => ?_⟩
    · simp [Sched.pendingLock, Sched.initial]
    · simp [ServedAt, Sched.initial_queue]
  | call _ hg _ hs ih =>
    obtain ⟨a, ha, hv⟩ := ih
    obtain ⟨b, hb, hr⟩ := ha.apply False.elim hg False.elim hs
    exact ⟨b, hr, ha.served_apply hr hv hb⟩
  | locks _ hs ih =>
    obtain ⟨a, ha, hv⟩ := ih
    obtain ⟨b, hb, hr⟩ := ha.locks hs
    exact ⟨b, hr, ha.served_locks hr hv hb⟩

/-- Nobody is linked in the queue, and no thread says that it sleeps there. -/
def St.nobodyWaits (s : St) (q : QueueAddr) : Prop :=
  s.members q = [] ∧ (s.queue q).head = 0 ∧ ∀ t, (s.thr t).state = .waiting → (s.thr t).queue ≠ q

theorem Represents.nobodyWaits (h : Represents W ph s a) {q : QueueAddr} (hq : q.isWait)
    (he : a.queue q = []) : s.nobodyWaits q := by
  refine ⟨(h.rep.members h.fine.shape q).trans he, (h.rep.empty q).mpr he, fun t hst hl => ?_⟩
  rw [h.rep.tcb] at hst hl
  have hm := (h.fine.shape.core.mem q hq.ne_active t).mpr ⟨Set.notMem_empty t, (home_wait hq).mpr ⟨hst, hl⟩⟩
  rw [he] at hm
  cases hm

/-- While a queue holds a message nobody waits to receive one, and while it has a free
place nobody waits to send one. -/
theorem reached_noLostWakeup (h : Reached AnyCall ph s) (k : Nat) :
    (0 < (s.msgq k).usedCount → s.nobodyWaits (.msgRecv k)) ∧
      ((s.msgq k).usedCount < (s.msgq k).msgCount → s.nobodyWaits (.msgSend k)) := by
  obtain ⟨a, ha, hv⟩ := h.served
  rw [ha.rep.msgq]
  exact ⟨fun hu => ha.nobodyWaits trivial ((hv k).1 hu), fun hu => ha.nobodyWaits trivial ((hv k).2 hu)⟩

/-- A receiver that was suspended while it waited has left the queue once a message is there. -/
theorem suspended_noLostWakeup : ∃ s, Reached AnyCall .idle s ∧ (s.msgq 0).usedCount = 1 ∧
    (s.thr 2).state = .ready ∧ (s.thr 2).suspend = 1 ∧ s.nobodyWaits (.msgRecv 0) := by
  have hrun : (bootTrial AnyCall 40 [.create 1 10 0, .initMessageQueue 0 1, .resume 2, .receive 0 1,
      .suspend 2, .send 0 7 0]).any (fun s => (s.msgq 0).usedCount = 1 ∧ (s.thr 2).state = .ready ∧
        (s.thr 2).suspend = 1) = true := by
    decide +kernel
  obtain ⟨s, hs, hp⟩ := bootTrial_any hrun
  obtain ⟨hu, hst, hsus⟩ := of_decide_eq_true hp
  have hreach := reached_bootTrial hs
  have hpos : 0 < (s.msgq 0).usedCount := by simp [hu]
  exact ⟨s, hreach, hu, hst, hsus, (reached_noLostWakeup hreach 0).1 hpos⟩

end Runs

end SdkPort.OSThread
