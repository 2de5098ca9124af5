import SdkPort.OS.RepOps

/-!
# Ending threads, mutexes and messages in memory

The rest of the interface: threads that end, mutexes and condition variables,
message queues, and the loop over pending locks.
-/
namespace SdkPort.OSThread

open Linked (firstOf)
open Runs (Gives Lockstep gives_bind gives_pure lockstep_of_gives lockstep_bind run_bind_ok)
open Sched (Core Shape Sound Adrift Moved Idle Fit Fine)

variable {X D H : Set Addr} {s : St} {a : Sched} {t m : Addr} {q : QueueAddr} {n : Nat}

/-- From the end of a thread's life to the wakeup of those joining it. -/
theorem Rep.bury {V : Prop} {k : M α} {w : α} {b : Sched} (h : Rep s a)
    (hf : Fit False V (insert t ∅) ∅ ∅ (insert t ∅) a) (hu : (a.tcb t).state ≠ .unused)
    (hq : V → a.runQueueHint = false → a.currentThread ≠ t) (v : Option Nat)
    (hk : ∀ s', Rep s' (a.bury t v) → Gives Rep (k s') w b) :
    Gives Rep ((do
      OSThread.retire t v
      OSThread.portOSUnlockAllMutex t
      OSThread.portOSWakeupThread (.join t)
      k) s) w b := by
  have ht : t ≠ 0 := (hf.shape.core.slot t hu).1
  have hr := hf.retire hu hq v
  have hall := hr.unlockAllMutex (Sched.retire_dead a t v)
  refine gives_bind (h.retire hf.shape.core hu v) fun s₁ h₁ => ?_
  refine gives_bind (h₁.portOSUnlockAllMutex hr.shape ht) fun s₂ h₂ => ?_
  exact gives_bind (h₂.portOSWakeupThread_join hall.shape.core (Set.notMem_empty _)) hk

theorem Rep.portOSCancelThread (h : Rep s a) (hs : Sound a) (ht : t ≠ 0) (n : Nat) :
    Computes (portOSCancelThread n t s) (a.cancelThread n t) := by
  unfold OSThread.portOSCancelThread Sched.cancelThread
  refine lockstep_bind (h.cancelUnlink hs ht n) ?_
  rintro v s₁ r hr ⟨rfl, h₁⟩
  rcases hs.fine.cancelUnlink hr with ⟨hv, ho⟩ | ⟨hv, hra⟩
  · simp only [hv, if_true]
    have hbury := ho.fit.bury ho.used ho.quiet none
    refine computes_of_gives (v := ()) ?_
    refine h₁.bury ho.fit ho.used ho.quiet none fun s₂ h₂ => ?_
    exact h₂.portOSReschedule hbury.shape.core (Set.notMem_empty _)
  · simp only [hv, Bool.false_eq_true, if_false]
    exact h₁

theorem Rep.portOSExitThread (h : Rep s a) (hs : Sound a) (hr : a.CurrentRuns) (v : Nat) :
    Gives Rep (portOSExitThread v s) () (a.exitThread v) := by
  have hout := hs.fine.outgoing hr
  have hbury := hout.bury (by simp [hr.2]) False.elim (some v)
  unfold OSThread.portOSExitThread Sched.exitThread
  refine gives_bind h.getCurrent fun s₁ h₁ => ?_
  refine h₁.bury hout (by simp [hr.2]) False.elim (some v) fun s₂ h₂ => ?_
  refine gives_bind (h₂.setHint true) fun s₃ h₃ => ?_
  obtain ⟨u, hu⟩ := h₃.portSelectThread (hbury.shape.core.setHint true) (Set.notMem_empty _) false
  exact gives_bind hu fun s₄ h₄ => gives_pure _ h₄

theorem Rep.changeScheduler (h : Rep s a) (d : Int) {k : Int → M α} {g : Sched → Except Fault β}
    {R : α → St → β → Prop} (hk : ∀ s' b, a.changeScheduler d = .ok b → Rep s' b →
      Lockstep R (k b.reschedule s') (g b)) :
    Lockstep R ((do
      let count' ← addS32 a.reschedule d
      stSet ({ · with reschedule := count' })
      k count') s) (a.changeScheduler d >>= g) := by
  have hassoc : (a.changeScheduler d >>= g) = (checkS32 (a.reschedule + d) >>= fun count =>
      g { a with reschedule := count }) := by
    unfold Sched.changeScheduler
    cases checkS32 (a.reschedule + d) <;> rfl
  rw [hassoc]
  refine lockstep_addS32 fun v hv => ?_
  refine lockstep_of_gives (h.setReschedule v) fun s₁ h₁ => ?_
  refine hk s₁ { a with reschedule := v } ?_ h₁
  rw [Sched.changeScheduler, hv]
  rfl

theorem Rep.portOSDisableScheduler (h : Rep s a) :
    Computes (portOSDisableScheduler s) (a.changeScheduler 1) := by
  unfold OSThread.portOSDisableScheduler
  refine lockstep_of_gives h.getReschedule fun s₁ h₁ => ?_
  have hc := h₁.changeScheduler 1 (k := fun _ => pure a.reschedule) (g := .ok)
    (R := fun _ s b => Rep s b) fun s' b _ hs' => hs'
  rwa [Runs.bind_ok_self] at hc

theorem Rep.portOSEnableScheduler (h : Rep s a) :
    Computes (portOSEnableScheduler s) (a.changeScheduler (-1)) := by
  unfold OSThread.portOSEnableScheduler
  refine lockstep_of_gives h.getReschedule fun s₁ h₁ => ?_
  have hc := h₁.changeScheduler (-1) (k := fun _ => pure a.reschedule) (g := .ok)
    (R := fun _ s b => Rep s b) fun s' b _ hs' => hs'
  rwa [Runs.bind_ok_self] at hc

theorem Rep.portOSInitMutex (h : Rep s a) (hm : m ≠ 0) (he : a.queue (.mutex m) = []) :
    Gives Rep (portOSInitMutex m s) () (a.initMutex m) := by
  unfold OSThread.portOSInitMutex Sched.initMutex
  rw [Sched.setQueue_self he]
  refine gives_bind (h.qInit (by simp) he) fun s₁ h₁ => ?_
  refine gives_bind (h₁.coreSet hm _) fun s₂ h₂ => ?_
  have h₃ := h₂.coreSet hm ({ · with count := 0 })
  simpa [Sched.modM] using h₃

theorem Rep.acquire (h : Rep s a) (ht : t ≠ 0) (hm : m ≠ 0) (hf : ∀ u, m ∉ a.owned u) :
    Computes (acquire t m s) (a.acquire t m) := by
  unfold OSThread.acquire Sched.acquire
  refine lockstep_of_gives (h.coreSet hm _) fun s₁ h₁ => ?_
  refine lockstep_of_gives (h₁.coreGet hm _) fun s₂ h₂ => ?_
  have hcount : ((a.modM m ({ · with thread := t })).mtx m).count = (a.mtx m).count := by simp
  rw [hcount]
  refine lockstep_addS32 fun c _ => ?_
  refine lockstep_of_gives (h₂.coreSet hm _) fun s₃ h₃ => ?_
  have he : (a.modM m ({ · with thread := t })).modM m ({ · with count := c }) =
      a.modM m fun _ => ⟨t, c⟩ := by simp [Sched.modM]
  rw [he] at h₃
  exact computes_of_gives (h₃.portMutexPushTail ht hm hf)

theorem Rep.relock (h : Rep s a) (hm : m ≠ 0) : Computes (relock m s) (a.relock m) := by
  unfold OSThread.relock Sched.relock
  refine lockstep_of_gives (h.coreGet hm _) fun s₁ h₁ => ?_
  refine lockstep_addS32 fun c _ => ?_
  exact computes_of_gives (h₁.coreSet hm _)

/-- The state in which a contended lock puts the caller to sleep. -/
theorem Sched.Shape.promoted (hs : Sound a) (hr : a.CurrentRuns) (hm : MutexAddr m) {b c : Sched}
    (hb : b = a.modT a.currentThread ({ · with mutex := m }))
    (hc : Sched.promoteThread (b.prio b.currentThread) n b (b.mtx m).thread = .ok c) :
    Sound b ∧ b.prio b.currentThread ≤ 31 ∧ Sound c ∧ c.CurrentRuns := by
  have h0 : a.currentThread ∉ (∅ : Set Addr) := Set.notMem_empty _
  have hle := hr.prio_le hs.core h0
  have hsb : Sound b := by
    subst hb
    exact hs.modCurrent h0 hr hr.2 rfl rfl hle fun _ => hm
  have hrb : b.CurrentRuns := by
    subst hb
    exact ⟨hr.1, by simpa using hr.2⟩
  have hle' : b.prio b.currentThread ≤ 31 := hrb.prio_le hsb.core (Set.notMem_empty _)
  have hcore := hsb.core.promoteThread (adrift_empty b) hle' hc
  refine ⟨hsb, hle', hsb.reprio hcore.1 hcore.2, ?_⟩
  rw [Sched.CurrentRuns, hcore.2.current, hcore.2.state]
  exact hrb

theorem Rep.portOSLockMutex (h : Rep s a) (hs : Sound a) (hr : a.CurrentRuns) (hm : MutexAddr m)
    (n : Nat) : Computes (portOSLockMutex n m s) (a.lockMutex n m) := by
  unfold OSThread.portOSLockMutex Sched.lockMutex
  refine lockstep_of_gives h.getCurrent fun s₁ h₁ => ?_
  refine lockstep_of_gives (h₁.coreGet hm.1 _) fun s₂ h₂ => ?_
  by_cases h0 : (a.mtx m).thread = 0
  · simp only [h0, if_true]
    exact h₂.acquire hr.1 hm.1 (hs.not_owned h0)
  · simp only [h0, if_false]
    by_cases hown : (a.mtx m).thread = a.currentThread
    · simp only [hown, if_true]
      exact h₂.relock hm.1
    · simp only [hown, if_false]
      unfold Sched.blockOn
      refine lockstep_of_gives (h₂.tcbSet hr.1 _) fun s₃ h₃ => ?_
      refine lockstep_of_gives (h₃.tcbGet hr.1 _) fun s₄ h₄ => ?_
      have hle : (a.modT a.currentThread ({ · with mutex := m })).prio a.currentThread ≤ 31 := by
        simpa [Sched.prio] using hr.prio_le hs.core (Set.notMem_empty _)
      have hsb : Sound (a.modT a.currentThread ({ · with mutex := m })) :=
        hs.modCurrent (Set.notMem_empty _) hr hr.2 rfl rfl
          (hr.prio_le hs.core (Set.notMem_empty _)) fun _ => hm
      refine lockstep_bind (h₄.portOSPromoteThread hsb (adrift_empty _) h0 hle n) ?_
      intro _ s₅ c hc h₅
      obtain ⟨_, _, hsc, hrc⟩ := hs.promoted hr hm rfl hc
      exact computes_of_gives (h₅.portOSSleepThread hsc (Set.notMem_empty _) hrc
        (QueueAddr.mutex_isWait m))

theorem Rep.portOSTryLockMutex (h : Rep s a) (hs : Sound a) (hr : a.CurrentRuns) (hm : MutexAddr m) :
    Computes (portOSTryLockMutex m s) (a.tryLockMutex m) := by
  unfold OSThread.portOSTryLockMutex Sched.tryLockMutex
  refine lockstep_of_gives h.getCurrent fun s₁ h₁ => ?_
  refine lockstep_of_gives (h₁.coreGet hm.1 _) fun s₂ h₂ => ?_
  by_cases h0 : (a.mtx m).thread = 0
  · simp only [h0, if_true]
    rw [← Runs.bind_ok_self (a.acquire _ _)]
    exact lockstep_bind (h₂.acquire hr.1 hm.1 (hs.not_owned h0)) fun _ _ _ _ h₃ => h₃
  · simp only [h0, if_false]
    by_cases hown : (a.mtx m).thread = a.currentThread
    · simp only [hown, if_true]
      rw [← Runs.bind_ok_self (a.relock _)]
      exact lockstep_bind (h₂.relock hm.1) fun _ _ _ _ h₃ => h₃
    · simp only [hown, if_false]
      exact h₂

theorem Rep.dropBoost (h : Rep s a) (ht : t ≠ 0) (hlen : (a.owned t).length ≤ PORT_MAX_MUTEXES) :
    Gives Rep (dropBoost t s) () (a.dropBoost t) := by
  unfold OSThread.dropBoost Sched.dropBoost
  refine gives_bind (h.tcbGet ht _) fun s₁ h₁ => ?_
  refine gives_bind (h₁.tcbGet ht _) fun s₂ h₂ => ?_
  by_cases hlt : (a.tcb t).priority < (a.tcb t).base
  · simp only [Sched.prio, hlt, if_true]
    rw [run_bind_ok (h₂.portOSGetEffectivePriority ht hlen)]
    exact h₂.tcbSet ht _
  · simp only [Sched.prio, hlt, if_false]
    exact gives_pure _ h₂

/-- The owner unlinks the mutex, clears its words, and gives up its boost. -/
theorem Rep.release (h : Rep s (a.modM m ({ · with count := 0 }))) (hs : Shape X D H a) (ht : t ≠ 0)
    (hm : m ∈ a.owned t) {k : M α} {y : Except Fault Sched}
    (hk : ∀ s', Rep s' (a.release t m) → Computes (k s') y) :
    Computes ((do
      OSThread.portMutexPopItem t m
      OSThread.coreSet m ({ · with thread := 0 })
      OSThread.dropBoost t
      k) s) y := by
  have hm0 : m ≠ 0 := h.owned.ne_nil hm
  refine lockstep_of_gives (h.portMutexPopItem ht hm) fun s₁ h₁ => ?_
  refine lockstep_of_gives (h₁.coreSet hm0 _) fun s₂ h₂ => ?_
  have he : ((a.modM m ({ · with count := 0 })).setOwned t ((a.owned t).erase m)).modM m
      ({ · with thread := 0 }) = a.disown t m := by
    simp [Sched.disown, Sched.modM, Sched.setOwned]
  rw [Sched.modM_owned, he] at h₂
  exact lockstep_of_gives (h₂.dropBoost ht ((hs.disown hm).length_owned t)) hk

theorem Rep.portOSUnlockMutex (h : Rep s a) (hs : Sound a) (hr : a.CurrentRuns) (hm : m ≠ 0) :
    Computes (portOSUnlockMutex m s) (a.unlockMutex m) := by
  unfold OSThread.portOSUnlockMutex Sched.unlockMutex
  refine lockstep_of_gives h.getCurrent fun s₁ h₁ => ?_
  refine lockstep_of_gives (h₁.coreGet hm _) fun s₂ h₂ => ?_
  by_cases hown : (a.mtx m).thread = a.currentThread
  · simp only [hown, if_true]
    refine lockstep_of_gives (h₂.coreGet hm _) fun s₃ h₃ => ?_
    refine lockstep_addS32 fun c _ => ?_
    refine lockstep_of_gives (h₃.coreSet hm _) fun s₄ h₄ => ?_
    by_cases hz : c = 0
    · subst hz
      simp only [if_true]
      have hmem : m ∈ a.owned a.currentThread := (hs.owned _ m).mpr ⟨hr.1, hown⟩
      have hrel := (hs.release (Set.notMem_empty _) hr hown).1
      refine h₄.release hs hr.1 hmem fun s₅ h₅ => ?_
      exact computes_of_gives (h₅.portOSWakeupThread hrel.core (Set.notMem_empty _)
        (QueueAddr.mutex_isWait m))
    · simp only [hz, if_false]
      exact h₄
  · simp only [hown, if_false]
    exact h₂

theorem Rep.portOSWaitCond (h : Rep s a) (hs : Sound a) (hr : a.CurrentRuns) (hm : m ≠ 0) (c : Nat) :
    Computes (portOSWaitCond c m s) (a.waitCond c m) := by
  unfold OSThread.portOSWaitCond Sched.waitCond
  refine lockstep_of_gives h.getCurrent fun s₁ h₁ => ?_
  refine lockstep_of_gives (h₁.coreGet hm _) fun s₂ h₂ => ?_
  by_cases hown : (a.mtx m).thread = a.currentThread
  · simp only [hown, not_true, if_false, ne_eq]
    refine lockstep_of_gives (h₂.coreGet hm _) fun s₃ h₃ => ?_
    refine lockstep_of_gives (h₃.coreSet hm _) fun s₄ h₄ => ?_
    have hmem : m ∈ a.owned a.currentThread := (hs.owned _ m).mpr ⟨hr.1, hown⟩
    obtain ⟨hrel, hrr⟩ := hs.release (Set.notMem_empty _) hr hown
    refine h₄.release hs hr.1 hmem fun s₅ h₅ => ?_
    refine lockstep_of_gives h₅.getReschedule fun s₆ h₆ => ?_
    refine h₆.changeScheduler 1 fun s₇ d hd h₇ => ?_
    have hsd := hrel.changeScheduler hd
    have hrd := hrr.changeScheduler hd
    have hsw : Sound (d.wakeupThread (.mutex m)) := hsd.wakeupMutex (Set.notMem_empty _)
    have hrw := hsd.core.currentRuns_wakeupThread (Set.notMem_empty _) (QueueAddr.mutex_isWait m) hrd
    refine lockstep_of_gives (h₇.portOSWakeupThread hsd.core (Set.notMem_empty _)
      (QueueAddr.mutex_isWait m)) fun s₈ h₈ => ?_
    refine lockstep_of_gives h₈.getReschedule fun s₉ h₉ => ?_
    refine h₉.changeScheduler (-1) fun s₁₀ e he h₁₀ => ?_
    have hse := hsw.changeScheduler he
    have hre := hrw.changeScheduler he
    refine lockstep_of_gives (h₁₀.portOSSleepThread hse (Set.notMem_empty _) hre (q := .cond c)
      trivial) fun s₁₁ h₁₁ => ?_
    refine lockstep_of_gives (h₁₁.tcbSet hr.1 _) fun s₁₂ h₁₂ => ?_
    have h₁₃ := h₁₂.tcbSet hr.1 ({ · with val := toU32 (a.mtx m).count })
    rw [Sched.modT_modT] at h₁₃
    exact computes_of_gives h₁₃
  · simp only [hown, not_false_eq_true, if_true, ne_eq]
    exact h₂

theorem Rep.portOSJoinThread (h : Rep s a) (hs : Sound a) (ht : t ≠ 0) :
    ∃ v, Gives Rep (portOSJoinThread t s) v (a.joinThread t) := by
  unfold OSThread.portOSJoinThread Sched.joinThread
  obtain ⟨s₁, he₁, h₁⟩ := h.tcbGet ht (·.attr)
  obtain ⟨s₂, he₂, h₂⟩ := h₁.tcbGet ht (·.state)
  rw [run_bind_ok he₁, run_bind_ok he₂]
  by_cases hat : (a.tcb t).attr % 2 = 1
  · simp only [hat, if_true, ne_eq, not_true, false_and, if_false]
    exact ⟨none, gives_pure _ h₂⟩
  · by_cases hst : (a.tcb t).state = .moribund
    · simp only [hat, hst, if_true, ne_eq, not_false_eq_true, true_and, if_false]
      refine ⟨some (a.tcb t).val, ?_⟩
      have hm : t ∈ a.queue .active := (hs.core.active t).mpr (by simp [hst])
      refine gives_bind (h₂.tcbGet ht _) fun s₃ h₃ => ?_
      refine gives_bind (h₃.portRemoveItem (q := .active) (by simp) hm) fun s₄ h₄ => ?_
      exact gives_bind (h₄.tcbSet ht _) fun s₅ h₅ => gives_pure _ h₅
    · simp only [hat, hst, if_false, and_false]
      exact ⟨none, gives_pure _ h₂⟩

theorem Rep.portOSInitMessageQueue (h : Rep s a) {k : Nat} (hsend : a.queue (.msgSend k) = [])
    (hrecv : a.queue (.msgRecv k) = []) (c : Nat) :
    Gives Rep (portOSInitMessageQueue k c s) () (a.initMessageQueue k c) := by
  unfold OSThread.portOSInitMessageQueue Sched.initMessageQueue
  rw [Sched.setQueue_self hsend, Sched.setQueue_self hrecv]
  refine gives_bind (h.qInit (by simp) hsend) fun s₁ h₁ => ?_
  refine gives_bind (h₁.qInit (by simp) hrecv) fun s₂ h₂ => ?_
  refine gives_bind (h₂.mqSet k _) fun s₃ h₃ => ?_
  have h₄ := h₃.mqSet k fun q => { q with msgs := fun i => if i < PORT_MAX_MSGS_PER_Q then 0 else q.msgs i }
  simpa [Sched.modQ] using h₄

/-- A caller that may block sleeps when asked to. -/
theorem Rep.blockIf {k : M α} {v : α} {b : Sched} (h : Rep s a) (hs : Sound a) {flags : Nat}
    (hr : blocks flags → a.CurrentRuns) (hq : q.isWait) (hk : ∀ s', Rep s' (a.blockIf flags q) → Gives Rep (k s') v b) :
    Gives Rep ((do
      if blocks flags then
        OSThread.portOSSleepThread q
      k) s) v b := by
  by_cases hb : blocks flags
  · simp only [hb, if_true]
    refine gives_bind (h.portOSSleepThread hs (Set.notMem_empty _) (hr hb) hq) fun s₁ h₁ =>
      hk s₁ ?_
    simpa [Sched.blockIf, hb] using h₁
  · simp only [hb, if_false]
    refine hk s ?_
    simpa [Sched.blockIf, hb] using h

/-- What `portOSSendMessage` and `portOSJamMessage` return. -/
def Sched.accepts (a : Sched) (k : Nat) : Bool := (a.msgq k).usedCount < (a.msgq k).msgCount

/-- What `portOSReceiveMessage` returns. -/
def Sched.firstMessage (a : Sched) (k : Nat) : Option Nat :=
  if (a.msgq k).usedCount = 0 then none else some ((a.msgq k).msgs (a.msgq k).firstIndex)

theorem Rep.gives_send (h : Rep s a) (hs : Sound a) {flags : Nat}
    (hr : blocks flags → a.CurrentRuns) (k msg : Nat) :
    Gives Rep (portOSSendMessage k msg flags s) (a.accepts k) (a.sendMessage k msg flags) := by
  unfold OSThread.portOSSendMessage Sched.sendMessage Sched.accepts
  obtain ⟨s₁, he₁, h₁⟩ := h.mqGet k (·.msgCount)
  obtain ⟨s₂, he₂, h₂⟩ := h₁.mqGet k (·.usedCount)
  rw [run_bind_ok he₁, run_bind_ok he₂]
  by_cases hfull : (a.msgq k).msgCount ≤ (a.msgq k).usedCount
  · simp only [hfull, if_true, Nat.not_lt.mpr hfull, decide_false]
    exact h₂.blockIf hs hr (q := .msgSend k) trivial fun s₃ h₃ => gives_pure _ h₃
  · simp only [hfull, if_false, Nat.not_le.mp hfull, decide_true]
    refine gives_bind (h₂.mqGet k _) fun s₃ h₃ => ?_
    refine gives_bind (h₃.mqSet k _) fun s₄ h₄ => ?_
    refine gives_bind (h₄.mqSet k _) fun s₅ h₅ => ?_
    rw [Sched.modQ_modQ] at h₅
    exact gives_bind (h₅.portOSWakeupThread (hs.fine.modQ k _).shape.core (Set.notMem_empty _)
      (q := .msgRecv k) trivial) fun s₆ h₆ => gives_pure _ h₆

theorem Rep.portOSSendMessage (h : Rep s a) (hs : Sound a) {flags : Nat}
    (hr : blocks flags → a.CurrentRuns) (k msg : Nat) :
    ∃ v, Gives Rep (portOSSendMessage k msg flags s) v (a.sendMessage k msg flags) :=
  ⟨_, h.gives_send hs hr k msg⟩

theorem Rep.gives_receive (h : Rep s a) (hs : Sound a) {flags : Nat}
    (hr : blocks flags → a.CurrentRuns) (k : Nat) :
    Gives Rep (portOSReceiveMessage k flags s) (a.firstMessage k) (a.receiveMessage k flags) := by
  unfold OSThread.portOSReceiveMessage Sched.receiveMessage Sched.firstMessage
  obtain ⟨s₁, he₁, h₁⟩ := h.mqGet k (·.usedCount)
  rw [run_bind_ok he₁]
  by_cases hempty : (a.msgq k).usedCount = 0
  · simp only [hempty, if_true]
    exact h₁.blockIf hs hr (q := .msgRecv k) trivial fun s₃ h₃ => gives_pure _ h₃
  · simp only [hempty, if_false]
    obtain ⟨s₂, he₂, h₂⟩ := h₁.mqGet k (·.firstIndex)
    obtain ⟨s₃, he₃, h₃⟩ := h₂.mqGet k (·.msgCount)
    obtain ⟨s₄, he₄, h₄⟩ := h₃.mqGet k (·.msgs (a.msgq k).firstIndex)
    rw [run_bind_ok he₂, run_bind_ok he₃, run_bind_ok he₄]
    refine gives_bind (h₄.mqSet k _) fun s₅ h₅ => ?_
    refine gives_bind (h₅.mqSet k _) fun s₆ h₆ => ?_
    rw [Sched.modQ_modQ] at h₆
    exact gives_bind (h₆.portOSWakeupThread (hs.fine.modQ k _).shape.core (Set.notMem_empty _)
      (q := .msgSend k) trivial) fun s₇ h₇ => gives_pure _ h₇

theorem Rep.portOSReceiveMessage (h : Rep s a) (hs : Sound a) {flags : Nat}
    (hr : blocks flags → a.CurrentRuns) (k : Nat) :
    ∃ v, Gives Rep (portOSReceiveMessage k flags s) v (a.receiveMessage k flags) :=
  ⟨_, h.gives_receive hs hr k⟩

theorem Rep.gives_jam (h : Rep s a) (hs : Sound a) {flags : Nat}
    (hr : blocks flags → a.CurrentRuns) (k msg : Nat) :
    Gives Rep (portOSJamMessage k msg flags s) (a.accepts k) (a.jamMessage k msg flags) := by
  unfold OSThread.portOSJamMessage Sched.jamMessage Sched.accepts
  obtain ⟨s₁, he₁, h₁⟩ := h.mqGet k (·.msgCount)
  obtain ⟨s₂, he₂, h₂⟩ := h₁.mqGet k (·.usedCount)
  rw [run_bind_ok he₁, run_bind_ok he₂]
  by_cases hfull : (a.msgq k).msgCount ≤ (a.msgq k).usedCount
  · simp only [hfull, if_true, Nat.not_lt.mpr hfull, decide_false]
    exact h₂.blockIf hs hr (q := .msgSend k) trivial fun s₃ h₃ => gives_pure _ h₃
  · simp only [hfull, if_false, Nat.not_le.mp hfull, decide_true]
    refine gives_bind (h₂.mqGet k _) fun s₃ h₃ => ?_
    refine gives_bind (h₃.mqSet k _) fun s₄ h₄ => ?_
    refine gives_bind (h₄.mqSet k _) fun s₅ h₅ => ?_
    refine gives_bind (h₅.mqSet k _) fun s₆ h₆ => ?_
    rw [Sched.modQ_modQ, Sched.modQ_modQ] at h₆
    exact gives_bind (h₆.portOSWakeupThread (hs.fine.modQ k _).shape.core (Set.notMem_empty _)
      (q := .msgRecv k) trivial) fun s₇ h₇ => gives_pure _ h₇

theorem Rep.portOSJamMessage (h : Rep s a) (hs : Sound a) {flags : Nat}
    (hr : blocks flags → a.CurrentRuns) (k msg : Nat) :
    ∃ v, Gives Rep (portOSJamMessage k msg flags s) v (a.jamMessage k msg flags) :=
  ⟨_, h.gives_jam hs hr k msg⟩

/-- The state in which a pending lock is retried. -/
theorem Sched.Shape.cleared (hs : Sound a) (hr : a.CurrentRuns) :
    Sound (a.modT a.currentThread ({ · with mutex := 0 })) ∧
      (a.modT a.currentThread ({ · with mutex := 0 })).CurrentRuns :=
  ⟨(hs.fine.clearPending hr).shape, hr.1, by simpa using hr.2⟩

theorem Rep.retryLock (h : Rep s a) (hs : Sound a) (hr : a.CurrentRuns) (hm : MutexAddr m) (n : Nat) :
    Computes (retryLock n a.currentThread m s) (a.retryLock n a.currentThread m) := by
  obtain ⟨hsc, hrc⟩ := hs.cleared hr
  unfold OSThread.retryLock Sched.retryLock
  refine lockstep_of_gives (h.tcbGet hr.1 _) fun s₁ h₁ => ?_
  refine lockstep_of_gives (h₁.tcbSet hr.1 _) fun s₂ h₂ => ?_
  refine lockstep_bind (h₂.portOSLockMutex hsc hrc hm n) fun _ s₃ b hb h₃ => ?_
  refine lockstep_of_gives (h₃.coreGet hm.1 _) fun s₄ h₄ => ?_
  refine lockstep_of_gives (h₄.coreGet hm.1 _) fun s₅ h₅ => ?_
  unfold Sched.restoreCount
  by_cases hc : 0 < (a.tcb a.currentThread).val ∧ (b.mtx m).thread = a.currentThread ∧
      (b.mtx m).count = 1
  · rw [if_pos hc, if_pos hc]
    refine lockstep_of_gives (h₅.coreSet hm.1 _) fun s₆ h₆ => ?_
    exact computes_of_gives (h₆.tcbSet hr.1 _)
  · rw [if_neg hc, if_neg hc]
    exact h₅

theorem Rep.pendingLock (h : Rep s a) : pendingLock s = a.pendingLock := by
  have hm : (s.thr s.currentThread).toTcb = a.tcb a.currentThread := by rw [h.tcb, h.current]
  unfold OSThread.pendingLock Sched.pendingLock
  rw [h.current] at hm ⊢
  simp only [hm]

theorem Rep.portProcessPendingLocks (h : Rep s a) (hs : Sound a) (n k : Nat) :
    Computes (portProcessPendingLocks n k s) (Sched.processPendingLocks n k a) := by
  induction k generalizing s a with
  | zero => rfl
  | succ k ih =>
    unfold OSThread.portProcessPendingLocks Sched.processPendingLocks
    have hp : Gives Rep (stGet OSThread.pendingLock s) a.pendingLock a :=
      ⟨s, by simp [stGet, h.pendingLock], h⟩
    refine lockstep_of_gives hp fun s₁ h₁ => ?_
    cases hpl : a.pendingLock with
    | none => exact h₁
    | some p =>
      obtain ⟨hr, hp₁, hp₂, hp0⟩ := Sched.pendingLock_eq hpl
      obtain ⟨ct, m⟩ := p
      simp only at hp₁ hp₂ hp0
      subst hp₁
      have hm : MutexAddr m := by
        rw [hp₂] at hp0 ⊢
        exact hs.pending _ hp0
      refine lockstep_bind (h₁.retryLock hs hr hm n) fun _ s₂ b hb h₂ => ?_
      exact ih h₂ (hs.fine.retryLock hpl hb).shape

end SdkPort.OSThread
