import SdkPort.OS.SchedDepth
import SdkPort.OS.Structure

/-!
# Recursion counts

Runs are followed with a ghost that counts acquisitions, unlocks and what condition
waits save. The count word of every mutex is that depth, as long as no deferred grant
takes the initial value word of a thread for a saved depth.
-/
namespace SdkPort.OSThread

open Runs (bind_eq_ok run_bind run_bind_ok)
open Sched (Tally Fine Sound)

variable {W : Prop} {s s' : St} {a b : Sched} {g g' : Ghost} {t m : Addr} {n k : Nat} {o : Op}
  {ph : Phase} {Q : St → Addr → Addr → Prop}

def St.owner (s : St) (m : Addr) : Addr := (s.mtx m).thread

/-- What a call does to the depths. -/
def Ghost.call (g : Ghost) (s : St) : Op → Ghost
  | .create slot _ _ => g.setSaved (PORT_THREAD_ADDR slot) none
  | .cancel t => g.bury s.owner t
  | .exit _ => g.bury s.owner s.currentThread
  | .lock m | .tryLock m =>
    if s.owner m = 0 ∨ s.owner m = s.currentThread then g.take m else g
  | .unlock m => if s.owner m = s.currentThread then g.setDepth m (g.depth m - 1) else g
  | .waitCond _ m =>
    if s.owner m = s.currentThread then
      (g.setDepth m 0).setSaved s.currentThread (some (m, g.depth m))
    else g
  | _ => g

/-- A retry that will get a free mutex for a thread whose value word is the initial one:
no condition wait has saved a depth there. -/
def BlankGrant (s : St) (t m : Addr) : Prop := s.owner m = 0 ∧ (s.thr t).val = 0xFFFFFFFF

/-- No restriction on deferred grants. -/
def AnyGrant : St → Addr → Addr → Prop := fun _ _ _ => True

/-- Every granted mutex goes to a thread that has a depth saved. -/
def SavedGrant : St → Addr → Addr → Prop := fun s t m => ¬ BlankGrant s t m

instance (s : St) (t m : Addr) : Decidable (BlankGrant s t m) := inferInstanceAs (Decidable (_ ∧ _))
instance (s : St) (t m : Addr) : Decidable (AnyGrant s t m) := .isTrue trivial
instance (s : St) (t m : Addr) : Decidable (SavedGrant s t m) := inferInstanceAs (Decidable (¬ _))

section Counted

variable (Q) [∀ s t m, Decidable (Q s t m)]

/-- `portProcessPendingLocks` with the ghost beside it, all of whose retries satisfy `Q`. -/
def settle (n : Nat) : Nat → St → Ghost → Option (St × Ghost)
  | 0, _, _ => none
  | k + 1, s, g =>
    match pendingLock s with
    | none => some (s, g)
    | some (t, m) =>
      if Q s t m then
        match retryLock n t m s with
        | .ok (_, s') => settle n k s' (g.retry (s.owner m) t m)
        | .error _ => none
      else none

/-- The states of a run with their depths. -/
inductive Counted : Phase → St → Ghost → Prop
  | init {s s' : St} : portOSThreadInit s = .ok ((), s') → Counted .idle s' .blank
  | call {s s' : St} {g : Ghost} {o : Op} {n : Nat} : Counted .idle s g → o.Guarded s →
      o.exec n s = .ok ((), s') → Counted .pending s' (g.call s o)
  | locks {s s' : St} {g g' : Ghost} {n k : Nat} : Counted .pending s g →
      settle Q n k s g = some (s', g') → Counted .idle s' g'

end Counted

/-- The ghost does not change what the function does. -/
theorem process_of_settle [∀ s t m, Decidable (Q s t m)] (h : settle Q n k s g = some (s', g')) :
    portProcessPendingLocks n k s = .ok ((), s') := by
  induction k generalizing s g with
  | zero => cases h
  | succ k ih =>
    unfold settle at h
    unfold portProcessPendingLocks
    have hget : stGet pendingLock s = .ok (pendingLock s, s) := rfl
    rw [run_bind_ok hget]
    cases hp : pendingLock s with
    | none =>
      simp only [hp] at h
      cases h
      rfl
    | some p =>
      simp only [hp] at h
      split at h
      · cases hx : retryLock n p.1 p.2 s with
        | error e => simp [hx] at h
        | ok r =>
          simp only [hx] at h
          exact (run_bind_ok hx).trans (ih h)
      · cases h

theorem settle_of_process (h : portProcessPendingLocks n k s = .ok ((), s')) :
    ∃ g', settle AnyGrant n k s g = some (s', g') := by
  induction k generalizing s g with
  | zero => cases h
  | succ k ih =>
    unfold settle
    unfold portProcessPendingLocks at h
    have hget : stGet pendingLock s = .ok (pendingLock s, s) := rfl
    rw [run_bind_ok hget] at h
    cases hp : pendingLock s with
    | none =>
      rw [hp] at h
      cases h
      exact ⟨g, rfl⟩
    | some p =>
      simp only [hp] at h
      rw [run_bind] at h
      cases hx : retryLock n p.1 p.2 s with
      | error e =>
        rw [hx] at h
        cases h
      | ok r =>
        rw [hx] at h
        obtain ⟨g', hg'⟩ := ih (g := g.retry (s.owner p.2) p.1 p.2) h
        exact ⟨g', by simpa [AnyGrant, hx] using hg'⟩

/-- Every run has its depths, and depths belong to a run. -/
theorem reached_iff_counted : Reached AnyCall ph s ↔ ∃ g, Counted AnyGrant ph s g := by
  constructor
  · intro h
    induction h with
    | init hs => exact ⟨_, .init hs⟩
    | call _ hg _ hs ih =>
      obtain ⟨g, hc⟩ := ih
      exact ⟨_, hc.call hg hs⟩
    | locks _ hs ih =>
      obtain ⟨g, hc⟩ := ih
      obtain ⟨g', hg'⟩ := settle_of_process hs
      exact ⟨g', hc.locks hg'⟩
  · rintro ⟨g, h⟩
    induction h with
    | init hs => exact .init hs
    | call _ hg hs ih => exact ih.call hg trivial hs
    | locks _ hs ih => exact ih.locks (process_of_settle hs)

theorem Rep.owner (h : Rep s a) (m : Addr) : s.owner m = (a.mtx m).thread :=
  congrArg (·.thread) (h.mtx m)

theorem Rep.owner_eq (h : Rep s a) : s.owner = fun m => (a.mtx m).thread := funext h.owner

theorem tally_initial : Tally Sched.initial .blank := by
  refine ⟨fun _ => rfl, fun _ => by simp [Ghost.blank], fun _ => ⟨fun _ => rfl, fun _ => rfl⟩, ?_, nofun⟩
  intro t hl
  have ht : t = 1 := by
    by_contra hne
    simp [Sched.live, Sched.initial_tcb, hne, blankThread] at hl
  rw [Sched.initial_tcb, if_pos ht]
  rfl

/-- Nothing is left to bury of a thread that is dead already. -/
theorem Sched.Shape.buried_self (h : Sound a) (hd : ¬ a.live t) (h0 : t ≠ 0) : Sched.Buried t a a := by
  refine ⟨hd, fun _ => id, fun _ _ => ⟨rfl, rfl⟩, ?_, rfl⟩
  intro m
  have hne : (a.mtx m).thread ≠ t := by
    intro he
    subst he
    exact hd ((h.live m h0).resolve_right (Set.notMem_empty _))
  rw [if_neg hne]

/-- The calls that take and give back no mutex, make no thread and end none. -/
def Op.LeavesLocks : Op → Prop
  | .resume _ | .suspend _ | .join _ | .yield | .sleep _ | .wakeup _ | .signalCond _ => True
  | .send .. | .receive .. | .jam .. => True
  | _ => False

/-- They change nothing that counts for the mutexes. -/
theorem Represents.quiet_apply {W : Prop} (h : Represents W .idle s a) (hg : o.Guarded s) (hb : a.apply n o = .ok b)
    (ho : o.LeavesLocks) : Sched.Quiet a b := by
  have hf := h.fine
  have hs := hf.shape
  cases o with
  | resume t => exact hf.quiet_resumeThread hb
  | suspend t => exact hf.quiet_suspendThread hb
  | join t =>
    cases hb
    exact Sched.Quiet.joinThread a t
  | yield =>
    cases hb
    exact (hs.core.selectThread (q := .null) (by simp) true).2.quiet
  | sleep i =>
    cases hb
    exact hs.core.quiet_sleepThread (by simp) (h.rep.running.mp hg) trivial
  | wakeup i =>
    cases hb
    exact hs.quiet_wakeupThread trivial
  | signalCond c =>
    cases hb
    exact hs.quiet_wakeupThread trivial
  | send k msg flags =>
    cases hb
    exact hf.quiet_sendMessage (fun hx => h.rep.running.mp (hg hx)) k msg
  | receive k flags =>
    cases hb
    exact hf.quiet_receiveMessage (fun hx => h.rep.running.mp (hg hx)) k
  | jam k msg flags =>
    cases hb
    exact hf.quiet_jamMessage (fun hx => h.rep.running.mp (hg hx)) k msg
  | _ => exact ho.elim

/-- Every call moves counts and depths together. -/
theorem Represents.tally_apply (h : Represents False .idle s a) (ht : Tally a g) (hg : o.Guarded s)
    (hb : a.apply n o = .ok b) : Tally b (g.call s o) := by
  have hf := h.fine
  have hs := hf.shape
  have how := h.rep.owner
  have hcur := h.rep.current
  have hnone : a.CurrentRuns → g.saved a.currentThread = none := fun hr =>
    ht.saved_current hr (Sched.mutex_of_pendingLock (h.settled rfl) hr)
  cases o with
  | create slot p attr =>
    cases hb
    have hu : (a.tcb (PORT_THREAD_ADDR slot)).state = .unused := by
      rw [← h.rep.tcb]
      exact hg.2
    exact ht.createThread hu p attr
  | cancel t =>
    simp only [Ghost.call, h.rep.owner_eq]
    by_cases hl : a.live t
    · exact ht.buried (hf.cancelThread_buried hl hb) hg.1
    · rw [Sched.cancelThread_dead hl hb]
      exact ht.buried (hs.buried_self hl hg.1) hg.1
  | exit v =>
    cases hb
    have hr := h.rep.running.mp hg
    simp only [Ghost.call, h.rep.owner_eq, hcur]
    exact ht.buried (hf.exitThread_buried hr v) hr.1
  | disable => exact ht.changeScheduler hb
  | enable => exact ht.changeScheduler hb
  | initMutex m =>
    cases hb
    apply ht.initMutex
    rw [← how]
    exact hg.2.1
  | lock m =>
    have hr := h.rep.running.mp hg.1
    simp only [Ghost.call, how, hcur]
    exact ht.lockMutex hf hr hg.2 (hnone hr) hb
  | unlock m =>
    simp only [Ghost.call, how, hcur]
    exact ht.unlockMutex hf (h.rep.running.mp hg.1) hb
  | tryLock m =>
    have hr := h.rep.running.mp hg.1
    simp only [Ghost.call, how, hcur]
    exact ht.tryLockMutex hr (hnone hr) hb
  | initCond c =>
    cases hb
    exact ht
  | waitCond c m =>
    simp only [Ghost.call, how, hcur]
    exact ht.waitCond hf (h.rep.running.mp hg.1) hg.2 hb
  | initMessageQueue k c =>
    cases hb
    exact ht.congr rfl rfl
  | _ => exact ht.quiet (h.quiet_apply hg hb trivial)

/-- So does the processing of pending locks whose grants have a depth saved. -/
theorem Represents.tally_settle (h : Represents False .pending s a) (ht : Tally a g)
    (hs : settle SavedGrant n k s g = some (s', g')) :
    ∃ b, Represents False .idle s' b ∧ Tally b g' := by
  induction k generalizing s a g with
  | zero => cases hs
  | succ k ih =>
    unfold settle at hs
    rw [h.rep.pendingLock] at hs
    cases hp : a.pendingLock with
    | none =>
      simp only [hp] at hs
      cases hs
      exact ⟨a, ⟨h.rep, h.fine, fun _ => hp⟩, ht⟩
    | some p =>
      obtain ⟨t, m⟩ := p
      simp only [hp] at hs
      split at hs
      · rename_i hq
        obtain ⟨hr, he, hm, hm0⟩ := Sched.pendingLock_eq hp
        simp only at he hm hm0
        have hma : MutexAddr m := by
          rw [hm] at hm0 ⊢
          exact h.fine.shape.pending _ hm0
        have hx := h.rep.retryLock h.fine.shape hr hma n
        rw [← he] at hx
        cases hy : retryLock n t m s with
        | error e => simp [hy] at hs
        | ok r =>
          simp only [hy] at hs hx
          obtain ⟨b, hb, hrb⟩ := Runs.lockstep_ok_right hx
          have htb : Tally b (g.retry (s.owner m) t m) := by
            rw [h.rep.owner]
            refine ht.retryLock h.fine hp ?_ hb
            intro h0 hv
            apply hq
            rw [BlankGrant, h.rep.owner, h.rep.tcb]
            exact ⟨h0, hv⟩
          exact ih ⟨hrb, h.fine.retryLock hp hb, nofun⟩ htb hs
      · cases hs

/-- Every state of a run without blank grants represents lists that agree with the depths. -/
theorem Counted.represents (h : Counted SavedGrant ph s g) :
    ∃ a, Represents False ph s a ∧ Tally a g := by
  induction h with
  | init hs =>
    obtain ⟨_, he, hr⟩ := rep_initial _
    rw [he] at hs
    cases hs
    refine ⟨_, ⟨hr, Sched.fine_initial False, fun _ => ?_⟩, tally_initial⟩
    simp [Sched.pendingLock, Sched.initial]
  | call _ hg hs ih =>
    obtain ⟨a, ha, ht⟩ := ih
    obtain ⟨b, hb, hrep⟩ := ha.apply False.elim hg False.elim hs
    exact ⟨b, hrep, ha.tally_apply ht hg hb⟩
  | locks _ hs ih =>
    obtain ⟨a, ha, ht⟩ := ih
    exact ha.tally_settle ht hs

/-- Unlocks by the current thread, each followed by the processing of pending locks. -/
def unlocks (n k : Nat) (m : Addr) : Nat → M Unit
  | 0 => pure ()
  | j + 1 => do
    portOSUnlockMutex m
    portProcessPendingLocks n k
    unlocks n k m j

/-- Counts are depths, free mutexes have count 0, and an owner that runs frees its mutex
with the last of as many unlocks as the depth says, and not before. -/
structure CountsExact (ph : Phase) (s : St) (g : Ghost) : Prop where
  owned : ∀ m, s.owner m ≠ 0 → (s.mtx m).count = g.depth m ∧ 1 ≤ g.depth m
  free : ∀ m, s.owner m = 0 → (s.mtx m).count = 0
  freed : ph = .idle → s.Running → ∀ m n k, s.owner m = s.currentThread → ∀ j < g.depth m,
    ∃ s₁ s₂, unlocks n (k + 1) m j s = .ok ((), s₁) ∧ s₁.owner m = s.currentThread ∧
      portOSUnlockMutex m s₁ = .ok ((), s₂) ∧ (s₂.owner m = 0 ↔ j + 1 = g.depth m)

/-- An unlock by the owner succeeds and takes one from the depth. -/
theorem Represents.unlock (h : Represents False ph s a) (ht : Tally a g) (hr : a.CurrentRuns)
    (hown : (a.mtx m).thread = a.currentThread) :
    ∃ s' b, portOSUnlockMutex m s = .ok ((), s') ∧ a.unlockMutex m = .ok b ∧
      Represents False .pending s' b ∧ Tally b (g.setDepth m (g.depth m - 1)) := by
  have h0 : (a.mtx m).thread ≠ 0 := hown ▸ hr.1
  have hm := h.fine.shape.addr m h0
  have hlt := ht.bound m
  have hcount : checkS32 ((a.mtx m).count + -1) = .ok ((a.mtx m).count + -1) := by
    rw [ht.count]
    exact if_pos (by omega)
  obtain ⟨b, hb⟩ : ∃ b, a.unlockMutex m = .ok b := by
    rw [Sched.unlockMutex, if_pos hown, hcount]
    simp only [bind, Except.bind]
    split <;> exact ⟨_, rfl⟩
  have hx := h.rep.portOSUnlockMutex h.fine.shape hr hm.1
  rw [hb] at hx
  obtain ⟨_, s', hs, hrep⟩ := Runs.lockstep_ok_left.mp hx
  have htb := ht.unlockMutex h.fine hr hb
  rw [if_pos hown] at htb
  exact ⟨s', b, hs, hb, ⟨hrep, h.fine.unlockMutex hr hb, nofun⟩, htb⟩

/-- While the depth is above 1, an unlock changes the count of the mutex alone. -/
theorem Represents.unlock_again (h : Represents False .idle s a) (ht : Tally a g)
    (hr : a.CurrentRuns) (hown : (a.mtx m).thread = a.currentThread) (hd : 1 < g.depth m) :
    ∃ s₁ s₂ b, portOSUnlockMutex m s = .ok ((), s₁) ∧
      portProcessPendingLocks n (k + 1) s₁ = .ok ((), s₂) ∧
      Represents False .idle s₂ b ∧ Tally b (g.setDepth m (g.depth m - 1)) ∧
      b.CurrentRuns ∧ b.currentThread = a.currentThread ∧ (b.mtx m).thread = a.currentThread := by
  obtain ⟨s₁, b, hs₁, hb, hrep, htb⟩ := h.unlock ht hr hown
  rw [Sched.unlockMutex, if_pos hown] at hb
  obtain ⟨count, hc, hb⟩ := bind_eq_ok.mp hb
  obtain ⟨he, _⟩ := Sched.checkS32_ok hc
  rw [ht.count] at he
  rw [if_neg (by omega)] at hb
  cases hb
  have hp : (a.modM m ({ · with count := count })).pendingLock = none := h.settled rfl
  have hx := hrep.rep.portProcessPendingLocks hrep.fine.shape n (k + 1)
  rw [Sched.processPendingLocks, hp] at hx
  obtain ⟨_, s₂, hs₂, hrep₂⟩ := Runs.lockstep_ok_left.mp hx
  exact ⟨s₁, s₂, _, hs₁, hs₂, ⟨hrep₂, hrep.fine, fun _ => hp⟩, htb, hr, rfl, by simpa using hown⟩

/-- The mutex is free after as many unlocks as its depth. -/
theorem Represents.freed (h : Represents False .idle s a) (ht : Tally a g) (hr : a.CurrentRuns)
    (hown : (a.mtx m).thread = a.currentThread) (n k : Nat) {j : Nat} (hj : j < g.depth m) :
    ∃ s₁ s₂, unlocks n (k + 1) m j s = .ok ((), s₁) ∧ s₁.owner m = a.currentThread ∧
      portOSUnlockMutex m s₁ = .ok ((), s₂) ∧ (s₂.owner m = 0 ↔ j + 1 = g.depth m) := by
  induction j generalizing s a g with
  | zero =>
    obtain ⟨s₂, b, hs₂, _, hrep, htb⟩ := h.unlock ht hr hown
    refine ⟨s, s₂, rfl, (h.rep.owner m).trans hown, hs₂, ?_⟩
    rw [hrep.rep.owner, htb.owned, Ghost.setDepth_depth, Function.update_self]
    omega
  | succ j ih =>
    obtain ⟨s₁, s₂, b, hs₁, hs₂, hrep, htb, hrb, hcur, hownb⟩ :=
      h.unlock_again (n := n) (k := k) ht hr hown (by omega)
    have hdep : (g.setDepth m (g.depth m - 1)).depth m = g.depth m - 1 := by simp
    obtain ⟨s₃, s₄, hs₃, ho₃, hs₄, ho₄⟩ := ih hrep htb hrb (hownb.trans hcur.symm) (by omega)
    refine ⟨s₃, s₄, ?_, ho₃.trans hcur, hs₄, ?_⟩
    · unfold unlocks
      rw [run_bind_ok hs₁, run_bind_ok hs₂]
      exact hs₃
    · rw [ho₄, hdep]
      omega

/-- Recursion counts are exact in every run whose deferred grants all go to threads with
a saved depth. -/
theorem counted_exact (h : Counted SavedGrant ph s g) : CountsExact ph s g := by
  obtain ⟨a, ha, ht⟩ := h.represents
  have hcount : ∀ m, (s.mtx m).count = (a.mtx m).count := fun m =>
    congrArg (·.count) (ha.rep.mtx m)
  refine ⟨?_, ?_, ?_⟩
  · intro m hm
    rw [ha.rep.owner] at hm
    rw [hcount]
    exact ⟨ht.count m, Nat.one_le_iff_ne_zero.mpr fun hd => hm ((ht.owned m).mpr hd)⟩
  · intro m hm
    rw [ha.rep.owner, ht.owned] at hm
    rw [hcount, ht.count, hm]
    rfl
  · intro hph hr m n k hown j hj
    subst hph
    rw [ha.rep.owner, ha.rep.current] at hown
    rw [ha.rep.current]
    exact ha.freed ht (ha.rep.running.mp hr) hown n k hj

/-- A blank grant always leaves the count -1, so no weaker condition will do. -/
theorem counted_blank (h : Counted SavedGrant .pending s g) (hp : pendingLock s = some (t, m))
    (hq : BlankGrant s t m) (hs : retryLock n t m s = .ok ((), s')) :
    s'.owner m = t ∧ (s'.mtx m).count = -1 := by
  obtain ⟨a, ha, ht⟩ := h.represents
  rw [ha.rep.pendingLock] at hp
  obtain ⟨hr, he, hm, hm0⟩ := Sched.pendingLock_eq hp
  simp only at he hm hm0
  have hma : MutexAddr m := by
    rw [hm] at hm0 ⊢
    exact ha.fine.shape.pending _ hm0
  obtain ⟨h0, hv⟩ := hq
  rw [ha.rep.owner] at h0
  rw [ha.rep.tcb] at hv
  have hc : (a.mtx m).count = 0 := by
    rw [ht.count, (ht.owned m).mp h0]
    rfl
  have hx := ha.rep.retryLock ha.fine.shape hr hma n
  rw [← he, hs] at hx
  obtain ⟨b, hb, hrep⟩ := Runs.lockstep_ok_right hx
  obtain ⟨c, hc', hb⟩ := bind_eq_ok.mp hb
  cases hb
  simp only [Sched.lockMutex, Sched.modT_mtx, Sched.modT_currentThread, h0, if_true] at hc'
  obtain ⟨count, hcount, hc'⟩ := bind_eq_ok.mp hc'
  have hone := (Sched.checkS32_ok hcount).1
  simp only [Sched.modT_mtx, hc] at hone
  cases hc'
  have hmtx := hrep.mtx m
  rw [Sched.restoreCount, if_pos ⟨by rw [hv]; decide, by simp [he], by simp [hone]⟩, hv] at hmtx
  have howner := congrArg (·.thread) hmtx
  have hcnt := congrArg (·.count) hmtx
  simp at howner hcnt
  exact ⟨howner.trans he.symm, hcnt.trans (by decide)⟩

section Trial

variable (Q) [∀ s t m, Decidable (Q s t m)]

/-- A sequence of calls with the depths beside it; nothing if a call is not allowed or
fails, or a grant is not allowed. -/
def countTrial (n : Nat) (s : St) (g : Ghost) : List Op → Option (St × Ghost)
  | [] => some (s, g)
  | o :: ops =>
    if o.Guarded s then
      match o.exec n s with
      | .ok (_, s₁) => (settle Q n n s₁ (g.call s o)).bind fun p => countTrial n p.1 p.2 ops
      | .error _ => none
    else none

def bootCount (n : Nat) (ops : List Op) : Option (St × Ghost) :=
  match portOSThreadInit blankState with
  | .ok (_, s) => countTrial Q n s .blank ops
  | .error _ => none

variable {Q}

theorem Counted.trial (h : Counted Q .idle s g) {ops : List Op}
    (ht : countTrial Q n s g ops = some (s', g')) : Counted Q .idle s' g' := by
  induction ops generalizing s g with
  | nil =>
    cases ht
    exact h
  | cons o ops ih =>
    rw [countTrial] at ht
    split at ht
    · rename_i hg
      cases hx : o.exec n s with
      | error e => simp [hx] at ht
      | ok r =>
        simp only [hx] at ht
        obtain ⟨p, hp, ht⟩ := Option.bind_eq_some_iff.mp ht
        exact ih ((h.call hg hx).locks hp) ht
    · cases ht

theorem counted_bootCount {ops : List Op} (ht : bootCount Q n ops = some (s, g)) :
    Counted Q .idle s g := by
  unfold bootCount at ht
  split at ht
  · rename_i v s₀ he
    exact (Counted.init he).trial ht
  · cases ht

end Trial

/-- A thread of priority 10 takes a mutex twice, waits on a condition and gets the mutex
back from the default thread. -/
def condDepth : List Op :=
  [.create 1 10 0, .initMutex 1, .initCond 0, .resume 2, .lock 1, .tryLock 1, .waitCond 0 1, .lock 1,
    .signalCond 0, .unlock 1]

theorem condDepth_exact : ∃ s g, bootCount SavedGrant 40 condDepth = some (s, g) ∧
    s.owner 1 = 2 ∧ g.depth 1 = 2 ∧ CountsExact .idle s g := by
  have hrun : (bootCount SavedGrant 40 condDepth).any
      (fun p => p.1.owner 1 = 2 ∧ p.2.depth 1 = 2) = true := by decide +kernel
  obtain ⟨p, hp, hq⟩ := (Option.any_eq_true _ _).mp hrun
  obtain ⟨ho, hd⟩ := of_decide_eq_true hq
  exact ⟨p.1, p.2, hp, ho, hd, counted_exact (counted_bootCount hp)⟩

/-- A thread of priority 10 blocks on a mutex of the default thread, which unlocks it. -/
def deferred : List Op := [.create 1 10 0, .initMutex 1, .lock 1, .resume 2, .lock 1, .unlock 1]

/-- The deferred grant takes the initial value word for a saved count. -/
theorem deferred_not_exact : ∃ s g, Counted AnyGrant .idle s g ∧ s.owner 1 = 2 ∧ g.depth 1 = 1 ∧
    (s.mtx 1).count = -1 ∧ ¬ CountsExact .idle s g := by
  have hrun : (bootCount AnyGrant 40 deferred).any
      (fun p => p.1.owner 1 = 2 ∧ p.2.depth 1 = 1 ∧ (p.1.mtx 1).count = -1) = true := by
    decide +kernel
  obtain ⟨p, hp, hq⟩ := (Option.any_eq_true _ _).mp hrun
  obtain ⟨ho, hd, hc⟩ := of_decide_eq_true hq
  refine ⟨p.1, p.2, counted_bootCount hp, ho, hd, hc, ?_⟩
  intro h
  have hz := (h.owned 1 (by rw [ho]; decide)).1
  rw [hc, hd] at hz
  cases hz

end SdkPort.OSThread
