import SdkPort.OS.Reach

/-!
# What the memory shows

The members of a queue and the mutexes a thread owns, read off the link words, and
sequences of calls that can be evaluated.
-/
namespace SdkPort.OSThread

open Linked (Dll walk)
open Sched (Core Shape Sound Fit Fine)

variable {W : Prop} {s s' : St} {a b : Sched} {t m : Addr} {q : QueueAddr} {n : Nat} {o : Op}
  {P : St → Op → Prop} {ph : Phase}

/-- The threads linked in a queue, from its head on. -/
def St.members (s : St) (q : QueueAddr) : List Addr :=
  walk 0 (fun t => (s.thr t).next q.field) PORT_MAX_THREADS (s.queue q).head

/-- The mutexes linked in a thread's list, from its head on. -/
def St.ownedBy (s : St) (t : Addr) : List Addr :=
  walk 0 (fun m => (s.mtx m).linkNext) PORT_MAX_MUTEXES (s.thr t).mutexHead

def St.live (s : St) (t : Addr) : Prop :=
  (s.thr t).state ≠ .unused ∧ (s.thr t).state ≠ .moribund

def St.prio (s : St) (t : Addr) : Nat := (s.thr t).priority

/-- Head, tail and link words of a queue agree with each other. -/
def St.linked (s : St) (q : QueueAddr) : Prop :=
  Dll 0 (fun t => (s.thr t).next q.field) (fun t => (s.thr t).prev q.field)
    (s.queue q).head (s.queue q).tail (s.members q)

theorem Rep.dll (h : Rep s a) (q : QueueAddr) :
    Dll 0 (fun t => (s.thr t).next q.field) (fun t => (s.thr t).prev q.field)
      (s.queue q).head (s.queue q).tail (a.queue q) := by
  simpa [headOf, tailOf, listOf] using (h.queues q.field).dll q

theorem Rep.members (h : Rep s a) (hs : Sound a) (q : QueueAddr) : s.members q = a.queue q :=
  (h.dll q).walk (hs.core.length_le q)

theorem Rep.ownedBy (h : Rep s a) (hs : Sound a) (t : Addr) : s.ownedBy t = a.owned t :=
  (h.owned.dll t).walk (hs.length_owned t)

theorem Rep.live (h : Rep s a) (t : Addr) : s.live t ↔ a.live t := by
  simp only [St.live, Sched.live, ← h.tcb]

theorem Rep.prio (h : Rep s a) : s.prio = a.prio := by
  funext t
  simp only [St.prio, Sched.prio, ← h.tcb]

theorem Rep.linked (h : Rep s a) (hs : Sound a) (q : QueueAddr) : s.linked q := by
  unfold St.linked
  rw [h.members hs]
  exact h.dll q

section Trial

variable (P : St → Op → Prop) [∀ s o, Decidable (P s o)]

/-- A sequence of calls, each followed by the processing of pending locks; nothing
if a call is not allowed or fails. -/
def trial (n : Nat) (s : St) : List Op → Option St
  | [] => some s
  | o :: ops =>
    if o.Guarded s ∧ P s o then
      match (do o.exec n; portProcessPendingLocks n n) s with
      | .ok (_, s') => trial n s' ops
      | .error _ => none
    else none

/-- The calls of a successful trial, from initialisation on, make a run. -/
def bootTrial (n : Nat) (ops : List Op) : Option St :=
  match portOSThreadInit blankState with
  | .ok (_, s) => trial P n s ops
  | .error _ => none

end Trial

/-- How a call fails, if it does. -/
def failure : Except Fault α → Option Fault
  | .error e => some e
  | .ok _ => none

theorem eq_error_of_failure {x : Except Fault α} {e : Fault} (h : failure x = some e) :
    x = .error e := by
  cases x with
  | error e' => exact congrArg _ (Option.some.inj h)
  | ok v => cases h

instance (s : St) (o : Op) : Decidable (AnyCall s o) := .isTrue trivial

instance (s : St) : (o : Op) → Decidable (o.Parks s)
  | .waitCond _ m => inferInstanceAs (Decidable ((s.mtx m).thread = s.currentThread))
  | .create .. | .resume _ | .suspend _ | .cancel _ | .join _ | .yield | .exit _ | .sleep _
  | .wakeup _ | .disable | .enable | .initMutex _ | .lock _ | .unlock _ | .tryLock _ | .initCond _
  | .signalCond _ | .initMessageQueue .. | .send .. | .receive .. | .jam .. => .isFalse id

instance (s : St) (o : Op) : Decidable (NoCondWait s o) := inferInstanceAs (Decidable (¬ _))

variable [∀ s o, Decidable (P s o)]

theorem Reached.trial (h : Reached P .idle s) {ops : List Op} (ht : trial P n s ops = some s') :
    Reached P .idle s' := by
  induction ops generalizing s with
  | nil =>
    cases ht
    exact h
  | cons o ops ih =>
    rw [OSThread.trial] at ht
    split at ht
    · rename_i hg
      split at ht
      · rename_i v s₂ he
        rw [Runs.run_bind] at he
        cases hx : o.exec n s with
        | error e =>
          rw [hx] at he
          cases he
        | ok r =>
          obtain ⟨_, s₁⟩ := r
          rw [hx] at he
          exact ih ((h.call hg.1 hg.2 hx).locks he) ht
      · cases ht
    · cases ht

/-- What is checked of the end of a trial holds in a state of a run. -/
theorem bootTrial_any {ops : List Op} {p : St → Bool} (h : (bootTrial P n ops).any p = true) :
    ∃ s, bootTrial P n ops = some s ∧ p s = true := by
  cases hs : bootTrial P n ops with
  | none => simp [hs] at h
  | some s => exact ⟨s, rfl, by simpa [hs] using h⟩

theorem reached_bootTrial {ops : List Op} (ht : bootTrial P n ops = some s) : Reached P .idle s := by
  unfold bootTrial at ht
  split at ht
  · rename_i v s₀ he
    exact (Reached.init he).trial ht
  · cases ht

end SdkPort.OSThread
