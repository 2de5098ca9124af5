import SdkPort.OS.Calls

/-!
# The invariant holds in every state of a run

The state after initialisation is sound, and calls and the processing of pending
locks keep it so. Each state of a run therefore represents a scheduler over lists
that satisfies the invariant.
-/
namespace SdkPort.OSThread

open Runs (Gives gives_bind lockstep_ok_left)
open Sched (Core Shape Sound Fit Fine Waits Exact Hinted Best)

variable {W : Prop} {s s' : St} {a b : Sched} {t m : Addr} {q : QueueAddr} {n : Nat} {o : Op}
  {P : St → Op → Prop} {ph : Phase}

namespace Sched

/-- The lists of the zeroed memory block. -/
def blank : Sched where
  tcb := fun _ => blankThread.toTcb
  queue := fun _ => []
  owned := fun _ => []
  mtx := fun _ => blankMutex.toMutexCore
  msgq := fun _ => ⟨0, 0, 0, fun _ => 0⟩
  currentThread := 0
  runQueueBits := 0
  runQueueHint := false
  reschedule := 0

/-- After initialisation the default thread runs alone. -/
def initial : Sched :=
  { (blank.modT 1 fun _ =>
      { state := .running, attr := 1, priority := 16, base := 16, suspend := 0,
        val := 0xFFFFFFFF, queue := .null, mutex := 0 }) with currentThread := 1 }.addTail .active 1

theorem initial_tcb (t : Addr) : initial.tcb t = if t = 1 then
    { state := .running, attr := 1, priority := 16, base := 16, suspend := 0, val := 0xFFFFFFFF,
      queue := .null, mutex := 0 } else blankThread.toTcb := by
  simp only [initial, addTail_tcb, modT_tcb, Function.update_apply]
  rfl

theorem initial_queue (q : QueueAddr) : initial.queue q = if q = .active then [1] else [] := by
  simp only [initial, addTail_queue, Function.update_apply]
  rfl

theorem core_initial : Core ∅ initial := by
  refine ⟨?_, ?_, ?_, ?_, ?_, ?_, ?_, ?_, ?_, ?_⟩
  · intro t
    rw [initial_tcb]
    split <;> constructor <;> decide
  · intro t _
    rw [initial_tcb]
    split <;> constructor <;> simp [blankThread]
  · intro q hq t
    rw [initial_queue, if_neg hq, initial_tcb]
    split <;> simp [Tcb.home, blankThread]
  · intro q
    rw [initial_queue]
    split <;> simp
  · intro t
    rw [initial_queue, initial_tcb]
    by_cases ht : t = 1 <;> simp [ht, blankThread]
  · intro t _
    rw [initial_tcb]
    by_cases ht : t = 1
    · exact fun _ => ht
    · simp [ht, blankThread]
  · intro t
    rw [initial_tcb]
    by_cases ht : t = 1
    · subst ht
      exact fun _ => ⟨by decide, by decide⟩
    · simp [ht, blankThread]
  · exact fun _ => ⟨by decide, by decide⟩
  · intro p _
    rw [initial_queue]
    simp [runBit, initial, blank]
  · intro q hq
    rw [initial_queue, if_neg hq.ne_active]
    exact List.Pairwise.nil

theorem fine_initial (W : Prop) : Fine W initial := by
  have howned : ∀ t, initial.owned t = [] := fun _ => rfl
  have hmtx : ∀ m, (initial.mtx m).thread = 0 := fun _ => rfl
  have hmut : ∀ t, (initial.tcb t).mutex = 0 := by
    intro t
    rw [initial_tcb]
    split <;> rfl
  have hqueue : ∀ m, initial.queue (.mutex m) = [] := fun m => by simp [initial_queue]
  have hst : ∀ t, (initial.tcb t).state ≠ .waiting := by
    intro t
    rw [initial_tcb]
    split <;> simp [blankThread]
  refine ⟨⟨core_initial, ?_, ?_, ?_, ?_, ?_, ?_, ?_⟩, ?_, ?_, ?_⟩
  · simp [howned]
  · intro t m
    rw [howned, hmtx]
    simpa using fun ht => Ne.symm ht
  · exact fun m h => absurd (hmtx m) h
  · exact fun m h => absurd (hmtx m) h
  · exact fun t h => absurd (hmut t) h
  · simp [hqueue]
  · simp [hqueue]
  · exact fun _ t _ hs => absurd hs (hst t)
  · intro _ t _ hl _
    rw [core_initial.settled_iff]
    simp only [effectivePriority, howned, List.foldl_nil, prio]
    rw [initial_tcb]
    split <;> rfl
  · intro _ _
    refine .inl ⟨⟨by decide, by rw [initial_tcb]; rfl⟩, ?_⟩
    intro p u hu
    simp [initial_queue] at hu

end Sched

theorem rep_blank : Rep blankState Sched.blank :=
  ⟨fun _ => rfl, fun _ => rfl, rfl, rfl, rfl, rfl, rfl,
    fun off => ⟨fun q => by simpa [headOf, tailOf, listOf, blankState, Sched.blank] using .empty,
      by simp [listOf, Sched.blank]⟩,
    ⟨fun _ => .empty, by simp [Sched.blank]⟩⟩

theorem rep_initial (s : St) : Gives Rep (portOSThreadInit s) () Sched.initial := by
  unfold portOSThreadInit
  refine gives_bind ⟨_, rfl, rep_blank⟩ fun s₁ h₁ => ?_
  refine gives_bind (h₁.tcbSet (by decide) _) fun s₂ h₂ => ?_
  refine gives_bind (h₂.setCurrent 1) fun s₃ h₃ => ?_
  refine h₃.portAddTail (q := .active) (by simp) (by decide) ?_
  intro r
  simp [listOf, Sched.blank]

/-- A state of a run represents lists that satisfy the invariant. -/
structure Represents (W : Prop) (ph : Phase) (s : St) (a : Sched) : Prop where
  rep : Rep s a
  fine : Fine W a
  settled : ph = .idle → a.pendingLock = none

theorem Represents.apply (h : Represents W ph s a) (hp : W → ph = .idle) (hg : o.Guarded s)
    (hW : W → ¬ o.Parks s) (hs : o.exec n s = .ok ((), s')) :
    ∃ b, a.apply n o = .ok b ∧ Represents W .pending s' b := by
  have hx := h.rep.exec h.fine.shape hg n
  rw [hs] at hx
  cases hb : a.apply n o with
  | error e =>
    rw [hb] at hx
    exact hx.elim
  | ok b =>
    rw [hb] at hx
    have hf := h.rep.fine_apply h.fine (fun hw => h.settled (hp hw)) hg hW hb
    exact ⟨b, rfl, hx, hf, nofun⟩

theorem Represents.locks {k : Nat} (h : Represents W .pending s a)
    (hs : portProcessPendingLocks n k s = .ok ((), s')) :
    ∃ b, Sched.processPendingLocks n k a = .ok b ∧ Represents W .idle s' b := by
  have hx := h.rep.portProcessPendingLocks h.fine.shape n k
  rw [hs] at hx
  cases hb : Sched.processPendingLocks n k a with
  | error e =>
    rw [hb] at hx
    exact hx.elim
  | ok b =>
    rw [hb] at hx
    obtain ⟨hf, hp⟩ := h.fine.processPendingLocks hb
    exact ⟨b, rfl, hx, hf, fun _ => hp⟩

/-- Every state of a run represents lists that satisfy the invariant, in full where
no thread waits on a condition. -/
theorem Reached.represents (h : Reached P ph s) (hP : W → ∀ s o, P s o → ¬ o.Parks s) :
    ∃ a, Represents W ph s a := by
  induction h with
  | init hs =>
    obtain ⟨_, he, hr⟩ := rep_initial _
    rw [he] at hs
    cases hs
    refine ⟨_, hr, Sched.fine_initial W, fun _ => ?_⟩
    simp [Sched.pendingLock, Sched.initial]
  | call _ hg hp hs ih =>
    obtain ⟨a, ha⟩ := ih
    obtain ⟨b, _, hb⟩ := ha.apply (fun _ => rfl) hg (fun hw => hP hw _ _ hp) hs
    exact ⟨b, hb⟩
  | locks _ hs ih =>
    obtain ⟨a, ha⟩ := ih
    obtain ⟨b, _, hb⟩ := ha.locks hs
    exact ⟨b, hb⟩

end SdkPort.OSThread
