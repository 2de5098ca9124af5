import SdkPort.OS.RepMoves

/-!
# The interface in memory

Every function of the interface computes its counterpart over lists on a sound
state, faults included.
-/
namespace SdkPort.OSThread

open Linked (firstOf)
open Runs (Gives Lockstep gives_bind gives_pure lockstep_of_gives lockstep_bind run_bind_ok)
open Sched (Core Shape Sound Adrift Moved Idle)

variable {X D H : Set Addr} {s : St} {a : Sched} {t m : Addr} {q : QueueAddr} {n : Nat}

theorem adrift_empty (a : Sched) : Adrift ∅ a := fun _ h => h.elim

/-- Initialising an empty queue changes nothing. -/
theorem Rep.qInit (h : Rep s a) (hq : q ≠ .null) (he : a.queue q = []) :
    Gives Rep (qInit q s) () a := by
  have hd := (h.queues q.field).dll q
  have hl : listOf a q.field q = [] := by simpa [listOf] using he
  have hh : (s.queue q).head = 0 := by simpa [headOf] using hd.head_eq_nil.mpr hl
  have ht : (s.queue q).tail = 0 := by simpa [tailOf] using hd.tail_eq_nil.mpr hl
  have hsame : Function.update s.queue q ⟨0, 0⟩ = s.queue := by
    rw [← hh, Function.update_eq_self_iff]
    cases hs : s.queue q
    simp_all
  refine ⟨_, qSet_ok hq _ s, ?_⟩
  simpa [St.setHead, hsame] using h

/-- The links of a thread in no list may be cleared. -/
theorem Rep.clearLinks (h : Rep s a) (ht : t ≠ 0) (hf : ∀ r, t ∉ listOf a .link r)
    (ho : a.owned t = []) :
    Gives Rep (thrSet t ({ · with linkNext := 0, linkPrev := 0, mutexHead := 0, mutexTail := 0 }) s)
      () a := by
  have hd := h.owned.dll t
  have hh : (s.thr t).mutexHead = 0 := hd.head_eq_nil.mpr ho
  have hl : (s.thr t).mutexTail = 0 := hd.tail_eq_nil.mpr ho
  refine ⟨_, thrSet_ok ht _ s, ?_⟩
  refine ⟨?_, h.mtx, h.msgq, h.current, h.bits, h.hint, h.reschedule, ?_, ?_⟩
  · intro u
    rw [St.setLink_thr]
    split
    · exact h.tcb u
    · exact h.tcb u
  · intro o
    cases o with
    | link =>
      refine (h.queues .link).congr ?_ ?_
      · intro r u hu
        have hne : u ≠ t := fun he => hf r (he ▸ hu)
        simp [hne]
      · intro r u hu
        have hne : u ≠ t := fun he => hf r (he ▸ hu)
        simp [hne]
    | active =>
      refine (h.queues .active).congr ?_ ?_
      · intro r u _
        simp only [St.setLink_thr]
        split <;> rfl
      · intro r u _
        simp only [St.setLink_thr]
        split <;> rfl
  · refine ⟨fun u => ?_, h.owned.disjoint⟩
    have hu := h.owned.dll u
    simp only [St.setLink_thr]
    by_cases he : u = t
    · subst he
      rw [if_pos rfl]
      rwa [hh, hl] at hu
    · rw [if_neg he]
      exact hu

/-- A thread that is not alive owns nothing. -/
theorem Sched.Shape.owned_dead (h : Shape X ∅ H a) (hd : ¬ a.live t) : a.owned t = [] := by
  refine List.eq_nil_iff_forall_not_mem.mpr fun m hm => ?_
  obtain ⟨h0, he⟩ := (h.owned t m).mp hm
  rcases h.live m (by rwa [he]) with hl | hl
  · exact hd (by rwa [he] at hl)
  · exact hl.elim

theorem Rep.portOSCreateThread (h : Rep s a) (hs : Sound a) {slot : Nat}
    (hu : (a.tcb (PORT_THREAD_ADDR slot)).state = .unused) (p : Int) (attr : Nat) :
    ∃ v, Gives Rep (portOSCreateThread slot p attr s) v (a.createThread slot p attr) := by
  have hidle : (a.tcb (PORT_THREAD_ADDR slot)).home = none := by
    apply Tcb.home_idle <;> rw [hu] <;> exact nofun
  have hfresh := hs.core.fresh_idle hidle
  have hdead : ¬ a.live (PORT_THREAD_ADDR slot) := fun hl => hl.1 hu
  have hown := hs.owned_dead hdead
  have hact : PORT_THREAD_ADDR slot ∉ a.queue .active := fun hm => (hs.core.active _).mp hm hu
  have ht : PORT_THREAD_ADDR slot ≠ 0 := Nat.succ_ne_zero slot
  unfold OSThread.portOSCreateThread Sched.createThread
  by_cases hp : p < 0 ∨ p > 31
  · refine ⟨false, ?_⟩
    rw [if_pos hp, if_pos hp]
    exact gives_pure _ h
  · refine ⟨true, ?_⟩
    rw [if_neg hp, if_neg hp]
    refine gives_bind (h.tcbSet ht _) fun s₁ h₁ => ?_
    refine gives_bind (h₁.clearLinks ht hfresh hown) fun s₂ h₂ => ?_
    refine gives_bind (h₂.qInit (q := .join _) (by simp) (hs.core.queue_join _)) fun s₃ h₃ => ?_
    simp only []
    rw [Sched.setOwned_self (by simpa using hown),
      Sched.setQueue_self (by simpa using hs.core.queue_join _)]
    refine gives_bind (h₃.portAddTail (q := .active) (by simp) ht ?_) fun s₄ h₄ => gives_pure _ h₄
    intro r
    cases r <;> simp [listOf, QueueAddr.field, hact]

theorem Sched.Shape.fine (h : Sound a) : Sched.Fine False a :=
  ⟨h, False.elim, False.elim, False.elim⟩

/-- Taking a waiting thread out of its queue. -/
theorem Rep.removeWaiting (h : Rep s a) {b : Sched} (hs : Sound b) (hw : (b.tcb t).state = .waiting)
    (hq : (a.tcb t).queue = (b.tcb t).queue) (hqueue : a.queue = b.queue) :
    Gives Rep (OSThread.portRemoveItem (a.tcb t).queue t .link s) ()
      (a.removeItem (a.tcb t).queue t) := by
  have hwait := (hs.core.placed t (Set.notMem_empty t)).waiting hw
  have hm := hs.core.mem_home (Set.notMem_empty t) (Tcb.home_waiting hw)
  rw [hq]
  have hrem := h.portRemoveItem hwait.ne_null (by rwa [hqueue])
  rwa [hwait.field] at hrem

/-- Once out of its queue, a waiting thread is in no list of links. -/
theorem fresh_removed {b : Sched} (hs : Sound b) (hw : (b.tcb t).state = .waiting)
    (hqueue : a.queue = b.queue) (r : QueueAddr) :
    t ∉ listOf (a.removeItem (b.tcb t).queue t) .link r := by
  have hf := (hs.core.takeWait (Set.notMem_empty t) hw).fresh (Set.mem_insert t ∅) r
  simpa [listOf, hqueue] using hf

theorem Rep.resumeRequeue (h : Rep s (a.modT t ({ · with suspend := 0 }))) (hs : Sound a) (ht : t ≠ 0)
    (h1 : 0 < (a.tcb t).suspend) :
    Computes (resumeRequeue n t s) ((a.modT t ({ · with suspend := 0 })).resumeRequeue n t) := by
  have htcb : ((a.modT t ({ · with suspend := 0 })).tcb t) = { a.tcb t with suspend := 0 } := by simp
  unfold OSThread.resumeRequeue Sched.resumeRequeue
  refine lockstep_of_gives (h.tcbGet ht _) fun s₁ h₁ => ?_
  cases hst : (a.tcb t).state with
  | ready =>
    simp only [htcb, hst]
    have hidle : (a.tcb t).home = none := Tcb.home_suspended hst h1
    rw [run_bind_ok (h₁.portOSGetEffectivePriority ht (hs.length_owned t))]
    refine lockstep_of_gives (h₁.tcbSet ht _) fun s₂ h₂ => ?_
    exact computes_of_gives (h₂.portSetRun ht (hs.core.fresh_idle hidle))
  | waiting =>
    simp only [htcb, hst]
    refine lockstep_of_gives (h₁.tcbGet ht _) fun s₂ h₂ => ?_
    have hq : ((a.modT t ({ · with suspend := 0 })).tcb t).queue = (a.tcb t).queue := by rw [htcb]
    have hwait := (hs.core.placed t (Set.notMem_empty t)).waiting hst
    refine lockstep_of_gives (h₂.removeWaiting hs hst hq rfl) fun s₃ h₃ => ?_
    rw [run_bind_ok (h₃.portOSGetEffectivePriority ht (hs.length_owned t))]
    refine lockstep_of_gives (h₃.tcbSet ht _) fun s₄ h₄ => ?_
    rw [hq] at h₄ ⊢
    have hadd := h₄.portAddPrio hwait.ne_null ht ?_ ?_
    · rw [hwait.field] at hadd
      refine lockstep_of_gives hadd fun s₅ h₅ => ?_
      have heq := hs.fine.refreshed hst
      simp only [Sched.refresh, Sched.requeue, hq] at heq ⊢
      exact h₅.updateOwner heq.shape (adrift_empty _) ht n
    · rw [hwait.field]
      exact fresh_removed hs hst rfl
    · simpa using (List.length_erase_le).trans (hs.core.length_le (a.tcb t).queue)
  | running =>
    simp only [htcb, hst]
    exact h₁
  | unused =>
    simp only [htcb, hst]
    exact h₁
  | moribund =>
    simp only [htcb, hst]
    exact h₁

/-- Rescheduling after the part of an operation that may fail. -/
theorem lockstep_reschedule {k : M Unit} {f : M α} {y : Except Fault Sched}
    {v : α} (hk : Computes (k s) y) (hy : ∀ b, y = .ok b → Sound b) (hf : f = portOSReschedule >>= fun _ => pure v) :
    Computes ((k >>= fun _ => f) s) (y >>= fun b => .ok b.osReschedule) := by
  refine lockstep_bind hk fun _ s' b hb hs' => ?_
  subst hf
  have hsound := hy b hb
  refine computes_of_gives ?_ (v := v)
  exact gives_bind (hs'.portOSReschedule hsound.core (Set.notMem_empty _)) fun _ h => gives_pure _ h

theorem Rep.portOSResumeThread (h : Rep s a) (hs : Sound a) (ht : t ≠ 0) (n : Nat) :
    Computes (portOSResumeThread n t s) (a.resumeThread n t) := by
  unfold OSThread.portOSResumeThread Sched.resumeThread
  refine lockstep_of_gives (h.tcbGet ht _) fun s₁ h₁ => ?_
  refine lockstep_addS32 fun dec hdec => ?_
  have hd := Sched.checkS32_eq hdec
  refine lockstep_of_gives (h₁.tcbSet ht _) fun s₂ h₂ => ?_
  by_cases hneg : dec < 0
  · simp only [hneg, if_true]
    refine lockstep_of_gives (h₂.tcbSet ht _) fun s₃ h₃ => ?_
    rw [Sched.modT_modT] at h₃
    exact h₃
  · simp only [hneg, if_false]
    by_cases hz : dec = 0
    · have h1 : (a.tcb t).suspend = 1 := by omega
      simp only [hz, if_true] at h₂ ⊢
      refine lockstep_reschedule (h₂.resumeRequeue hs ht (by omega)) ?_ rfl
      intro b hb
      exact (hs.fine.resumeRequeue h1 hb).shape
    · simp only [hz, if_false]
      exact h₂

theorem Rep.suspendRequeue (h : Rep s (a.modT t ({ · with suspend := 1 }))) (hs : Sound a)
    (ht : t ≠ 0) (h0 : (a.tcb t).suspend = 0) :
    Computes (suspendRequeue n t s) ((a.modT t ({ · with suspend := 1 })).suspendRequeue n t) := by
  have htcb : ((a.modT t ({ · with suspend := 1 })).tcb t) = { a.tcb t with suspend := 1 } := by simp
  have hpl := hs.core.placed t (Set.notMem_empty t)
  unfold OSThread.suspendRequeue Sched.suspendRequeue
  refine lockstep_of_gives (h.tcbGet ht _) fun s₁ h₁ => ?_
  cases hst : (a.tcb t).state with
  | running =>
    simp only [htcb, hst]
    refine lockstep_of_gives (h₁.setHint true) fun s₂ h₂ => ?_
    exact computes_of_gives (h₂.tcbSet ht _)
  | ready =>
    simp only [htcb, hst]
    have hq : (a.tcb t).queue = .runQueue (a.prio t) := hpl.ready hst h0
    have hm := hs.core.mem_home (Set.notMem_empty t) (Tcb.home_ready hst h0)
    have hprio : (a.modT t ({ · with suspend := 1 })).prio t = a.prio t := by simp [Sched.prio]
    apply computes_of_gives (h₁.portUnsetRun ?_ ?_)
    · rw [htcb, hprio]
      exact hq
    · rw [hprio]
      exact hm
  | waiting =>
    simp only [htcb, hst]
    refine lockstep_of_gives (h₁.tcbGet ht _) fun s₂ h₂ => ?_
    have hq : ((a.modT t ({ · with suspend := 1 })).tcb t).queue = (a.tcb t).queue := by rw [htcb]
    have hwait := hpl.waiting hst
    refine lockstep_of_gives (h₂.removeWaiting hs hst hq rfl) fun s₃ h₃ => ?_
    refine lockstep_of_gives (h₃.tcbSet ht _) fun s₄ h₄ => ?_
    rw [hq] at h₄ ⊢
    have hadd := h₄.portAddTail hwait.ne_null ht ?_
    · rw [hwait.field] at hadd
      refine lockstep_of_gives hadd fun s₅ h₅ => ?_
      have hpark := hs.fine.parked hst
      simp only [Sched.park, hq] at hpark ⊢
      exact h₅.updateOwner hpark.shape (adrift_empty _) ht n
    · rw [hwait.field]
      exact fresh_removed hs hst rfl
  | unused =>
    simp only [htcb, hst]
    exact h₁
  | moribund =>
    simp only [htcb, hst]
    exact h₁

theorem Rep.portOSSuspendThread (h : Rep s a) (hs : Sound a) (ht : t ≠ 0) (n : Nat) :
    Computes (portOSSuspendThread n t s) (a.suspendThread n t) := by
  unfold OSThread.portOSSuspendThread Sched.suspendThread
  refine lockstep_of_gives (h.tcbGet ht _) fun s₁ h₁ => ?_
  refine lockstep_addS32 fun inc hinc => ?_
  have hi := Sched.checkS32_eq hinc
  refine lockstep_of_gives (h₁.tcbSet ht _) fun s₂ h₂ => ?_
  by_cases hz : (a.tcb t).suspend = 0
  · have h1 : inc = 1 := by omega
    subst h1
    simp only [hz, if_true]
    refine lockstep_reschedule (h₂.suspendRequeue hs ht hz) ?_ rfl
    intro b hb
    exact (hs.fine.suspendRequeue hz hb).shape
  · simp only [hz, if_false]
    exact h₂

/-- The running thread goes to sleep. -/
theorem Rep.portOSSleepThread (h : Rep s a) (hs : Shape X D H a) (hX : a.currentThread ∉ X)
    (hr : a.CurrentRuns) (hq : q.isWait) :
    Gives Rep (portOSSleepThread q s) () (a.sleepThread q) := by
  have hidle : (a.tcb a.currentThread).home = none := by
    apply Tcb.home_idle <;> rw [hr.2] <;> exact nofun
  unfold OSThread.portOSSleepThread Sched.sleepThread
  refine gives_bind h.getCurrent fun s₁ h₁ => ?_
  refine gives_bind (h₁.tcbSet hr.1 _) fun s₂ h₂ => ?_
  refine gives_bind (h₂.tcbSet hr.1 _) fun s₃ h₃ => ?_
  rw [Sched.modT_modT] at h₃
  have hadd := h₃.portAddPrio hq.ne_null hr.1 ?_ (hs.core.length_le q)
  · rw [hq.field] at hadd
    refine gives_bind hadd fun s₄ h₄ => ?_
    refine gives_bind (h₄.setHint true) fun s₅ h₅ => ?_
    exact h₅.portOSReschedule (hs.core.enqueueCurrent hX hr hq) hX
  · rw [hq.field]
    exact hs.core.fresh_idle hidle

theorem Rep.portOSYieldThread (h : Rep s a) (hs : Sound a) :
    Gives Rep (portOSYieldThread s) () a.yieldThread := by
  unfold OSThread.portOSYieldThread Sched.yieldThread
  obtain ⟨v, hv⟩ := h.portSelectThread hs.core (Set.notMem_empty _) true
  exact gives_bind hv fun _ h₁ => gives_pure _ h₁

theorem Rep.retire (h : Rep s a) (hc : Core X a) (hu : (a.tcb t).state ≠ .unused) (v : Option Nat) :
    Gives Rep (retire t v s) () (a.retire t v) := by
  have ht : t ≠ 0 := (hc.slot t hu).1
  have hm : t ∈ a.queue .active := (hc.active t).mpr hu
  unfold OSThread.retire Sched.retire
  refine gives_bind (h.tcbGet ht _) fun s₁ h₁ => ?_
  by_cases hat : (a.tcb t).attr % 2 = 1
  · simp only [hat, if_true]
    refine gives_bind (h₁.portRemoveItem (q := .active) (by simp) hm) fun s₂ h₂ => ?_
    exact h₂.tcbSet ht _
  · simp only [hat, if_false]
    refine gives_bind (h₁.tcbSet ht _) fun s₂ h₂ => ?_
    cases v with
    | none => exact gives_pure _ h₂
    | some v =>
      have h₃ := h₂.tcbSet ht ({ · with val := v })
      rwa [Sched.modT_modT] at h₃

theorem Rep.cancelUnlink (h : Rep s a) (hs : Sound a) (ht : t ≠ 0) (n : Nat) :
    Lockstep (fun v s b => v = b.1 ∧ Rep s b.2) (cancelUnlink n t s) (a.cancelUnlink n t) := by
  have hpl := hs.core.placed t (Set.notMem_empty t)
  have h0 := (hs.core.bounded t).suspend
  unfold OSThread.cancelUnlink Sched.cancelUnlink
  refine lockstep_of_gives (h.tcbGet ht _) fun s₁ h₁ => ?_
  cases hst : (a.tcb t).state with
  | ready =>
    refine lockstep_of_gives (h₁.tcbGet ht _) fun s₂ h₂ => ?_
    by_cases hsus : a.suspended t
    · simp only [show 0 < (a.tcb t).suspend from hsus, hsus, not_true, if_true, if_false]
      exact ⟨rfl, h₂⟩
    · simp only [show ¬ 0 < (a.tcb t).suspend from hsus, hsus, not_false_eq_true, if_true, if_false]
      have hz : (a.tcb t).suspend = 0 := by
        simp only [Sched.suspended] at hsus
        omega
      have hm := hs.core.mem_home (Set.notMem_empty t) (Tcb.home_ready hst hz)
      exact lockstep_of_gives (h₂.portUnsetRun (hpl.ready hst hz) hm) fun s₃ h₃ => ⟨rfl, h₃⟩
  | running =>
    exact lockstep_of_gives (h₁.setHint true) fun s₂ h₂ => ⟨rfl, h₂⟩
  | waiting =>
    obtain ⟨hfit, hadrift⟩ := hs.fine.detached hst
    refine lockstep_of_gives (h₁.tcbGet ht _) fun s₂ h₂ => ?_
    refine lockstep_of_gives (h₂.removeWaiting hs hst rfl rfl) fun s₃ h₃ => ?_
    refine lockstep_of_gives (h₃.tcbSet ht _) fun s₄ h₄ => ?_
    refine lockstep_of_gives (h₄.tcbGet ht _) fun s₅ h₅ => ?_
    have hsame : ((a.detach t).tcb t).suspend = (a.tcb t).suspend := by simp [Sched.detach]
    simp only [Sched.detach] at hsame hfit hadrift
    by_cases hsus : a.suspended t
    · simp only [hsame, show 0 < (a.tcb t).suspend from hsus, hsus, not_true, if_true, if_false]
      exact ⟨rfl, h₅⟩
    · simp only [hsame, show ¬ 0 < (a.tcb t).suspend from hsus, hsus, not_false_eq_true, if_true,
        if_false]
      exact lockstep_bind (h₅.updateOwner hfit.shape hadrift ht n) fun _ s₆ b _ h₆ => ⟨rfl, h₆⟩
  | unused => exact ⟨rfl, h₁⟩
  | moribund => exact ⟨rfl, h₁⟩

end SdkPort.OSThread
