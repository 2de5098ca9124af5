import SdkPort.OS.SchedEnd

/-!
# What the operations leave alone

Waves, dispatching and waking touch neither owners nor counts of mutexes, nor the
saved values of threads, nor the nesting of scheduler disabling; the end of a
thread touches only what it owned.
-/
namespace SdkPort.OSThread.Sched

open Runs (bind_eq_ok)

variable {W V : Prop} {X D H E : Set Addr} {a b c : Sched} {t u m : Addr} {q : QueueAddr} {n : Nat}

structure Quiet (a b : Sched) : Prop where
  mtx : b.mtx = a.mtx
  live : ∀ t, b.live t → a.live t
  words : ∀ t, b.live t → (b.tcb t).val = (a.tcb t).val ∧ (b.tcb t).mutex = (a.tcb t).mutex
  reschedule : b.reschedule = a.reschedule

namespace Quiet

theorem refl (a : Sched) : Quiet a a := ⟨rfl, fun _ => id, fun _ _ => ⟨rfl, rfl⟩, rfl⟩

theorem trans (h : Quiet a b) (h' : Quiet b c) : Quiet a c := by
  refine ⟨h'.mtx.trans h.mtx, fun t hl => h.live t (h'.live t hl), ?_,
    h'.reschedule.trans h.reschedule⟩
  intro t hl
  have h₁ := h'.words t hl
  have h₂ := h.words t (h'.live t hl)
  exact ⟨h₁.1.trans h₂.1, h₁.2.trans h₂.2⟩

/-- One thread changes words other than its saved value and its mutex, while it stays alive
or dead. -/
theorem one (t : Addr) {th : Tcb} (htcb : b.tcb = Function.update a.tcb t th)
    (hv : th.val = (a.tcb t).val ∧ th.mutex = (a.tcb t).mutex)
    (hs : th.state ≠ .unused → th.state ≠ .moribund → a.live t)
    (hm : b.mtx = a.mtx) (hr : b.reschedule = a.reschedule) : Quiet a b := by
  refine ⟨hm, ?_, ?_, hr⟩
  · intro u hl
    by_cases hu : u = t
    · subst hu
      simp only [Sched.live, htcb, Function.update_self] at hl
      exact hs hl.1 hl.2
    · simpa [Sched.live, htcb, hu] using hl
  · intro u _
    by_cases hu : u = t
    · subst hu
      simpa [htcb] using hv
    · simp [htcb, hu]

theorem modT (t : Addr) {g : Tcb → Tcb}
    (hv : (g (a.tcb t)).val = (a.tcb t).val ∧ (g (a.tcb t)).mutex = (a.tcb t).mutex)
    (hs : (g (a.tcb t)).state ≠ .unused → (g (a.tcb t)).state ≠ .moribund → a.live t) :
    Quiet a (a.modT t g) :=
  .one t rfl hv hs rfl rfl

end Quiet

theorem Moved.quiet (h : Moved q a b) : Quiet a b :=
  ⟨h.mtx, fun t => (h.live_iff t).mp, fun t _ => ⟨h.val t, h.mutex t⟩, h.reschedule⟩

theorem Reprio.quiet (h : Reprio a b) : Quiet a b :=
  ⟨h.mtx, fun t => (h.live t).mp, fun t _ => ⟨h.val t, h.mutex t⟩, h.reschedule⟩

/-- Thread `t` is dead and owns nothing any more; all else is quiet. -/
structure Buried (t : Addr) (a b : Sched) : Prop where
  dead : ¬ b.live t
  live : ∀ u, b.live u → a.live u
  words : ∀ u, b.live u → (b.tcb u).val = (a.tcb u).val ∧ (b.tcb u).mutex = (a.tcb u).mutex
  released : ∀ m, b.mtx m = if (a.mtx m).thread = t then ⟨0, 0⟩ else a.mtx m
  reschedule : b.reschedule = a.reschedule

theorem Buried.quiet (h : Buried t a b) (hq : Quiet b c) : Buried t a c := by
  refine ⟨fun hl => h.dead (hq.live t hl), fun u hl => h.live u (hq.live u hl), ?_, ?_,
    hq.reschedule.trans h.reschedule⟩
  · intro u hl
    have h₁ := hq.words u hl
    have h₂ := h.words u (hq.live u hl)
    exact ⟨h₁.1.trans h₂.1, h₁.2.trans h₂.2⟩
  · intro m
    rw [hq.mtx]
    exact h.released m

theorem Quiet.buried (h : Quiet a b) (hb : Buried t b c) : Buried t a c := by
  refine ⟨hb.dead, fun u hl => h.live u (hb.live u hl), ?_, ?_, hb.reschedule.trans h.reschedule⟩
  · intro u hl
    have h₁ := hb.words u hl
    have h₂ := h.words u (hb.live u hl)
    exact ⟨h₁.1.trans h₂.1, h₁.2.trans h₂.2⟩
  · intro m
    rw [hb.released, h.mtx]

theorem Quiet.retire (a : Sched) (t : Addr) (v : Option Nat) : Quiet a (a.retire t v) := by
  have htcb := (retire_tcb a t v).1
  have hdead := retire_dead a t v
  have hne : ∀ u, (a.retire t v).live u → u ≠ t := by
    intro u hl he
    subst he
    exact hdead hl
  refine ⟨?_, ?_, ?_, ?_⟩
  · unfold Sched.retire
    split <;> rfl
  · intro u hl
    have hu := htcb u (hne u hl)
    rwa [Sched.live, hu] at hl
  · intro u hl
    rw [htcb u (hne u hl)]
    exact ⟨rfl, rfl⟩
  · unfold Sched.retire
    split <;> rfl

/-- Releasing the mutexes of a dead thread one by one. -/
theorem Fit.buried_unlockHeads (h : Fit W V ∅ (insert t ∅) ∅ ∅ a) (hd : ¬ a.live t) {l : List Addr}
    (hl : a.owned t = l) (h0 : t ≠ 0) : Buried t a (l.foldl (Sched.unlockHead t) a) := by
  induction l generalizing a with
  | nil =>
    refine ⟨hd, fun _ => id, fun _ _ => ⟨rfl, rfl⟩, ?_, rfl⟩
    intro m
    have hm : (a.mtx m).thread ≠ t := by
      intro he
      have := (h.shape.owned t m).mpr ⟨h0, he⟩
      rw [hl] at this
      cases this
    rw [List.foldl_nil, if_neg hm]
  | cons m l ih =>
    have hm : m ∈ a.owned t := by simp [hl]
    have hown := ((h.shape.owned t m).mp hm).2
    have hcd : Core ∅ (a.disown t m) := (h.shape.disown hm).core
    have hmv := (hcd.wakeupThread (by simp) (QueueAddr.mutex_isWait m)).2.1
    have hstep : Sched.unlockHead t a m = (a.disown t m).wakeupThread (.mutex m) := rfl
    have hrest := ih (h.unlockHead hd hm) (fun hlv => hd ((hmv.live_iff t).mp hlv)) (by
      rw [hstep, hmv.owned]
      simp [hl])
    rw [hstep] at hrest
    refine ⟨hrest.dead, ?_, ?_, ?_, ?_⟩
    · exact fun u hlv => (hmv.live_iff u).mp (hrest.live u hlv)
    · intro u hlv
      have h₁ := hrest.words u hlv
      exact ⟨h₁.1.trans (hmv.val u), h₁.2.trans (hmv.mutex u)⟩
    · intro k
      rw [List.foldl_cons, hstep, hrest.released, hmv.mtx]
      by_cases hk : k = m
      · subst hk
        simp [hown]
      · simp [hk]
    · exact hrest.reschedule.trans hmv.reschedule

theorem Fit.buried (h : Fit W V (insert t ∅) ∅ ∅ (insert t ∅) a) (hs : (a.tcb t).state ≠ .unused)
    (hq : V → a.runQueueHint = false → a.currentThread ≠ t) (v : Option Nat) :
    Buried t a (a.bury t v) := by
  have hr := h.retire hs hq v
  have hd := retire_dead a t v
  have hu := hr.unlockAllMutex hd
  have h0 : t ≠ 0 := (h.shape.core.slot t hs).1
  unfold Sched.bury
  rw [hu.shape.core.wakeupThread_join]
  have hb := hr.buried_unlockHeads hd rfl h0
  exact (Quiet.retire a t v).buried (hb.quiet (hu.shape.core.osReschedule (q := .null) (by simp)).2.quiet)

theorem Quiet.unsetRun (hs : (a.tcb t).state = .ready) : Quiet a (a.unsetRun t) :=
  Quiet.one t (unsetRun_tcb a t) ⟨rfl, rfl⟩ (fun _ _ => by simp [Sched.live, hs]) rfl rfl

theorem Fit.quiet_cancelUnlink (h : Fine W a) {r : Bool × Sched} (hr : a.cancelUnlink n t = .ok r) :
    Quiet a r.2 := by
  unfold Sched.cancelUnlink at hr
  split at hr
  case h_1 hs =>
    cases hr
    split
    · exact Quiet.refl a
    · exact Quiet.unsetRun hs
  case h_2 =>
    cases hr
    exact ⟨rfl, fun _ => id, fun _ _ => ⟨rfl, rfl⟩, rfl⟩
  case h_3 hs =>
    obtain ⟨hfit, hadrift⟩ := h.detached hs
    have hd : Quiet a (a.detach t) := Quiet.one t (by rfl) (by simp)
      (fun _ _ => by simp [Sched.live, hs]) rfl rfl
    split at hr
    · cases hr
      exact hd
    · obtain ⟨c, hc, hr⟩ := bind_eq_ok.mp hr
      cases hr
      exact hd.trans (hfit.shape.core.updateOwner hadrift hc).2.quiet
  case h_4 =>
    cases hr
    exact Quiet.refl a

/-- A cancelled thread that was alive is dead. -/
theorem Fit.cancelThread_buried (h : Fine W a) (hl : a.live t) (hb : a.cancelThread n t = .ok b) :
    Buried t a b := by
  obtain ⟨r, hr, hb⟩ := bind_eq_ok.mp hb
  have hq := h.quiet_cancelUnlink hr
  rcases h.cancelUnlink hr with ⟨h1, ho⟩ | ⟨h1, _⟩
  · rw [if_pos h1] at hb
    cases hb
    have hbur := ho.fit.bury ho.used ho.quiet none
    exact (hq.buried (ho.fit.buried ho.used ho.quiet none)).quiet
      (hbur.shape.core.osReschedule (q := .null) (by simp)).2.quiet
  · unfold Sched.cancelUnlink at hr
    split at hr
    case h_1 =>
      cases hr
      simp at h1
    case h_2 =>
      cases hr
      simp at h1
    case h_3 =>
      split at hr
      · cases hr
        simp at h1
      · obtain ⟨_, _, hr⟩ := bind_eq_ok.mp hr
        cases hr
        simp at h1
    case h_4 h₁ h₂ h₃ =>
      obtain ⟨hu, hm⟩ := hl
      cases hst : (a.tcb t).state <;> simp_all

theorem cancelThread_dead (hl : ¬ a.live t) (hb : a.cancelThread n t = .ok b) :
    b = a := by
  have hst : (a.tcb t).state = .unused ∨ (a.tcb t).state = .moribund := by
    simp only [Sched.live] at hl
    tauto
  have hc : a.cancelUnlink n t = .ok (false, a) := by
    unfold Sched.cancelUnlink
    rcases hst with hs | hs <;> simp [hs]
  simp only [Sched.cancelThread, hc] at hb
  cases hb
  rfl

theorem Fit.exitThread_buried (h : Fine W a) (hr : a.CurrentRuns) (v : Nat) :
    Buried a.currentThread a (a.exitThread v) := by
  have hout := h.outgoing hr
  have hbur := hout.bury (by simp [hr.2]) False.elim (some v)
  have hb := hout.buried (by simp [hr.2]) False.elim (some v)
  have hq : Quiet (a.bury a.currentThread (some v)) ((a.bury a.currentThread (some v)).setHint true) :=
    ⟨rfl, fun _ => id, fun _ _ => ⟨rfl, rfl⟩, rfl⟩
  exact (hb.quiet hq).quiet
    ((hbur.shape.core.setHint true).selectThread (q := .null) (by simp) false).2.quiet

theorem Shape.quiet_osReschedule (h : Shape ∅ D H a) : Quiet a a.osReschedule :=
  (h.core.osReschedule (q := .null) (by simp)).2.quiet

theorem Shape.quiet_wakeupThread (h : Shape ∅ D H a) (hq : q.isWait) : Quiet a (a.wakeupThread q) :=
  (h.core.wakeupThread (by simp) hq).2.1.quiet

theorem Quiet.enqueueCurrent (hr : a.CurrentRuns) (q : QueueAddr) : Quiet a (a.enqueueCurrent q) :=
  Quiet.one a.currentThread (by rfl) (by simp) (fun _ _ => hr.live) rfl rfl

theorem Core.quiet_sleepThread (h : Core X a) (hX : a.currentThread ∉ X) (hr : a.CurrentRuns)
    (hq : q.isWait) : Quiet a (a.sleepThread q) :=
  (Quiet.enqueueCurrent hr q).trans
    ((h.enqueueCurrent hX hr hq).osReschedule (q := .null) hX).2.quiet

theorem Fit.quiet_suspendThread (h : Fine W a) (hb : a.suspendThread n t = .ok b) : Quiet a b := by
  obtain ⟨inc, hinc, hb⟩ := bind_eq_ok.mp hb
  have hi := checkS32_eq hinc
  subst hi
  have hmod : Quiet a (a.modT t ({ · with suspend := (a.tcb t).suspend + 1 })) :=
    Quiet.modT t ⟨rfl, rfl⟩ fun hu hm => ⟨hu, hm⟩
  split at hb
  · rename_i hz
    obtain ⟨c, hc, hb⟩ := bind_eq_ok.mp hb
    cases hb
    rw [hz] at hc hmod
    refine (hmod.trans ?_).trans (h.suspendRequeue hz hc).shape.quiet_osReschedule
    unfold Sched.suspendRequeue at hc
    simp only [modT_tcb, Function.update_self] at hc
    split at hc
    case h_1 hs =>
      cases hc
      exact Quiet.one t (by rfl) (by simp) (fun _ _ => by simp [Sched.live, hs]) rfl rfl
    case h_2 hs =>
      cases hc
      exact Quiet.unsetRun (by simpa using hs)
    case h_3 hs =>
      have hpark := h.parked hs
      refine Quiet.trans ?_ (hpark.shape.core.updateOwner (fun _ hx => hx.elim) hc).2.quiet
      exact Quiet.one t (by rfl) (by simp) (fun _ _ => by simp [Sched.live, hs]) rfl rfl
    case h_4 =>
      cases hc
      exact Quiet.refl _
  · cases hb
    exact hmod

theorem Fit.quiet_resumeThread (h : Fine W a) (hb : a.resumeThread n t = .ok b) : Quiet a b := by
  obtain ⟨dec, hdec, hb⟩ := bind_eq_ok.mp hb
  have hd := checkS32_eq hdec
  subst hd
  split at hb
  · cases hb
    exact Quiet.modT t ⟨rfl, rfl⟩ fun hu hm => ⟨hu, hm⟩
  split at hb
  · rename_i hz
    obtain ⟨c, hc, hb⟩ := bind_eq_ok.mp hb
    cases hb
    rw [hz] at hc
    have hmod : Quiet a (a.modT t ({ · with suspend := 0 })) :=
      Quiet.modT t ⟨rfl, rfl⟩ fun hu hm => ⟨hu, hm⟩
    refine (hmod.trans ?_).trans (h.resumeRequeue (by omega) hc).shape.quiet_osReschedule
    unfold Sched.resumeRequeue at hc
    simp only [modT_tcb, Function.update_self] at hc
    split at hc
    case h_1 hs =>
      cases hc
      exact (Quiet.modT t ⟨rfl, rfl⟩ fun hu hm => ⟨hu, hm⟩).trans
        (Quiet.one t (by rfl) (by simp) (fun _ _ => by simp [Sched.live, hs]) rfl rfl)
    case h_2 hs =>
      have href := h.refreshed hs
      refine Quiet.trans ?_ (href.shape.core.updateOwner (fun _ hx => hx.elim) hc).2.quiet
      exact Quiet.one t (by rfl) (by simp) (fun _ _ => by simp [Sched.live, hs]) rfl rfl
    case h_3 =>
      cases hc
      exact Quiet.refl _
  · cases hb
    exact Quiet.modT t ⟨rfl, rfl⟩ fun hu hm => ⟨hu, hm⟩

theorem Quiet.joinThread (a : Sched) (t : Addr) : Quiet a (a.joinThread t) := by
  unfold Sched.joinThread
  split
  · exact Quiet.one t (by rfl) (by simp) (by simp) rfl rfl
  · exact Quiet.refl a

theorem Quiet.modQ (a : Sched) (k : Nat) (g : MsgQueue → MsgQueue) : Quiet a (a.modQ k g) :=
  ⟨rfl, fun _ => id, fun _ _ => ⟨rfl, rfl⟩, rfl⟩

theorem Fit.quiet_blockIf (h : Fine W a) {flags : Nat} (hr : OSThread.blocks flags → a.CurrentRuns)
    (hq : q.isWait) : Quiet a (a.blockIf flags q) := by
  unfold Sched.blockIf
  split
  · rename_i hb
    exact h.shape.core.quiet_sleepThread (by simp) (hr hb) hq
  · exact Quiet.refl a

theorem Fit.quiet_sendMessage (h : Fine W a) {flags : Nat}
    (hr : OSThread.blocks flags → a.CurrentRuns) (k msg : Nat) : Quiet a (a.sendMessage k msg flags) := by
  unfold Sched.sendMessage
  simp only
  split
  · exact h.quiet_blockIf hr (by exact trivial)
  · exact (Quiet.modQ a k _).trans ((h.modQ k _).shape.quiet_wakeupThread trivial)

theorem Fit.quiet_receiveMessage (h : Fine W a) {flags : Nat}
    (hr : OSThread.blocks flags → a.CurrentRuns) (k : Nat) : Quiet a (a.receiveMessage k flags) := by
  unfold Sched.receiveMessage
  simp only
  split
  · exact h.quiet_blockIf hr (by exact trivial)
  · exact (Quiet.modQ a k _).trans ((h.modQ k _).shape.quiet_wakeupThread trivial)

theorem Fit.quiet_jamMessage (h : Fine W a) {flags : Nat}
    (hr : OSThread.blocks flags → a.CurrentRuns) (k msg : Nat) : Quiet a (a.jamMessage k msg flags) := by
  unfold Sched.jamMessage
  simp only
  split
  · exact h.quiet_blockIf hr (by exact trivial)
  · exact (Quiet.modQ a k _).trans ((h.modQ k _).shape.quiet_wakeupThread trivial)

end SdkPort.OSThread.Sched
