import SdkPort.OS.MutexField
import SdkPort.Lib.Withdraw

/-!
# Cancelling a thread in a deadlock

Cancelling a waiting thread takes it out of its queue, clears its queue word, and then
re-evaluates the threads it was blocking, one after the other. The wave fails exactly
when it comes back to the cancelled thread, which still counts as waiting.
-/
namespace SdkPort.OSThread

open Runs (bind_eq_ok)
open Relation (TransGen ReflTransGen)
open Inherit (Settled Trail closed_of_reach)

namespace Sched

variable {W : Prop} {X D H E : Set Addr} {a b c : Sched} {t u w x y m : Addr} {l : List Addr} {n : Nat}

/-- `y` alone gives `x` its priority. -/
def feeds (a : Sched) : Addr → Addr → Prop := Inherit.Feeds a.blocks a.base a.prio a.suspended

theorem Shape.blocks_unique (h : Shape X D H a) {v v' : Addr} (hv : a.blocks w v)
    (hv' : a.blocks w v') : v = v' := by
  obtain ⟨_, _, _, hn, _⟩ := h.of_blocks hv
  obtain ⟨_, _, _, hn', _⟩ := h.of_blocks hv'
  exact hn.symm.trans hn'

theorem Shape.feeds_unique (h : Shape X D H a) : Relator.RightUnique a.feeds :=
  fun _ _ _ hv hv' => h.blocks_unique hv.1 hv'.1

theorem Fit.settled_of_blocks (h : Fine True a) (y x : Addr) (hb : a.blocks y x)
    (hs : ¬ a.suspended x) : Settled a.blocks a.base a.prio x :=
  h.exact trivial x (Set.notMem_empty x) (h.shape.live_of_blocks hb) hs

theorem detach_blocks (h : Sound a) (hs : (a.tcb t).state = .waiting) (w x : Addr) :
    (a.detach t).blocks w x ↔ a.blocks w x ∧ w ≠ t := by
  have hq : ∀ m, w ∈ (a.detach t).queue (.mutex m) ↔ w ∈ a.queue (.mutex m) ∧ w ≠ t := by
    intro m
    by_cases he : QueueAddr.mutex m = (a.tcb t).queue
    · rw [detach]
      simp only [modT_queue, removeItem_queue, he, Function.update_self]
      rw [(h.core.nodup _).mem_erase_iff]
      tauto
    · have hne : w ∈ a.queue (.mutex m) → w ≠ t := by
        rintro hw rfl
        have hhome := ((h.core.mem _ (by simp) w).mp hw).2
        rw [Tcb.home_waiting hs] at hhome
        exact he (Option.some.inj hhome).symm
      simp only [detach, modT_queue, removeItem_queue, Function.update_of_ne he]
      tauto
  constructor
  · rintro ⟨m, hm, hw⟩
    exact ⟨⟨m, hm, ((hq m).mp hw).1⟩, ((hq m).mp hw).2⟩
  · rintro ⟨⟨m, hm, hw⟩, hne⟩
    exact ⟨m, hm, (hq m).mpr ⟨hw, hne⟩⟩

theorem detach_prio (a : Sched) (t : Addr) : (a.detach t).prio = a.prio := by
  funext u
  by_cases hu : u = t <;> simp [Sched.prio, detach, hu]

theorem detach_base (a : Sched) (t : Addr) : (a.detach t).base = a.base := by
  funext u
  by_cases hu : u = t <;> simp [Sched.base, detach, hu]

theorem detach_suspended (a : Sched) (t u : Addr) : (a.detach t).suspended u ↔ a.suspended u := by
  by_cases hu : u = t <;> simp [Sched.suspended, detach, hu]

/-- The lists in the middle of a wave: `t` is detached, the nodes of the trail have got
worse, and nothing else has changed. -/
structure Waved (a : Sched) (t : Addr) (l : List Addr) (b : Sched) : Prop where
  shape : Shape (insert t ∅) ∅ ∅ b
  adrift : Adrift (insert t ∅) b
  reprio : Reprio (a.detach t) b
  trail : Trail a.blocks a.base a.prio a.suspended t l b.prio

theorem Fit.waved (h : Fine W a) (hs : (a.tcb t).state = .waiting) : Waved a t [t] (a.detach t) := by
  obtain ⟨hfit, hadrift⟩ := h.detached hs
  refine ⟨hfit.shape, hadrift, Reprio.refl _, ?_⟩
  rw [detach_prio]
  exact .start

/-- A trail is no longer than there are threads. -/
theorem Waved.length_le (h : Waved a t l b) (hs : Sound a) (ht : a.live t) :
    l.length ≤ PORT_MAX_THREADS := by
  apply length_le_of_bound h.trail.nodup
  intro x hx
  apply hs.core.slot x
  rcases h.trail.fed hx with rfl | ⟨y, hf⟩
  · exact ht.1
  · exact (hs.live_of_blocks hf.1).1

theorem Waved.blocks (h : Waved a t l b) (hf : Fine W a) (hs : (a.tcb t).state = .waiting)
    (w x : Addr) : b.blocks w x ↔ a.blocks w x ∧ w ≠ t := by
  rw [h.reprio.blocks (hf.detached hs).1.shape.core h.shape.core, detach_blocks hf.shape hs]

theorem Waved.suspended (h : Waved a t l b) (x : Addr) : b.suspended x ↔ a.suspended x := by
  rw [h.reprio.not_suspended, detach_suspended]

theorem Waved.state (h : Waved a t l b) (x : Addr) : (b.tcb x).state = (a.tcb x).state := by
  rw [h.reprio.state]
  by_cases hx : x = t <;> simp [detach, hx]

theorem Waved.nextOwner (h : Waved a t l b) (x : Addr) : b.nextOwner x = a.nextOwner x := by
  rw [h.reprio.nextOwner]
  by_cases hx : x = t <;> simp [Sched.nextOwner, detach, hx]

theorem Waved.least (h : Waved a t l b) (x : Addr) :
    IsLeast (Inherit.demands b.blocks a.base b.prio x) (b.effectivePriority x) := by
  have hbase : b.base = a.base := by
    rw [← detach_base a t]
    funext u
    exact h.reprio.base u
  rw [← hbase]
  exact h.shape.core.effectivePriority_isLeast x

/-- A thread is re-evaluated and gets worse: it joins the trail. -/
theorem Waved.step (h : Waved a t (y :: l) b) (hx0 : ¬ a.suspended x) (hl : a.live x)
    (hf : a.feeds y x) (hx : x ∉ y :: l) (hlt : a.prio x < b.effectivePriority x)
    {r : Addr × Sched} (hr : b.setEffectivePriority x (b.effectivePriority x) = .ok r) :
    Waved a t (x :: y :: l) r.2 := by
  have hsus : ¬ b.suspended x := fun hb => hx0 ((h.suspended x).mp hb)
  have hlb : b.live x := by
    rw [Sched.live, h.state]
    exact hl
  have hrep := Reprio.setEffectivePriority hsus hr
  have hc := h.shape.core.setEffectivePriority h.adrift hsus (h.shape.core.effectivePriority_le x) hr
  refine ⟨h.shape.reprio hc hrep, h.adrift.setEffectivePriority hr, h.reprio.trans hrep, ?_⟩
  rw [(setEffectivePriority_prio hlb hr).1]
  exact h.trail.step hf hx hlt

/-- The wave after cancelling a waiting thread stops at a thread that feeds nobody, or
comes back to the cancelled thread. -/
theorem Waved.updatePriority (h : Waved a t (y :: l) b) (hf : Fine True a) (ht : a.live t)
    (hs : (a.tcb t).state = .waiting) (hb : a.blocks y x)
    (hn : PORT_MAX_THREADS < n + (y :: l).length) :
    (∃ c z, Sched.updatePriority n b x = .ok c ∧ ReflTransGen a.feeds t z ∧ ∀ v, ¬ a.feeds z v) ∨
      (Sched.updatePriority n b x = .error .nullQueue ∧ TransGen a.feeds t t) := by
  induction n generalizing b x y l with
  | zero =>
    have := h.length_le hf.shape ht
    omega
  | succ n ih =>
    have hreach := h.trail.reach
    have hx0 := (hf.shape.of_blocks hb).2.2.2.2
    have hend : ¬ a.feeds y x → ∀ v, ¬ a.feeds y v := fun hn v hv =>
      hn (hf.shape.blocks_unique hv.1 hb ▸ hv)
    rw [Sched.updatePriority, if_neg hx0]
    by_cases hsus : a.suspended x
    · rw [if_pos ((h.suspended x).mpr hsus)]
      exact .inl ⟨b, y, rfl, hreach, hend fun hfe => hfe.2.1 hsus⟩
    rw [if_neg fun hb => hsus ((h.suspended x).mp hb)]
    obtain ⟨hfresh, hiff, hworse⟩ := h.trail.next (fun _ _ _ => hf.shape.blocks_unique)
      hf.settled_of_blocks (h.blocks hf hs) hb hsus (h.least x)
    by_cases hp : b.prio x = b.effectivePriority x
    · rw [if_pos hp]
      exact .inl ⟨b, y, rfl, hreach, hend fun hfe => hiff.mp hfe hp⟩
    rw [if_neg hp]
    have hfe : a.feeds y x := hiff.mpr hp
    by_cases hxt : x = t
    · -- back at the cancelled thread, whose queue word is null
      subst hxt
      obtain ⟨hst, hq⟩ := h.adrift x (Set.mem_insert x ∅)
      right
      refine ⟨?_, TransGen.tail' hreach hfe⟩
      simp [Sched.setEffectivePriority, hst, hq, bind, Except.bind]
    have hl := hf.shape.live_of_blocks hb
    have hplaced := h.shape.core.placed x (by simpa using hxt)
    obtain ⟨r, hr⟩ := setEffectivePriority_ok (fun hw => (hplaced.waiting hw).ne_null)
      (b.effectivePriority x)
    have hstep := h.step hsus hl hfe (hfresh.resolve_left hxt) (hworse hfe) hr
    have hlb : b.live x := by
      rw [Sched.live, h.state]
      exact hl
    obtain ⟨_, hwait, hnot⟩ := setEffectivePriority_prio hlb hr
    rw [hr]
    simp only [bind, Except.bind]
    have hnext : ∀ v, a.feeds x v → v = r.1 ∧ r.1 ≠ 0 := by
      intro v hv
      obtain ⟨_, hst, _, hne, h0⟩ := hf.shape.of_blocks hv.1
      rw [hwait (by rwa [h.state]), h.nextOwner, hne]
      exact ⟨rfl, h0⟩
    by_cases hz : r.1 = 0
    · rw [if_pos hz]
      exact .inl ⟨r.2, x, rfl, hreach.tail hfe, fun v hv => (hnext v hv).2 hz⟩
    · rw [if_neg hz]
      have hst : (a.tcb x).state = .waiting := by
        by_contra hst
        exact hz (hnot (by rwa [h.state]))
      have hr1 : r.1 = a.nextOwner x := by
        rw [hwait (by rwa [h.state]), h.nextOwner]
      have hbx : a.blocks x r.1 := by
        rw [hr1]
        exact hf.shape.blocks_nextOwner (hf.waits trivial) (Set.notMem_empty x) hst (hr1 ▸ hz)
      exact ih hstep hbx (by simp only [List.length_cons] at hn ⊢; omega)

/-- A thread in a circle of `feeds` waits for a mutex and is not suspended. -/
theorem Shape.of_feeds_circle (h : Sound a) (hc : TransGen a.feeds t t) :
    (a.tcb t).state = .waiting ∧ ¬ a.suspended t ∧ ∃ x, a.blocks t x := by
  obtain ⟨x, hx, _⟩ := TransGen.head'_iff.mp hc
  obtain ⟨y, _, hy⟩ := TransGen.tail'_iff.mp hc
  exact ⟨(h.of_blocks hx.1).2.1, hy.2.1, x, hx.1⟩

theorem cancelThread_ok {c : Sched} (h : a.cancelUnlink n t = .ok (true, c)) :
    ∃ b, a.cancelThread n t = .ok b := by
  rw [Sched.cancelThread, h]
  exact ⟨_, rfl⟩

/-- Cancelling a live thread succeeds unless a circle of `feeds` goes through it. -/
theorem Fit.cancelThread_outcome (h : Fine True a) (hl : a.live t) (hn : PORT_MAX_THREADS ≤ n) :
    (¬ TransGen a.feeds t t ∧ ∃ b, a.cancelThread n t = .ok b) ∨
      (TransGen a.feeds t t ∧ a.cancelThread n t = .error .nullQueue) := by
  have hcircle := fun hc => h.shape.of_feeds_circle (t := t) hc
  by_cases hs : (a.tcb t).state = .waiting
  case neg =>
    refine .inl ⟨fun hc => hs (hcircle hc).1, ?_⟩
    have hu : ∃ c, a.cancelUnlink n t = .ok (true, c) := by
      obtain ⟨hu, hm⟩ := hl
      unfold Sched.cancelUnlink
      cases hst : (a.tcb t).state with
      | ready => exact ⟨_, rfl⟩
      | running => exact ⟨_, rfl⟩
      | waiting => exact absurd hst hs
      | unused => exact absurd hst hu
      | moribund => exact absurd hst hm
    obtain ⟨c, hc⟩ := hu
    exact cancelThread_ok hc
  have hun : a.cancelUnlink n t = if a.suspended t then .ok (true, a.detach t)
      else (a.detach t).updateOwner n t >>= fun b => .ok (true, b) := by
    simp only [Sched.cancelUnlink, hs]
  by_cases hsus : a.suspended t
  · rw [if_pos hsus] at hun
    exact .inl ⟨fun hc => (hcircle hc).2.1 hsus, cancelThread_ok hun⟩
  rw [if_neg hsus] at hun
  have hmut : ((a.detach t).tcb t).mutex = (a.tcb t).mutex := by simp [detach]
  by_cases hm : (a.tcb t).mutex = 0
  · have hup : (a.detach t).updateOwner n t = .ok (a.detach t) := by
      rw [Sched.updateOwner, hmut, if_pos hm]
    rw [hup] at hun
    refine .inl ⟨fun hc => ?_, cancelThread_ok hun⟩
    obtain ⟨_, _, x, hb⟩ := hcircle hc
    exact (h.shape.of_blocks hb).2.2.1 hm
  have hup : (a.detach t).updateOwner n t =
      Sched.updatePriority n (a.detach t) (a.nextOwner t) := by
    rw [Sched.updateOwner, hmut, if_neg hm, Sched.nextOwner, if_neg hm]
    rfl
  rw [hup] at hun
  have hb : a.blocks t (a.nextOwner t) :=
    h.shape.blocks_nextOwner (h.waits trivial) (Set.notMem_empty t) hs (h.nextOwner_ne hs hm).2
  have hwave := (h.waved hs).updatePriority (n := n) h hl hs hb
    (by simp only [List.length_singleton]; omega)
  rcases hwave with ⟨c, z, hc, hz, hstop⟩ | ⟨he, hc⟩
  · rw [hc] at hun
    refine .inl ⟨fun ht => ?_, cancelThread_ok hun⟩
    obtain ⟨v, hv, _⟩ := TransGen.head'_iff.mp (closed_of_reach h.shape.feeds_unique ht hz)
    exact hstop v hv
  · refine .inr ⟨hc, ?_⟩
    rw [he] at hun
    rw [Sched.cancelThread, hun]
    rfl

end Sched

open Sched (Fine Sound)

variable {s s' : St} {a b : Sched} {t u m : Addr} {n : Nat} {ph : Phase}

/-- The priority of thread `x` comes from thread `y`, which is queued on a mutex of `x`,
and from no other: `x` is not suspended, its base is worse and so is every other waiter. -/
def St.feeds (s : St) (y x : Addr) : Prop :=
  s.blocks y x ∧ (s.thr x).suspend ≤ 0 ∧ s.prio x < (s.thr x).base ∧
    ∀ w, s.blocks w x → w ≠ y → s.prio x < s.prio w

/-- With fuel for a chain through every thread, cancelling `t` touches no queue at
address 0, leaves queues and bitmap consistent, and `t` is linked in no run queue or wait
queue any more. -/
def CancelSafe (s : St) (t : Addr) : Prop :=
  ∀ n ≥ PORT_MAX_THREADS, portOSCancelThread n t s ≠ .error .nullQueue ∧
    ∃ s', portOSCancelThread n t s = .ok ((), s') ∧ Structured s' ∧
      ∀ q, q ≠ .active → t ∉ s'.members q

theorem Rep.feeds (h : Rep s a) (hs : Sound a) : s.feeds = a.feeds := by
  have hbase : ∀ x, (s.thr x).base = a.base x := fun x => by rw [h.tcb]; rfl
  have hsus : ∀ x, (s.thr x).suspend ≤ 0 ↔ ¬ a.suspended x := fun x => by
    rw [h.tcb, Sched.suspended, not_lt]
  funext y x
  simp only [St.feeds, Sched.feeds, Inherit.Feeds, h.blocks hs, h.prio, hbase, hsus]

theorem Represents.cancelSafe_iff (h : Represents True ph s a) (hl : a.live t) :
    CancelSafe s t ↔ ¬ TransGen a.feeds t t := by
  have hs := h.fine.shape
  have hslot := hs.core.slot t hl.1
  have hx : ∀ n, Computes (portOSCancelThread n t s) (a.cancelThread n t) := fun n =>
    h.rep.exec (o := .cancel t) hs hslot n
  constructor
  · intro hsafe hc
    rcases h.fine.cancelThread_outcome (n := PORT_MAX_THREADS) hl le_rfl with ⟨hn, _⟩ | ⟨_, he⟩
    · exact hn hc
    · obtain ⟨_, s', hs', _⟩ := hsafe _ le_rfl
      have hxn := hx PORT_MAX_THREADS
      rw [hs', he] at hxn
      exact hxn
  · intro hn n hle
    rcases h.fine.cancelThread_outcome hl hle with ⟨_, b, hb⟩ | ⟨hc, _⟩
    · have hxn := hx n
      rw [hb] at hxn
      obtain ⟨_, s', hs', hrep⟩ := Runs.lockstep_ok_left.mp hxn
      have hsb : Sound b := (h.fine.cancelThread hb).shape
      have hd := (h.fine.cancelThread_buried hl hb).dead
      refine ⟨by simp [hs'], s', hs', hrep.structured hsb, ?_⟩
      intro q hq hmem
      have hhome := (hrep.mem_members hsb hq).mp hmem
      rw [hrep.tcb] at hhome
      rcases Tcb.home_cases hhome with ⟨hst, _⟩ | ⟨hst, _⟩ <;> simp [Sched.live, hst] at hd
    · exact absurd hc hn

/-- In every state of a run without condition waits, cancelling a live thread is safe
unless it stands in a circle of threads each of which alone gives the next its priority. -/
theorem reached_cancelSafe (h : Reached NoCondWait ph s) (hl : s.live t) :
    CancelSafe s t ↔ ¬ TransGen s.feeds t t := by
  obtain ⟨a, ha⟩ := h.represents (W := True) fun _ _ _ hp => hp
  rw [ha.rep.feeds ha.fine.shape]
  exact ha.cancelSafe_iff ((ha.rep.live t).mp hl)

/-- Threads 2 and 3 own mutexes 1 and 2 and wait for each other. -/
def deadlock : List Op :=
  [.create 1 20 0, .create 2 25 0, .initMutex 1, .initMutex 2, .resume 2, .resume 3, .suspend 1,
    .lock 1, .suspend 2, .lock 2, .resume 2, .lock 2, .lock 1]

theorem deadlock_cancelSafe : ∃ s, bootTrial NoCondWait 40 deadlock = some s ∧ CancelSafe s 2 := by
  have hrun : (bootTrial NoCondWait 40 deadlock).any
      (fun s => (s.thr 2).state = .waiting ∧ ¬ s.prio 2 < (s.thr 2).base) = true := by decide +kernel
  obtain ⟨s, hs, hp⟩ := bootTrial_any hrun
  obtain ⟨hst, hprio⟩ := of_decide_eq_true hp
  refine ⟨s, hs, (reached_cancelSafe (reached_bootTrial hs) ?_).mpr ?_⟩
  · simp [St.live, hst]
  · intro hc
    obtain ⟨y, _, hy⟩ := TransGen.tail'_iff.mp hc
    exact hprio hy.2.2.1

/-- The default thread boosts the two threads of the deadlock and withdraws: the boost
stays, as each keeps up the other's. -/
def boostedDeadlock : List Op := deadlock ++ [.resume 1, .lock 1, .suspend 1]

/-- Cancelling one of them follows its cleared queue word. -/
theorem boostedDeadlock_not_cancelSafe : ∃ s, Reached NoCondWait .idle s ∧ s.live 2 ∧
    portOSCancelThread 40 2 s = .error .nullQueue ∧ ¬ CancelSafe s 2 := by
  have hrun : (bootTrial NoCondWait 40 boostedDeadlock).any (fun s => (s.thr 2).state = .waiting ∧
      failure (portOSCancelThread 40 2 s) = some .nullQueue) = true := by decide +kernel
  obtain ⟨s, hs, hp⟩ := bootTrial_any hrun
  obtain ⟨hst, hf⟩ := of_decide_eq_true hp
  have he := eq_error_of_failure hf
  refine ⟨s, reached_bootTrial hs, by simp [St.live, hst], he, ?_⟩
  intro hsafe
  exact (hsafe 40 (by decide)).1 he

end SdkPort.OSThread
