import SdkPort.OS.SchedLife

/-!
# Birth and death of threads, messages, and pending locks

What remains of the interface: threads are created, cancelled, exit and are
joined; messages wake and block; pending locks are retried until the current
thread has none.
-/
namespace SdkPort.OSThread.Sched

open Runs (bind_eq_ok)

variable {W V : Prop} {X D H E : Set Addr} {a b : Sched} {t u w m : Addr} {q : QueueAddr} {n : Nat}

/-- A thread in no queue changes, and enters or leaves the list of all threads. -/
theorem Core.enlist (h : Core (insert t X) a) (ht : t ∉ X) (hother : ∀ u, u ≠ t → b.tcb u = a.tcb u)
    (hqueue : ∀ q, q ≠ .active → b.queue q = a.queue q) (hbits : b.runQueueBits = a.runQueueBits)
    (hcur : b.currentThread = a.currentThread) (hb : (b.tcb t).Bounded) (hp : (b.tcb t).Placed)
    (hhome : (b.tcb t).home = none) (hrun : (b.tcb t).state ≠ .running)
    (hslot : (b.tcb t).state ≠ .unused → Slot t) (hnodup : (b.queue .active).Nodup)
    (hact : ∀ u, u ∈ b.queue .active ↔ if u = t then (b.tcb t).state ≠ .unused else u ∈ a.queue .active) :
    Core X b := by
  have hX : ∀ u, u ≠ t → (u ∈ insert t X ↔ u ∈ X) := by
    intro u hu
    simp [hu]
  refine ⟨?_, ?_, ?_, ?_, ?_, ?_, ?_, ?_, ?_, ?_⟩
  · intro u
    by_cases he : u = t
    · rwa [he]
    · rw [hother u he]
      exact h.bounded u
  · intro u hu
    by_cases he : u = t
    · rwa [he]
    · rw [hother u he]
      exact h.placed u (fun hx => hu ((hX u he).mp hx))
  · intro q hq u
    rw [hqueue q hq]
    by_cases he : u = t
    · subst he
      simp [hhome, h.not_mem (Set.mem_insert u X) hq]
    · rw [hother u he, ← hX u he]
      exact h.mem q hq u
  · intro q
    by_cases hq : q = .active
    · rwa [hq]
    · rw [hqueue q hq]
      exact h.nodup q
  · intro u
    rw [hact]
    split
    · rename_i he
      rw [he]
    · rename_i he
      rw [hother u he]
      exact h.active u
  · intro u hu hs
    by_cases he : u = t
    · rw [he] at hs
      exact absurd hs hrun
    · rw [hother u he] at hs
      rw [hcur]
      exact h.running u (fun hx => hu ((hX u he).mp hx)) hs
  · intro u hu
    by_cases he : u = t
    · rw [he] at hu ⊢
      exact hslot hu
    · rw [hother u he] at hu
      exact h.slot u hu
  · rw [hcur]
    exact h.current
  · intro p hp
    rw [hqueue _ (by simp), hbits]
    exact h.bits p hp
  · intro q hq
    rw [hqueue q hq.ne_active]
    apply PrioList.sorted_congr (h.sorted q hq)
    intro u hu
    have he : u ≠ t := by
      intro he
      subst he
      exact h.not_mem (Set.mem_insert u X) hq.ne_active hu
    simp only [Sched.prio, hother u he]

/-- A thread in no queue leaves the list of all threads. -/
theorem Core.leaveActive (h : Core (insert t X) a) (ht : t ∉ X) :
    Core X ((a.removeItem .active t).modT t ({ · with state := .unused })) := by
  have hself : (((a.removeItem .active t).modT t ({ · with state := .unused })).tcb t) =
      { a.tcb t with state := .unused } := by simp
  apply h.enlist ht
  · intro u hu
    simp [hu]
  · intro q hq
    simp [hq]
  · rfl
  · rfl
  · rw [hself]
    exact ⟨(h.bounded t).base, (h.bounded t).priority, (h.bounded t).suspend⟩
  · rw [hself]
    constructor <;> simp
  · rw [hself]
    exact Tcb.home_idle (by simp) (by simp)
  · simp
  · simp
  · simpa using (h.nodup .active).erase t
  · intro u
    simp only [modT_queue, removeItem_queue, Function.update_self, (h.nodup _).mem_erase_iff]
    split
    · simp [*]
    · simp [*]

/-- A new thread is suspended and joins the list of all threads. -/
theorem Core.enterActive (h : Core X a) (ht : t ∉ X) (hs : (a.tcb t).state = .unused) (hslot : Slot t)
    {g : Tcb → Tcb} (hg : (g (a.tcb t)).state = .ready) (h0 : 0 < (g (a.tcb t)).suspend)
    (hb : (g (a.tcb t)).base ≤ 31) (hp : (g (a.tcb t)).priority ≤ 31) :
    Core X ((a.modT t g).addTail .active t) := by
  have hself : ((a.modT t g).addTail .active t).tcb t = g (a.tcb t) := by simp
  have hnot : t ∉ a.queue .active := fun hm => (h.active t).mp hm hs
  apply (h.exempt (Tcb.home_idle (by simp [hs]) (by simp [hs]))).enlist ht
  · intro u hu
    simp [hu]
  · intro q hq
    simp [hq]
  · rfl
  · rfl
  · rw [hself]
    exact ⟨hb, by omega, by omega⟩
  · rw [hself]
    constructor <;> simp [hg] <;> omega
  · rw [hself]
    exact Tcb.home_suspended hg h0
  · simp [hg]
  · exact fun _ => hslot
  · simp only [addTail_queue, Function.update_self]
    rw [List.nodup_append]
    refine ⟨h.nodup _, by simp, ?_⟩
    intro x hx y hy
    rw [List.mem_singleton.mp hy]
    rintro rfl
    exact hnot hx
  · intro u
    simp only [addTail_queue, Function.update_self]
    split
    · simp [*]
    · simp [*]

theorem Core.retire (h : Core (insert t X) a) (ht : t ∉ X) (hs : (a.tcb t).state ≠ .unused)
    (v : Option Nat) : Core X (a.retire t v) := by
  unfold Sched.retire
  split
  · exact h.leaveActive ht
  · have hbd := h.bounded t
    apply (h.modT (Set.mem_insert t X) ⟨hbd.base, hbd.priority, hbd.suspend⟩ (by simp [hs])).putBack ht
    · exact Tcb.home_idle (by simp) (by simp)
    · constructor <;> simp
    · simp

theorem retire_tcb (a : Sched) (t : Addr) (v : Option Nat) :
    (∀ u, u ≠ t → (a.retire t v).tcb u = a.tcb u) ∧
      (((a.retire t v).tcb t).state = .unused ∨ ((a.retire t v).tcb t).state = .moribund) ∧
      ((a.retire t v).tcb t).mutex = (a.tcb t).mutex := by
  unfold Sched.retire
  split
  · refine ⟨?_, by simp, by simp⟩
    intro u hu
    simp [hu]
  · refine ⟨?_, by simp, by simp⟩
    intro u hu
    simp [hu]

theorem Fit.retire (h : Fit W V (insert t ∅) ∅ ∅ (insert t ∅) a) (hs : (a.tcb t).state ≠ .unused)
    (hq : V → a.runQueueHint = false → a.currentThread ≠ t) (v : Option Nat) :
    Fit W V ∅ (insert t ∅) ∅ ∅ (a.retire t v) := by
  obtain ⟨hother, hdead, hmut⟩ := retire_tcb a t v
  have hc := h.shape.core.retire (by simp) hs v
  have hone : Alone (insert t ∅) ∅ t a (a.retire t v) := by
    refine ⟨hother, ?_, ?_, by simp +contextual, ?_⟩
    · unfold Sched.retire
      split <;> rfl
    · unfold Sched.retire
      split <;> rfl
    · intro _ hst
      rcases hdead with hd | hd <;> rw [hd] at hst <;> cases hst
  refine h.one hone hc (by simp) (fun _ => .inr (by simp)) (fun _ => hmut) ?_ ?_ ?_
  · intro u hu _
    refine ⟨by simp [hu], ?_⟩
    exact fun hb => (h.shape.of_blocks hb).1 (by simp)
  · intro _ _ hl
    rcases hdead with hd | hd <;> simp [Sched.live, hd] at hl
  · intro hv
    refine (h.hint hv).shrink ?_ ?_ ?_ ?_
    · unfold Sched.retire
      split <;> rfl
    · unfold Sched.retire
      split <;> rfl
    · exact fun hf _ => hother _ (hq hv hf)
    · intro p u hu
      have : (a.retire t v).queue (.runQueue p) = a.queue (.runQueue p) := by
        unfold Sched.retire
        split <;> simp
      rwa [this] at hu

theorem Fit.unlockHead (h : Fit W V ∅ (insert t ∅) ∅ ∅ a) (hd : ¬ a.live t) (hm : m ∈ a.owned t) :
    Fit W V ∅ (insert t ∅) ∅ ∅ (Sched.unlockHead t a m) := by
  have hs := h.shape.disown hm
  apply Fit.wakeupMutex
  · refine ⟨hs, h.waits, ?_, ?_⟩
    · intro hw u _ hl hn
      have hut : u ≠ t := by
        intro he
        subst he
        exact hd hl
      exact (h.exact hw u (by simp) hl hn).congr rfl rfl (fun w => disown_blocks_other _ _ hut)
        (fun _ _ => rfl)
    · intro hv hf
      left
      exact (h.hint hv hf).resolve_right (by simp)
  · simp
  · simp

theorem Fit.unlockHeads (h : Fit W V ∅ (insert t ∅) ∅ ∅ a) (hd : ¬ a.live t) {l : List Addr}
    (hl : a.owned t = l) : Fit W V ∅ (insert t ∅) ∅ ∅ (l.foldl (Sched.unlockHead t) a) ∧
      (l.foldl (Sched.unlockHead t) a).owned t = [] := by
  induction l generalizing a with
  | nil => exact ⟨h, hl⟩
  | cons m l ih =>
    have hm : m ∈ a.owned t := by simp [hl]
    have hcd : Core ∅ (a.disown t m) := (h.shape.disown hm).core
    have hmv := (hcd.wakeupThread (by simp) (QueueAddr.mutex_isWait m)).2.1
    apply ih (h.unlockHead hd hm)
    · exact fun hlv => hd ((hmv.live_iff t).mp hlv)
    · change ((a.disown t m).wakeupThread (.mutex m)).owned t = l
      rw [hmv.owned]
      simp [hl]

/-- All mutexes of a dead thread are released, whatever the wakeups on the way do. -/
theorem Fit.unlockAllMutex (h : Fit W V ∅ (insert t ∅) ∅ ∅ a) (hd : ¬ a.live t) :
    Fit W V ∅ ∅ ∅ ∅ (a.unlockAllMutex t) := by
  obtain ⟨hf, hnil⟩ := h.unlockHeads hd rfl
  have hs := hf.shape
  refine ⟨⟨hs.core, hs.nodup, hs.owned, hs.addr, ?_, hs.pending, hs.names, hs.held⟩, hf.waits,
    hf.exact, hf.hint⟩
  intro k hk
  left
  apply (hs.live k hk).resolve_right
  intro hin
  have he := (Set.mem_insert_iff.mp hin).resolve_right (by simp)
  have hkt := (hs.owned t k).mpr ⟨he ▸ hk, he⟩
  rw [hnil] at hkt
  cases hkt

theorem retire_dead (a : Sched) (t : Addr) (v : Option Nat) : ¬ (a.retire t v).live t := by
  intro hl
  rcases (retire_tcb a t v).2.1 with hd | hd <;> simp [Sched.live, hd] at hl

theorem Fit.bury (h : Fit W V (insert t ∅) ∅ ∅ (insert t ∅) a) (hs : (a.tcb t).state ≠ .unused)
    (hq : V → a.runQueueHint = false → a.currentThread ≠ t) (v : Option Nat) :
    Fit W V ∅ ∅ ∅ ∅ (a.bury t v) := by
  have hu := (h.retire hs hq v).unlockAllMutex (retire_dead a t v)
  unfold Sched.bury
  rw [hu.shape.core.wakeupThread_join]
  exact hu.osReschedule (by simp)

theorem Fit.cancelThread (h : Fine W a) (hb : a.cancelThread n t = .ok b) : Fine W b := by
  obtain ⟨r, hr, hb⟩ := bind_eq_ok.mp hb
  rcases h.cancelUnlink hr with ⟨h1, ho⟩ | ⟨h1, h2⟩
  · rw [if_pos h1] at hb
    cases hb
    exact (ho.fit.bury ho.used ho.quiet none).osReschedule (by simp)
  · simp only [h1, h2] at hb
    cases hb
    exact h

theorem Fit.setHint (h : Fit W False X D H E a) : Fit W W X D H E (a.setHint true) := by
  have hs := h.shape
  refine ⟨⟨hs.core.setHint true, hs.nodup, hs.owned, hs.addr, hs.live, hs.pending, hs.names, hs.held⟩,
    h.waits, h.exact, fun _ => Hinted.of_hint rfl⟩

/-- The running thread is in no queue and may be buried. -/
theorem Fit.outgoing (h : Fine W a) (hr : a.CurrentRuns) :
    Fit W False (insert a.currentThread ∅) ∅ ∅ (insert a.currentThread ∅) a := by
  have hidle : (a.tcb a.currentThread).home = none :=
    Tcb.home_idle (by simp [hr.2]) (by simp [hr.2])
  have hnb := h.shape.not_blocks (t := a.currentThread) (by simp [hr.2])
  have h' : Fit W False ∅ ∅ ∅ ∅ a := ⟨h.shape, h.waits, h.exact, False.elim⟩
  exact h'.one ⟨fun _ _ => rfl, rfl, rfl, by simp +contextual, by simp⟩ (h.shape.core.exempt hidle)
    (fun _ => id) .inl (fun _ => rfl) (fun u _ _ => ⟨by simp, hnb u⟩) (by simp) False.elim

theorem Fit.exitThread (h : Fine W a) (hr : a.CurrentRuns) (v : Nat) : Fine W (a.exitThread v) := by
  have hb := (h.outgoing hr).bury (by simp [hr.2]) False.elim (some v)
  exact hb.setHint.selectThread (by simp) (.inl rfl)

/-- A slot that holds no thread is filled; its lists are empty already. -/
theorem Fit.createThread (h : Fine W a) {slot : Nat} (hslot : slot < PORT_MAX_THREADS)
    (hs : (a.tcb (PORT_THREAD_ADDR slot)).state = .unused) (p : Int) (attr : Nat) :
    Fine W (a.createThread slot p attr) := by
  unfold Sched.createThread
  split
  · exact h
  rename_i hp
  simp only
  generalize ht : PORT_THREAD_ADDR slot = t at hs ⊢
  generalize hg : (fun _ : Tcb => (⟨.ready, attr % 2, 1, p.toNat, p.toNat, 0xFFFFFFFF, .null, 0⟩ : Tcb)) = g
  have hsl : Slot t := by
    subst ht
    exact ⟨Nat.succ_ne_zero slot, hslot⟩
  have hsh := h.shape
  have howned : (a.modT t g).owned t = [] := by
    refine List.eq_nil_iff_forall_not_mem.mpr ?_
    intro k hk
    obtain ⟨h0, he⟩ := (hsh.owned t k).mp hk
    have hl := (hsh.live k (by rwa [he])).resolve_right (by simp)
    rw [he] at hl
    exact hl.1 hs
  have hjoin : (a.modT t g).queue (.join t) = [] := hsh.core.queue_join t
  rw [setOwned_self howned, setQueue_self hjoin]
  have hself : ((a.modT t g).addTail .active t).tcb t =
      ⟨.ready, attr % 2, 1, p.toNat, p.toNat, 0xFFFFFFFF, .null, 0⟩ := by simp [← hg]
  have hc : Core ∅ ((a.modT t g).addTail .active t) := by
    apply hsh.core.enterActive (by simp) hs hsl
    · simp [← hg]
    · simp [← hg]
    · simp [← hg]
      omega
    · simp [← hg]
      omega
  refine h.resting (t := t) (by simp [hs]) (by simp [hs]) hc ?_ rfl rfl ?_ ?_ ?_ ?_ rfl rfl ?_
  · intro u hu
    simp [hu]
  · simp [hself]
  · simp [Sched.live, hs]
  · simp [hself]
  · simp [suspended, hself]
  · exact fun k u hu => by simpa using hu

theorem Fit.joinThread (h : Fine W a) (t : Addr) : Fine W (a.joinThread t) := by
  unfold Sched.joinThread
  split
  · rename_i hs
    have hsh := h.shape
    have hidle : (a.tcb t).home = none := Tcb.home_idle (by simp [hs.2]) (by simp [hs.2])
    refine h.resting (t := t) (by simp [hs.2]) (by simp [hs.2])
      ((hsh.core.exempt hidle).leaveActive (by simp)) ?_ rfl rfl ?_ ?_ ?_ ?_ rfl rfl ?_
    · intro u hu
      simp [hu]
    · simp
    · simp [Sched.live, hs.2]
    · simp
    · simp [Sched.live]
    · exact fun k u hu => by simpa using hu
  · exact h

theorem Fit.modQ (h : Fine W a) (k : Nat) (g : MsgQueue → MsgQueue) : Fine W (a.modQ k g) := by
  have hs := h.shape
  exact ⟨⟨hs.core.modQ k g, hs.nodup, hs.owned, hs.addr, hs.live, hs.pending, hs.names, hs.held⟩,
    h.waits, h.exact, h.hint⟩

theorem Fit.blockIf (h : Fine W a) {flags : Nat} (hr : OSThread.blocks flags → a.CurrentRuns) (hq : q.isWait)
    (hm : ∀ m, q ≠ .mutex m) (h0 : W → a.CurrentRuns → (a.tcb a.currentThread).mutex = 0) :
    Fine W (a.blockIf flags q) := by
  unfold Sched.blockIf
  split
  · rename_i hb
    exact h.sleepThread (by simp) (hr hb) hq hm fun hw => h0 hw (hr hb)
  · exact h

theorem Fit.wakeup (h : Fine W a) (hq : q.isWait) (hm : ∀ m, q ≠ .mutex m) :
    Fine W (a.wakeupThread q) := h.wakeupThread (by simp) hq (fun m he => absurd he (hm m))

theorem Fit.sendMessage (h : Fine W a) {flags : Nat} (hr : OSThread.blocks flags → a.CurrentRuns)
    (h0 : W → a.CurrentRuns → (a.tcb a.currentThread).mutex = 0) (k msg : Nat) :
    Fine W (a.sendMessage k msg flags) := by
  unfold Sched.sendMessage
  simp only
  split
  · exact h.blockIf hr (by exact trivial) (by simp) h0
  · exact (h.modQ k _).wakeup trivial (by simp)

theorem Fit.receiveMessage (h : Fine W a) {flags : Nat} (hr : OSThread.blocks flags → a.CurrentRuns)
    (h0 : W → a.CurrentRuns → (a.tcb a.currentThread).mutex = 0) (k : Nat) :
    Fine W (a.receiveMessage k flags) := by
  unfold Sched.receiveMessage
  simp only
  split
  · exact h.blockIf hr (by exact trivial) (by simp) h0
  · exact (h.modQ k _).wakeup trivial (by simp)

theorem Fit.jamMessage (h : Fine W a) {flags : Nat} (hr : OSThread.blocks flags → a.CurrentRuns)
    (h0 : W → a.CurrentRuns → (a.tcb a.currentThread).mutex = 0) (k msg : Nat) :
    Fine W (a.jamMessage k msg flags) := by
  unfold Sched.jamMessage
  simp only
  split
  · exact h.blockIf hr (by exact trivial) (by simp) h0
  · exact (h.modQ k _).wakeup trivial (by simp)

theorem Shape.changeScheduler (h : Shape X D H a) {d : Int} (hb : a.changeScheduler d = .ok b) :
    Shape X D H b := by
  obtain ⟨count, _, hb⟩ := bind_eq_ok.mp hb
  cases hb
  have hc := h.core
  exact ⟨⟨hc.bounded, hc.placed, hc.mem, hc.nodup, hc.active, hc.running, hc.slot, hc.current, hc.bits,
    hc.sorted⟩, h.nodup, h.owned, h.addr, h.live, h.pending, h.names, h.held⟩

theorem Fit.changeScheduler (h : Fit W V X D H E a) {d : Int} (hb : a.changeScheduler d = .ok b) :
    Fit W V X D H E b := by
  have hs := h.shape.changeScheduler hb
  obtain ⟨count, _, hb⟩ := bind_eq_ok.mp hb
  cases hb
  exact ⟨hs, h.waits, h.exact, h.hint⟩

theorem Fit.initMutex (h : Fine W a) (h0 : (a.mtx m).thread = 0) : Fine W (a.initMutex m) := by
  unfold Sched.initMutex
  rw [setQueue_self (h.shape.queue_free (by simp) h0)]
  exact h.modM (by simp [h0])

theorem Fit.initMessageQueue (h : Fine W a) {k : Nat} (hs : a.queue (.msgSend k) = [])
    (hr : a.queue (.msgRecv k) = []) (c : Nat) : Fine W (a.initMessageQueue k c) := by
  unfold Sched.initMessageQueue
  rw [setQueue_self hs, setQueue_self hr]
  exact h.modQ k _

theorem CurrentRuns.changeScheduler (hr : a.CurrentRuns) {d : Int}
    (hb : a.changeScheduler d = .ok b) : b.CurrentRuns := by
  obtain ⟨c, _, hb⟩ := bind_eq_ok.mp hb
  cases hb
  exact hr

theorem release_current (a : Sched) (t m : Addr) :
    (a.release t m).currentThread = a.currentThread := by
  unfold Sched.release Sched.dropBoost
  split <;> rfl

/-- A condition wait up to the moment the caller goes to sleep: scheduling is disabled
in `d` and enabled again in `e`, and the caller runs throughout. -/
theorem Shape.waitStages (h : Sound a) (hr : a.CurrentRuns) (hown : (a.mtx m).thread = a.currentThread)
    {d e : Sched} (hd : (a.release a.currentThread m).changeScheduler 1 = .ok d)
    (he : (d.wakeupThread (.mutex m)).changeScheduler (-1) = .ok e) :
    (Shape ∅ ∅ (insert m ∅) d ∧ d.CurrentRuns) ∧ Sound (d.wakeupThread (.mutex m)) ∧
      Sound e ∧ e.CurrentRuns := by
  obtain ⟨hrel, hrr⟩ := h.release (by simp) hr hown
  have hsd : Shape ∅ ∅ (insert m ∅) d := hrel.changeScheduler hd
  have hrd := hrr.changeScheduler hd
  have hsw : Sound (d.wakeupThread (.mutex m)) := hsd.wakeupMutex (by simp)
  have hrw := hsd.core.currentRuns_wakeupThread (by simp) (QueueAddr.mutex_isWait m) hrd
  exact ⟨⟨hsd, hrd⟩, hsw, hsw.changeScheduler he, hrw.changeScheduler he⟩

/-- A condition wait keeps the shape: the caller names the mutex it has released
while it sleeps on the condition. -/
theorem Shape.waitCond (h : Sound a) (hr : a.CurrentRuns) (hm : MutexAddr m) {c : Nat}
    (hb : a.waitCond c m = .ok b) : Sound b := by
  unfold Sched.waitCond at hb
  split at hb
  · cases hb
    exact h
  rename_i hown
  have hown : (a.mtx m).thread = a.currentThread := by simpa using hown
  obtain ⟨d, hd, hb⟩ := bind_eq_ok.mp hb
  obtain ⟨e, he, hb⟩ := bind_eq_ok.mp hb
  cases hb
  obtain ⟨⟨hsd, hrd⟩, hsw, hse, hre⟩ := h.waitStages hr hown hd he
  have hw := hsd.core.wakeupThread (by simp) (QueueAddr.mutex_isWait m)
  have hdt : d.currentThread = a.currentThread := by
    obtain ⟨count, _, hd⟩ := bind_eq_ok.mp hd
    cases hd
    exact release_current a _ m
  have heq : e.queue = (d.wakeupThread (.mutex m)).queue := by
    obtain ⟨count, _, he⟩ := bind_eq_ok.mp he
    cases he
    rfl
  have hen := hse.enqueueCurrent (q := .cond c) (by simp) hre trivial (by simp)
  have hsl := hse.sleepThread (q := .cond c) (by simp) hre trivial (by simp)
  have hmv := (hen.core.osReschedule (q := .null) (by simp)).2
  -- the caller was running when it called, so it is in the queue of no mutex now
  have hout : ∀ k, a.currentThread ∉ (e.sleepThread (.cond c)).queue (.mutex k) := by
    intro k hk
    have h₁ := hmv.mem_of_mem hen.core hsl.core (QueueAddr.mutex_isWait k) hk
    have h₂ : a.currentThread ∈ e.queue (.mutex k) := by
      simpa [Sched.enqueueCurrent] using h₁
    rw [heq] at h₂
    have h₃ := hw.2.1.mem_of_mem hsd.core hsw.core (QueueAddr.mutex_isWait k) h₂
    rw [← hdt] at h₃
    exact hrd.not_mem_wait hsd.core (QueueAddr.mutex_isWait k) h₃
  have hbd := hsl.core.bounded a.currentThread
  apply hsl.congr (hsl.core.modWords (t := a.currentThread)
    ⟨rfl, rfl, rfl, rfl, hbd.suspend, Iff.rfl⟩) rfl (fun _ => rfl)
  · intro u hl
    by_cases hu : u = a.currentThread
    · subst hu
      simpa [Sched.live] using hl
    · simpa [Sched.live, hu] using hl
  · intro u
    by_cases hu : u = a.currentThread
    · subst hu
      simpa using fun _ => hm
    · simpa [hu] using hsl.pending u
  · intro k u hu
    have hne : u ≠ a.currentThread := by
      intro he
      subst he
      exact hout k hu
    exact ⟨hu, by simp [hne]⟩

theorem Fit.waitCond (h : Fine W a) (hr : a.CurrentRuns) (hm : MutexAddr m) {c : Nat}
    (hW : W → (a.mtx m).thread ≠ a.currentThread) (hb : a.waitCond c m = .ok b) : Fine W b := by
  by_cases hw : W
  · rw [Sched.waitCond, if_pos (hW hw)] at hb
    cases hb
    exact h
  · exact ⟨h.shape.waitCond hr hm hb, fun h => absurd h hw, fun h => absurd h hw, fun h => absurd h hw⟩

theorem Fit.restoreCount (h : Fine W a) (t m : Addr) (saved : Nat) :
    Fine W (a.restoreCount t m saved) := by
  unfold Sched.restoreCount
  split
  · have h₁ : Fine W (a.modM m ({ · with count := toS32 saved })) := h.modM rfl
    apply h₁.modWords
    · exact ⟨rfl, rfl, rfl, rfl, (h.shape.core.bounded t).suspend, Iff.rfl⟩
    · exact h.shape.pending t
    · exact fun _ => rfl
  · exact h

theorem pendingLock_eq {p : Addr × Addr} (h : a.pendingLock = some p) :
    a.CurrentRuns ∧ p.1 = a.currentThread ∧ p.2 = (a.tcb a.currentThread).mutex ∧ p.2 ≠ 0 := by
  simp only [Sched.pendingLock] at h
  split at h
  · cases h
  · rename_i hn
    simp only [not_or, not_not] at hn
    cases h
    exact ⟨⟨hn.1, hn.2.2⟩, rfl, rfl, hn.2.1⟩

/-- The running thread no longer names a mutex. -/
theorem Fit.clearPending (h : Fine W a) (hr : a.CurrentRuns) :
    Fine W (a.modT a.currentThread ({ · with mutex := 0 })) := by
  apply h.modWords
  · exact ⟨rfl, rfl, rfl, rfl, (h.shape.core.bounded _).suspend, Iff.rfl⟩
  · simp
  · simp [hr.2]

theorem Fit.retryLock (h : Fine W a) {p : Addr × Addr} (hp : a.pendingLock = some p)
    (hb : a.retryLock n p.1 p.2 = .ok b) : Fine W b := by
  obtain ⟨hr, h₁, h₂, h₃⟩ := pendingLock_eq hp
  obtain ⟨c, hc, hb⟩ := bind_eq_ok.mp hb
  cases hb
  rw [h₁] at hc
  have hf := h.clearPending hr
  have hm : MutexAddr p.2 := by
    rw [h₂] at h₃ ⊢
    exact h.shape.pending _ h₃
  exact (hf.lockMutex ⟨hr.1, by simp [hr.2]⟩ hm hc).restoreCount _ _ _

theorem Fit.processPendingLocks (h : Fine W a) {k : Nat}
    (hb : Sched.processPendingLocks n k a = .ok b) : Fine W b ∧ b.pendingLock = none := by
  induction k generalizing a with
  | zero => cases hb
  | succ k ih =>
    simp only [Sched.processPendingLocks] at hb
    split at hb
    · rename_i hp
      cases hb
      exact ⟨h, hp⟩
    · rename_i p hp
      obtain ⟨c, hc, hb⟩ := bind_eq_ok.mp hb
      exact ih (h.retryLock hp hc) hb

end SdkPort.OSThread.Sched
