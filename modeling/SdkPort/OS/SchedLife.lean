import SdkPort.OS.SchedLock

/-!
# Suspending, resuming and ending threads

Most operations on a thread change the words of that thread alone and move it
between queues; what they owe to the other threads is that whoever it blocked is
re-evaluated.
-/
namespace SdkPort.OSThread.Sched

open Inherit (demands Settled)
open Runs (bind_eq_ok)

variable {W V : Prop} {X D H E : Set Addr} {a b : Sched} {t u w m : Addr} {q : QueueAddr} {n : Nat}

theorem checkS32_eq {v w : Int} (h : checkS32 v = .ok w) : w = v := by
  unfold checkS32 at h
  split at h
  · cases h
    rfl
  · cases h

theorem CurrentRuns.ne (hr : a.CurrentRuns) (hs : (a.tcb t).state ≠ .running) :
    a.currentThread ≠ t := by
  intro he
  rw [← he] at hs
  exact hs hr.2

theorem Hinted.of_hint (h : a.runQueueHint = true) : Hinted H a := by
  intro hf
  rw [h] at hf
  cases hf

/-- Losing runnable threads does no harm to the one that runs. -/
theorem Hinted.shrink (h : Hinted ∅ a) (hh : b.runQueueHint = a.runQueueHint)
    (hcur : b.currentThread = a.currentThread)
    (hrun : a.runQueueHint = false → a.CurrentRuns →
      b.tcb a.currentThread = a.tcb a.currentThread)
    (hq : ∀ p u, u ∈ b.queue (.runQueue p) → u ∈ a.queue (.runQueue p)) : Hinted ∅ b := by
  intro hf
  rw [hh] at hf
  left
  obtain ⟨hr, hbest⟩ := (h hf).resolve_right (by simp)
  have htcb := hrun hf hr
  refine ⟨?_, ?_⟩
  · rw [CurrentRuns, hcur, htcb]
    exact hr
  · intro p u hu
    simp only [Sched.prio, hcur, htcb]
    exact hbest p u (hq p u hu)

theorem mem_of_unsetRun (h : u ∈ (a.unsetRun t).queue q) : u ∈ a.queue q := by
  simp only [unsetRun_queue, Function.update_apply] at h
  split at h
  · rename_i he
    rw [he]
    exact List.mem_of_mem_erase h
  · exact h

/-- What is demanded of a thread does not depend on its own words but the base. -/
theorem Shape.demands_self (h : Shape X D ∅ a) (hbase : b.base t = a.base t)
    (hprio : ∀ w, w ≠ t → b.prio w = a.prio w)
    (hblk : ∀ w, w ≠ t → (b.blocks w t ↔ a.blocks w t)) (hself : b.blocks t t → a.blocks t t) :
    demands b.blocks b.base b.prio t = demands a.blocks a.base a.prio t := by
  have hne : ∀ w, a.blocks w t → w ≠ t := by
    intro w hw he
    subst he
    exact h.not_blocks_self hw
  apply Inherit.demands_congr hbase
  · intro w
    by_cases he : w = t
    · subst he
      exact ⟨hself, fun hb => absurd hb h.not_blocks_self⟩
    · exact hblk w he
  · exact fun w hw => hprio w (hne w hw)

/-- A thread that does not wait blocks nobody. -/
theorem Shape.not_blocks (h : Shape X D H a) (hs : (a.tcb t).state ≠ .waiting) (u : Addr) :
    ¬ a.blocks t u := fun hb => hs (h.of_blocks hb).2.1

/-- One thread changes, and at most leaves the queue of a mutex. -/
structure Alone (X X' : Set Addr) (t : Addr) (a b : Sched) : Prop where
  other : ∀ u, u ≠ t → b.tcb u = a.tcb u
  owned : b.owned = a.owned
  mtx : b.mtx = a.mtx
  exempt : ∀ u, u ≠ t → (u ∈ X' ↔ u ∈ X)
  wait : t ∉ X' → (b.tcb t).state = .waiting → t ∉ X ∧ (a.tcb t).state = .waiting ∧
    (b.tcb t).queue = (a.tcb t).queue ∧ (b.tcb t).mutex = (a.tcb t).mutex

section Alone

variable {X' D' E' : Set Addr} {k v : Addr}

theorem Alone.mem_mutex (h : Alone X X' t a b) (ha : Core X a) (hb : Core X' b) (hu : u ≠ t) :
    u ∈ b.queue (.mutex k) ↔ u ∈ a.queue (.mutex k) := by
  rw [hb.mem_wait (QueueAddr.mutex_isWait k), ha.mem_wait (QueueAddr.mutex_isWait k), h.other u hu,
    h.exempt u hu]

theorem Alone.of_mem (h : Alone X X' t a b) (ha : Core X a) (hb : Core X' b) (hu : u ∈ b.queue (.mutex k)) :
    u ∈ a.queue (.mutex k) ∧ (b.tcb u).mutex = (a.tcb u).mutex := by
  by_cases he : u = t
  · subst he
    obtain ⟨hX, hst, hq⟩ := (hb.mem_wait (QueueAddr.mutex_isWait k)).mp hu
    obtain ⟨hX', hst', hq', hm⟩ := h.wait hX hst
    exact ⟨(ha.mem_wait (QueueAddr.mutex_isWait k)).mpr ⟨hX', hst', hq' ▸ hq⟩, hm⟩
  · exact ⟨(h.mem_mutex ha hb he).mp hu, by rw [h.other u he]⟩

theorem Alone.blocks_iff (h : Alone X X' t a b) (ha : Core X a) (hb : Core X' b) (hv : v ≠ t) (u : Addr) :
    b.blocks v u ↔ a.blocks v u := by
  simp only [Sched.blocks, h.owned, h.mem_mutex ha hb hv]

theorem Alone.of_blocks (h : Alone X X' t a b) (ha : Core X a) (hb : Core X' b) (hv : b.blocks v u) :
    a.blocks v u := by
  obtain ⟨k, hk, hv⟩ := hv
  exact ⟨k, by rwa [← h.owned], (h.of_mem ha hb hv).1⟩

theorem Alone.shape (h : Alone X X' t a b) (hs : Shape X D ∅ a) (hc : Core X' b) (hD : D ⊆ D')
    (hlive : a.live t → b.live t ∨ t ∈ D') (hmut : (b.tcb t).mutex ≠ 0 → (b.tcb t).mutex = (a.tcb t).mutex) :
    Shape X' D' ∅ b := by
  refine ⟨hc, ?_, ?_, ?_, ?_, ?_, ?_, ?_⟩
  · rw [h.owned]
    exact hs.nodup
  · rw [h.owned, h.mtx]
    exact hs.owned
  · rw [h.mtx]
    exact hs.addr
  · intro k hk
    rw [h.mtx] at hk ⊢
    rcases hs.live k hk with hl | hd
    · by_cases he : (a.mtx k).thread = t
      · rw [he] at hl ⊢
        exact hlive hl
      · left
        rwa [Sched.live, h.other _ he]
    · exact .inr (hD hd)
  · intro u hu
    by_cases he : u = t
    · subst he
      have hsame := hmut hu
      rw [hsame] at hu ⊢
      exact hs.pending u hu
    · rw [h.other u he] at hu ⊢
      exact hs.pending u hu
  · intro k u hu
    obtain ⟨hu', hm'⟩ := h.of_mem hs.core hc hu
    rw [hm']
    exact hs.names k u hu'
  · intro k u hk hu
    rw [h.mtx]
    exact hs.held k u hk (h.of_mem hs.core hc hu).1

theorem Alone.waits (h : Alone X X' t a b) (hw : Waits X a) : Waits X' b := by
  intro u hX hst h0
  by_cases he : u = t
  · subst he
    obtain ⟨hX', hst', hq', hm'⟩ := h.wait hX hst
    rw [hm'] at h0 ⊢
    rw [hq']
    exact hw u hX' hst' h0
  · rw [h.other u he] at hst h0 ⊢
    exact hw u (fun hx => hX ((h.exempt u he).mpr hx)) hst h0

theorem Alone.exact (h : Alone X X' t a b) (hs : Shape X D ∅ a) (hc : Core X' b) (hx : Exact E a)
    (hE : ∀ u, u ≠ t → u ∉ E' → u ∉ E ∧ ¬ a.blocks t u)
    (hset : t ∉ E' → b.live t → ¬ b.suspended t → b.base t = a.base t ∧
      IsLeast (demands a.blocks a.base a.prio t) (b.prio t)) : Exact E' b := by
  intro u hu hl hn
  have hprio : ∀ v, v ≠ t → b.prio v = a.prio v := by
    intro v hv
    simp only [Sched.prio, h.other v hv]
  by_cases he : u = t
  · subst he
    obtain ⟨hbase, hleast⟩ := hset hu hl hn
    rw [Settled, hs.demands_self hbase hprio (fun w hw => h.blocks_iff hs.core hc hw u)
      (h.of_blocks hs.core hc)]
    exact hleast
  · obtain ⟨hEu, hnb⟩ := hE u he hu
    rw [Sched.live, h.other u he] at hl
    rw [suspended, h.other u he] at hn
    apply (hx u hEu hl hn).congr
    · simp only [Sched.base, h.other u he]
    · exact hprio u he
    · intro v
      by_cases hv : v = t
      · subst hv
        exact ⟨fun hb => absurd (h.of_blocks hs.core hc hb) hnb, fun hb => absurd hb hnb⟩
      · exact h.blocks_iff hs.core hc hv u
    · intro v hv
      apply hprio
      intro hvt
      subst hvt
      exact hnb hv

theorem Fit.one (h : Fit W V X D ∅ E a) (ho : Alone X X' t a b) (hc : Core X' b) (hD : D ⊆ D')
    (hlive : a.live t → b.live t ∨ t ∈ D') (hmut : (b.tcb t).mutex ≠ 0 → (b.tcb t).mutex = (a.tcb t).mutex)
    (hE : ∀ u, u ≠ t → u ∉ E' → u ∉ E ∧ ¬ a.blocks t u)
    (hset : W → t ∉ E' → b.live t → ¬ b.suspended t → b.base t = a.base t ∧
      IsLeast (demands a.blocks a.base a.prio t) (b.prio t)) (hh : V → Hinted ∅ b) : Fit W V X' D' ∅ E' b :=
  ⟨ho.shape h.shape hc hD hlive hmut, fun hw => ho.waits (h.waits hw),
    fun hw => ho.exact h.shape hc (h.exact hw) hE (hset hw), hh⟩

/-- A thread that neither runs nor waits changes, and ends up dead or suspended. -/
theorem Fit.resting (h : Fine W a) (hr : (a.tcb t).state ≠ .running) (hs : (a.tcb t).state ≠ .waiting)
    (hc : Core ∅ b) (hother : ∀ u, u ≠ t → b.tcb u = a.tcb u) (ho : b.owned = a.owned) (hm : b.mtx = a.mtx)
    (hs' : (b.tcb t).state ≠ .waiting) (hlive : a.live t → b.live t)
    (hmut : (b.tcb t).mutex ≠ 0 → (b.tcb t).mutex = (a.tcb t).mutex)
    (hdown : b.live t → b.suspended t) (hhint : b.runQueueHint = a.runQueueHint)
    (hcur : b.currentThread = a.currentThread)
    (hq : ∀ p u, u ∈ b.queue (.runQueue p) → u ∈ a.queue (.runQueue p)) : Fine W b := by
  apply h.one ⟨hother, ho, hm, fun _ _ => Iff.rfl, fun _ hw => absurd hw hs'⟩ hc (fun _ => id)
    (fun hl => .inl (hlive hl)) hmut
  · exact fun u _ _ => ⟨Set.notMem_empty u, h.shape.not_blocks hs u⟩
  · exact fun _ _ hl hn => absurd (hdown hl) hn
  · exact fun hw => (h.hint hw).shrink hhint hcur (fun _ hx => hother _ (hx.ne hr)) hq

end Alone

theorem Hinted.reprio (h : Hinted H a) (ha : Core X a) (hb : Core X b) (hr : Reprio a b) :
    Hinted H b := by
  intro hf
  have hstill := hr.still hf
  rcases h (hr.hint hf) with ⟨hrun, hbest⟩ | ⟨m, hm, u, hu, hn⟩
  · left
    have htcb := hstill a.currentThread (by simp [hrun.2])
    refine ⟨?_, ?_⟩
    · rw [CurrentRuns, hr.current, htcb]
      exact hrun
    · intro p u hu
      simp only [Sched.prio, hr.current, htcb]
      apply hbest p u
      obtain ⟨hX, hh⟩ := (hb.mem _ (by simp) u).mp hu
      have hst := (hb.of_mem_run hu).2.1
      rw [hr.state] at hst
      rw [hstill u (by simp [hst])] at hh
      exact (ha.mem _ (by simp) u).mpr ⟨hX, hh⟩
  · right
    exact ⟨m, hm, u, (hr.mem_wait ha hb (QueueAddr.mutex_isWait m)).mpr hu,
      fun hx => hn ((hr.not_suspended u).mp hx)⟩

/-- The wave that starts at the thread `t` blocks. -/
theorem Fit.updateOwner (h : Fit W V X D ∅ (insert (a.nextOwner t) E) a) (hX : Adrift X a)
    (hb : a.updateOwner n t = .ok b) : Fit W V X D ∅ E b := by
  have hcore := h.shape.core.updateOwner hX hb
  refine ⟨h.shape.reprio hcore.1 hcore.2, fun hw => (h.waits hw).reprio hcore.2, ?_,
    fun hv => (h.hint hv).reprio h.shape.core hcore.1 hcore.2⟩
  intro hw
  unfold Sched.updateOwner at hb
  split at hb
  · cases hb
    rename_i hz
    intro u hu hl hn
    apply h.exact hw u _ hl hn
    intro hx
    rcases hx with rfl | hx
    · have hslot := h.shape.core.slot _ hl.1
      simp [Sched.nextOwner, hz, Slot] at hslot
    · exact hu hx
  · rename_i hz
    have he := h.exact hw
    simp only [Sched.nextOwner, if_neg hz] at he
    exact he.updatePriority h.shape hX (h.waits hw) hb

theorem Core.park (h : Core ∅ a) (hs : (a.tcb t).state = .waiting) {g : Tcb → Tcb}
    (hg : g (a.tcb t) = { a.tcb t with suspend := 1, priority := 32 }) :
    Core ∅ (((a.removeItem (a.tcb t).queue t).modT t g).addTail (a.tcb t).queue t) := by
  have hpl := h.placed t (by simp)
  have hbd := h.bounded t
  have hm := (h.takeWait (by simp) hs).modT (g := g) (Set.mem_insert t ∅)
    (by
      simp only [removeItem_tcb, hg]
      exact ⟨hbd.base, by simp, by simp⟩) (by simp [hg, hs])
  have htcb : ((a.removeItem (a.tcb t).queue t).modT t g).tcb t =
      { a.tcb t with suspend := 1, priority := 32 } := by simp [hg]
  have := hm.addTail (by simp) (by simp [htcb, hs]) (by
    rw [htcb]
    constructor <;> simp_all [hpl.waiting hs]) (by simp [htcb])
  rwa [htcb] at this

/-- Waiting threads whose words change without leaving the queue. -/
theorem Fit.stay (h : Fine W a) (hs : (a.tcb t).state = .waiting) {g : Tcb → Tcb}
    (hc : Core ∅ b) (htcb : b.tcb = Function.update a.tcb t (g (a.tcb t))) (ho : b.owned = a.owned)
    (hm : b.mtx = a.mtx) (hg : (g (a.tcb t)).state = .waiting ∧
      (g (a.tcb t)).queue = (a.tcb t).queue ∧ (g (a.tcb t)).mutex = (a.tcb t).mutex)
    (hset : W → ¬ b.suspended t →
      IsLeast (demands a.blocks a.base a.prio t) (b.prio t))
    (hbase : b.base t = a.base t) (hh : W → Hinted ∅ b) : Fit W W ∅ ∅ ∅ (insert (b.nextOwner t) ∅) b := by
  have hself : b.tcb t = g (a.tcb t) := by simp [htcb]
  have hnext : b.nextOwner t = a.nextOwner t := by simp [Sched.nextOwner, hself, hg.2.2, hm]
  have hone : Alone ∅ ∅ t a b := by
    refine ⟨?_, ho, hm, fun _ _ => Iff.rfl, ?_⟩
    · intro u hu
      simp [htcb, hu]
    · intro _ _
      rw [hself]
      exact ⟨by simp, hs, hg.2.1, hg.2.2⟩
  refine h.one hone hc (fun _ => id) ?_ ?_ ?_ (fun hw _ _ hn => ⟨hbase, hset hw hn⟩) hh
  · intro _
    left
    simp [Sched.live, hself, hg.1]
  · intro _
    rw [hself, hg.2.2]
  · intro u _ hu
    refine ⟨by simp, ?_⟩
    intro hb
    obtain ⟨_, _, _, hn, _⟩ := h.shape.of_blocks hb
    apply hu
    left
    rw [hnext, hn]

/-- A suspended waiter at the end of its queue; the thread it blocks is still to be
re-evaluated. -/
theorem Fit.parked (h : Fine W a) (hs : (a.tcb t).state = .waiting) :
    Fit W W ∅ ∅ ∅ (insert (((a.modT t ({ · with suspend := 1 })).park t).nextOwner t) ∅)
      ((a.modT t ({ · with suspend := 1 })).park t) := by
  have hc := h.shape.core.park hs (g := ({ · with suspend := 1, priority := 32 })) rfl
  have heq : (a.modT t ({ · with suspend := 1 })).park t =
      ((a.removeItem (a.tcb t).queue t).modT t ({ · with suspend := 1, priority := 32 })).addTail
        (a.tcb t).queue t := by
    simp [Sched.park, modT, removeItem, setQueue, addTail]
  rw [heq]
  refine h.stay hs (g := ({ · with suspend := 1, priority := 32 })) hc
    (by simp) rfl rfl ⟨hs, rfl, rfl⟩ ?_ (by simp [Sched.base]) ?_
  · simp [suspended]
  · intro hw
    have hw' := (h.shape.core.placed t (by simp)).waiting hs
    refine (h.hint hw).shrink (by rfl) (by rfl) ?_ ?_
    · intro _ hr
      simp [hr.ne (t := t) (by simp [hs])]
    · intro p u hu
      simpa [(hw'.ne_run p).symm] using hu

theorem Fit.suspendRequeue (h : Fine W a) (h0 : (a.tcb t).suspend = 0)
    (hb : (a.modT t ({ · with suspend := 1 })).suspendRequeue n t = .ok b) : Fine W b := by
  have hsh := h.shape
  have hpl := hsh.core.placed t (by simp)
  have hbd := hsh.core.bounded t
  unfold Sched.suspendRequeue at hb
  simp only [modT_tcb, Function.update_self] at hb
  split at hb
  case h_1 hs =>
    cases hb
    have hidle : (a.tcb t).home = none := Tcb.home_idle (by simp [hs]) (by simp [hs])
    refine h.one (t := t) ⟨?_, rfl, rfl, fun _ _ => Iff.rfl, by simp⟩ ?_ (fun _ => id) ?_ ?_ ?_ ?_ ?_
    · intro u hu
      simp [hu]
    · have hc := (hsh.core.modIdle (t := t) (g := ({ · with state := .ready, suspend := 1 }))
        (by simp) hidle (Tcb.home_suspended rfl (by simp)) ⟨hbd.base, hbd.priority, by simp⟩
        (by constructor <;> simp) (by simp [hs]) (by simp)).setHint true
      simpa [modT, setHint] using hc
    · simp [Sched.live]
    · simp
    · exact fun u _ _ => ⟨by simp, hsh.not_blocks (by simp [hs]) u⟩
    · simp [suspended]
    · exact fun _ => Hinted.of_hint rfl
  case h_2 hs =>
    cases hb
    have heq : (a.modT t ({ · with suspend := 1 })).unsetRun t =
        (a.unsetRun t).modT t ({ · with suspend := 1 }) := by
      simp [Sched.unsetRun, modT, Sched.prio, removeItem, clearBit, setQueue, setBits]
    rw [heq]
    have hc := (hsh.core.unsetRun (by simp) hs h0).modT (g := ({ · with suspend := 1 }))
      (Set.mem_insert t ∅) ⟨by simpa using hbd.base, by simpa using hbd.priority, by simp⟩ (by simp)
    have hcore := hc.putBack (by simp) (Tcb.home_suspended (by simp [hs]) (by simp))
      (by constructor <;> simp [hs]) (by simp [hs])
    refine h.resting (t := t) (by simp [hs]) (by simp [hs]) hcore ?_ rfl rfl ?_ ?_ ?_ ?_ rfl rfl ?_
    · intro u hu
      simp [hu]
    · simp [hs]
    · simp [Sched.live, hs]
    · simp
    · simp [suspended]
    · exact fun p u hu => mem_of_unsetRun (by simpa using hu)
  case h_3 hs =>
    exact (h.parked hs).updateOwner (fun _ hx => hx.elim) hb
  case h_4 h₁ h₂ h₃ =>
    cases hb
    have hdead : (a.tcb t).state = .unused ∨ (a.tcb t).state = .moribund := by
      cases hs : (a.tcb t).state <;> simp_all
    have hidle : (a.tcb t).home = none := Tcb.home_idle h₂ h₃
    refine h.resting (t := t) h₁ h₃ ?_ ?_ rfl rfl ?_ ?_ ?_ ?_ rfl rfl (fun _ _ hu => hu)
    · apply hsh.core.modIdle (by simp) hidle
      · exact Tcb.home_idle h₂ h₃
      · exact ⟨hbd.base, hbd.priority, by simp⟩
      · constructor <;> simp_all
      · exact Iff.rfl
      · exact fun hr => absurd hr h₁
    · intro u hu
      simp [hu]
    · simpa using h₃
    · simp [Sched.live]
    · simp
    · simp [suspended]

theorem Fit.suspendThread (h : Fine W a) (hb : a.suspendThread n t = .ok b) : Fine W b := by
  obtain ⟨inc, hinc, hb⟩ := bind_eq_ok.mp hb
  have hi := checkS32_eq hinc
  subst hi
  have h0 := (h.shape.core.bounded t).suspend
  split at hb
  · rename_i hz
    obtain ⟨c, hc, hb⟩ := bind_eq_ok.mp hb
    cases hb
    rw [hz] at hc
    exact (h.suspendRequeue hz hc).osReschedule (by simp)
  · cases hb
    apply h.modWords
    · constructor <;> simp <;> omega
    · exact h.shape.pending t
    · exact fun _ => rfl

/-- The priority a waiting thread gets back is the best demand on it, whether or not
it is counted among those waiting. -/
theorem Shape.refresh_isLeast (h : Shape ∅ D ∅ a) (hs : (a.tcb t).state = .waiting) {g : Tcb → Tcb}
    (hb : (g (a.tcb t)).Bounded) (hg : (g (a.tcb t)).state = .waiting)
    (hbase : (g (a.tcb t)).base = (a.tcb t).base) :
    IsLeast (demands a.blocks a.base a.prio t)
      (((a.removeItem (a.tcb t).queue t).modT t g).effectivePriority t) := by
  have hc := (h.core.takeWait (by simp) hs).modT (g := g) (Set.mem_insert t ∅) hb (by simp [hs, hg])
  have hl := hc.effectivePriority_isLeast t
  have hmem : ∀ k w, w ≠ t → (w ∈ ((a.removeItem (a.tcb t).queue t).modT t g).queue (.mutex k) ↔
      w ∈ a.queue (.mutex k)) := by
    intro k w hne
    by_cases hq : QueueAddr.mutex k = (a.tcb t).queue
    · simp only [modT_queue, removeItem_queue, hq, Function.update_self]
      exact List.mem_erase_of_ne hne
    · simp [hq]
  rwa [h.demands_self (b := (a.removeItem (a.tcb t).queue t).modT t g)] at hl
  · simp [Sched.base, hbase]
  · intro w hne
    simp [Sched.prio, hne]
  · intro w hne
    simp only [Sched.blocks, hmem _ w hne]
    rfl
  · intro hb
    obtain ⟨k, _, hk⟩ := hb
    exact absurd hk (hc.not_mem (Set.mem_insert t ∅) (by simp))

/-- A resumed waiter sorted in again; the thread it blocks is still to be re-evaluated. -/
theorem Fit.refreshed (h : Fine W a) (hs : (a.tcb t).state = .waiting) :
    Fit W W ∅ ∅ ∅ (insert (((a.modT t ({ · with suspend := 0 })).refresh t).nextOwner t) ∅)
      ((a.modT t ({ · with suspend := 0 })).refresh t) := by
  have hsh := h.shape
  have hpl := hsh.core.placed t (by simp)
  have hbd := hsh.core.bounded t
  have hnr : (a.tcb t).state ≠ .running := by simp [hs]
  have hle := hsh.refresh_isLeast hs (g := ({ · with suspend := 0 }))
    ⟨hbd.base, hbd.priority, by simp⟩ hs rfl
  have heq : (a.modT t ({ · with suspend := 0 })).refresh t =
      ((a.removeItem (a.tcb t).queue t).modT t ({ · with
        suspend := 0
        priority := ((a.removeItem (a.tcb t).queue t).modT t
          ({ · with suspend := 0 })).effectivePriority t })).addPrio (a.tcb t).queue t := by
    simp [Sched.refresh, Sched.requeue, modT, removeItem, setQueue]
  rw [heq]
  generalize ((a.removeItem (a.tcb t).queue t).modT t
    ({ · with suspend := 0 })).effectivePriority t = e at hle
  have he : e ≤ 31 := (hle.2 Inherit.base_mem).trans hbd.base
  have hc := hsh.core.rewait (t := t) (by simp) hs (g := ({ · with suspend := 0, priority := e }))
    hs rfl ⟨hbd.base, by simp; omega, by simp⟩ (by constructor <;> simp_all [hpl.waiting hs])
  refine h.stay hs (g := ({ · with suspend := 0, priority := e })) hc
    (by simp) rfl rfl ⟨hs, rfl, rfl⟩ ?_ (by simp [Sched.base]) ?_
  · exact fun _ _ => by simpa [Sched.prio] using hle
  · intro hw
    have hw' := hpl.waiting hs
    refine (h.hint hw).shrink (by rfl) (by rfl) ?_ ?_
    · intro _ hr
      simp [hr.ne hnr]
    · intro p u hu
      simpa [(hw'.ne_run p).symm] using hu

theorem Fit.resumeRequeue (h : Fine W a) (h1 : (a.tcb t).suspend = 1)
    (hb : (a.modT t ({ · with suspend := 0 })).resumeRequeue n t = .ok b) : Fine W b := by
  have hsh := h.shape
  have hpl := hsh.core.placed t (by simp)
  have hbd := hsh.core.bounded t
  have hnr : (a.tcb t).state ≠ .running := by
    intro hs
    have := hpl.running hs
    omega
  unfold Sched.resumeRequeue at hb
  simp only [modT_tcb, Function.update_self] at hb
  split at hb
  case h_1 hs =>
    cases hb
    have hidle : (a.tcb t).home = none := Tcb.home_suspended hs (by omega)
    have hm := (hsh.core.exempt hidle).modT (g := ({ · with suspend := 0 })) (Set.mem_insert t ∅)
      ⟨hbd.base, hbd.priority, by simp⟩ Iff.rfl
    have hle := hm.effectivePriority_isLeast t
    have hp31 := hm.effectivePriority_le t
    have hm' := hm.modT (t := t) (g := ({ · with
      priority := (a.modT t ({ · with suspend := 0 })).effectivePriority t })) (Set.mem_insert t ∅)
      ⟨by simpa using hbd.base, by simp; omega, by simp⟩ (by simp)
    refine h.one (t := t) ⟨?_, rfl, rfl, fun _ _ => Iff.rfl, by simp [hs]⟩
      (hm'.setRun (by simp) (by simp [hs]) (by simp) (by simpa [Sched.prio] using hp31))
      (fun _ => id) ?_ ?_ ?_ ?_ ?_
    · intro u hu
      simp [hu]
    · simp [Sched.live, hs]
    · simp
    · exact fun u _ _ => ⟨by simp, hsh.not_blocks (by simp [hs]) u⟩
    · intro _ _ _ _
      refine ⟨by simp [Sched.base], ?_⟩
      rw [hsh.demands_self (b := a.modT t ({ · with suspend := 0 })) (by simp [Sched.base])
        (fun w hw => by simp [Sched.prio, hw]) (fun _ _ => Iff.rfl) id] at hle
      simpa [Sched.prio] using hle
    · exact fun _ => Hinted.of_hint rfl
  case h_2 hs =>
    exact (h.refreshed hs).updateOwner (fun _ hx => hx.elim) hb
  case h_3 h₁ h₂ =>
    cases hb
    refine h.resting (t := t) hnr h₂ ?_ ?_ rfl rfl ?_ ?_ ?_ ?_ rfl rfl (fun _ _ hu => hu)
    · apply hsh.core.modIdle (by simp) (Tcb.home_idle h₁ h₂) (Tcb.home_idle h₁ h₂)
      · exact ⟨hbd.base, hbd.priority, by simp⟩
      · constructor <;> simp_all
      · exact Iff.rfl
      · exact fun hr => absurd hr hnr
    · intro u hu
      simp [hu]
    · simpa using h₂
    · simp [Sched.live]
    · simp
    · intro hl
      simp [Sched.live] at hl
      cases hs : (a.tcb t).state <;> simp_all

theorem Fit.resumeThread (h : Fine W a) (hb : a.resumeThread n t = .ok b) : Fine W b := by
  obtain ⟨dec, hdec, hb⟩ := bind_eq_ok.mp hb
  have hd := checkS32_eq hdec
  subst hd
  have h0 := (h.shape.core.bounded t).suspend
  split at hb
  · cases hb
    apply h.modWords
    · constructor <;> simp
      omega
    · exact h.shape.pending t
    · exact fun _ => rfl
  split at hb
  · rename_i hz
    obtain ⟨c, hc, hb⟩ := bind_eq_ok.mp hb
    cases hb
    rw [hz] at hc
    exact (h.resumeRequeue (by omega) hc).osReschedule (by simp)
  · cases hb
    apply h.modWords
    · constructor <;> simp <;> omega
    · exact h.shape.pending t
    · exact fun _ => rfl

/-- A thread taken out of its queue, about to be buried. -/
structure Outcast (W : Prop) (t : Addr) (a : Sched) : Prop where
  fit : Fit W W (insert t ∅) ∅ ∅ (insert t ∅) a
  used : (a.tcb t).state ≠ .unused
  quiet : W → a.runQueueHint = false → a.currentThread ≠ t

/-- Nobody is demanded anything by a suspended waiter. -/
theorem Exact.drop_parked (h : Exact ∅ a) (hs : Shape ∅ D ∅ a) (hst : (a.tcb t).state = .waiting)
    (hsus : a.suspended t) (hother : ∀ u, u ≠ t → b.tcb u = a.tcb u)
    (hblk : ∀ w u, b.blocks w u ↔ a.blocks w u ∧ w ≠ t) : Exact (insert t ∅) b := by
  intro u hu hl hn
  have hut : u ≠ t := fun he => hu (.inl he)
  rw [Sched.live, hother u hut] at hl
  rw [suspended, hother u hut] at hn
  have h32 : a.prio t = 32 := (hs.core.placed t (by simp)).parked hst hsus
  have hb31 : a.base u ≤ 31 := (hs.core.bounded u).base
  have hpr : b.prio u = a.prio u := by simp only [Sched.prio, hother u hut]
  have hle : a.base u ≤ a.prio t := by omega
  rw [Settled, hpr]
  refine (Inherit.least_drop hle (fun v => hblk v u) ?_ ?_).mpr (h u (by simp) hl hn)
  · simp only [Sched.base, hother u hut]
  · intro v hv
    simp only [Sched.prio, hother v hv]

theorem alone_detach (a : Sched) (t : Addr) : Alone ∅ (insert t ∅) t a (a.detach t) := by
  refine ⟨?_, rfl, rfl, ?_, by simp⟩
  · intro u hu
    simp [detach, hu]
  · intro u hu
    simp [hu]

/-- A waiter taken out of its queue; the thread it blocked is still to be re-evaluated. -/
theorem Fit.detached (h : Fine W a) (hs : (a.tcb t).state = .waiting) :
    Fit W W (insert t ∅) ∅ ∅ (insert ((a.detach t).nextOwner t) (insert t ∅)) (a.detach t) ∧
      Adrift (insert t ∅) (a.detach t) := by
  have hsh := h.shape
  have hpl := hsh.core.placed t (by simp)
  have hbd := hsh.core.bounded t
  have hdc : Core (insert t ∅) (a.detach t) := (hsh.core.takeWait (by simp) hs).modT
    (Set.mem_insert t ∅) ⟨hbd.base, hbd.priority, hbd.suspend⟩ Iff.rfl
  have hself : ((a.detach t).tcb t).mutex = (a.tcb t).mutex := by simp [detach]
  have hnext : (a.detach t).nextOwner t = a.nextOwner t := by
    simp only [Sched.nextOwner, hself]
    rfl
  refine ⟨?_, ?_⟩
  · refine h.one (alone_detach a t) hdc (fun _ => id) ?_ ?_ ?_ (by simp) ?_
    · simp [detach, Sched.live, hs]
    · exact fun _ => hself
    · intro u _ hu
      refine ⟨by simp, ?_⟩
      intro hb
      obtain ⟨_, _, _, hn, _⟩ := hsh.of_blocks hb
      apply hu
      left
      rw [hnext, hn]
    · intro hw
      refine (h.hint hw).shrink (by rfl) (by rfl) ?_ ?_
      · intro _ hr
        exact (alone_detach a t).other _ (hr.ne (by simp [hs]))
      · intro p u hu
        simpa [detach, ((hpl.waiting hs).ne_run p).symm] using hu
  · intro u hu
    have he : u = t := by simpa using hu
    subst he
    simp [detach, hs]

theorem Fit.cancelUnlink (h : Fine W a) {r : Bool × Sched} (hr : a.cancelUnlink n t = .ok r) :
    (r.1 = true ∧ Outcast W t r.2) ∨ (r.1 = false ∧ r.2 = a) := by
  have hsh := h.shape
  have hpl := hsh.core.placed t (by simp)
  have hbd := hsh.core.bounded t
  have hsame : ∀ u, u ≠ t → (u ∈ insert t (∅ : Set Addr) ↔ u ∈ (∅ : Set Addr)) := by
    intro u hu
    simp [hu]
  have hquiet : (a.tcb t).state ≠ .running → W → a.runQueueHint = false → a.currentThread ≠ t := by
    intro hs hw hf
    exact ((h.hint hw hf).resolve_right (by simp)).1.ne hs
  unfold Sched.cancelUnlink at hr
  split at hr
  case h_1 hs =>
    cases hr
    left
    refine ⟨rfl, ?_⟩
    have hnb := hsh.not_blocks (t := t) (by simp [hs])
    by_cases hsus : a.suspended t
    · simp only [if_pos hsus]
      refine ⟨?_, by simp [hs], hquiet (by simp [hs])⟩
      exact h.one ⟨fun _ _ => rfl, rfl, rfl, hsame, by simp⟩ (hsh.core.exempt (Tcb.home_suspended hs hsus))
        (fun _ => id) .inl (fun _ => rfl) (fun u _ _ => ⟨by simp, hnb u⟩) (by simp) h.hint
    · simp only [if_neg hsus]
      have h0 : (a.tcb t).suspend = 0 := by
        have := hbd.suspend
        simp only [suspended] at hsus
        omega
      refine ⟨?_, by simp [hs], hquiet (by simp [hs])⟩
      refine h.one ⟨?_, rfl, rfl, hsame, by simp⟩ (hsh.core.unsetRun (by simp) hs h0) (fun _ => id) ?_ ?_
        (fun u _ _ => ⟨by simp, hnb u⟩) (by simp) ?_
      · intro u hu
        simp [hu]
      · simp [Sched.live, hs]
      · simp
      · intro hw
        refine (h.hint hw).shrink (by rfl) (by rfl) ?_ fun p u hu => mem_of_unsetRun hu
        intro _ hr
        simp [hr.ne (t := t) (by simp [hs])]
  case h_2 hs =>
    cases hr
    left
    have hnb := hsh.not_blocks (t := t) (by simp [hs])
    refine ⟨rfl, ?_, by simp [hs], by simp⟩
    exact h.one ⟨fun _ _ => rfl, rfl, rfl, hsame, by simp⟩
      ((hsh.core.setHint true).exempt (Tcb.home_idle (by simp [hs]) (by simp [hs]))) (fun _ => id) .inl
      (fun _ => rfl) (fun u _ _ => ⟨by simp, hnb u⟩) (by simp) (fun _ => Hinted.of_hint rfl)
  case h_3 hs =>
    left
    obtain ⟨hfit, hadrift⟩ := h.detached hs
    have hdc := hfit.shape.core
    have hone := alone_detach a t
    have hself : ((a.detach t).tcb t).state = .waiting := by simp [detach, hs]
    split at hr
    · rename_i hsus
      cases hr
      refine ⟨rfl, ⟨hfit.shape, hfit.waits, ?_, hfit.hint⟩, by simp [hself], hquiet (by simp [hs])⟩
      intro hw
      apply (h.exact hw).drop_parked hsh hs (by simpa [detach, suspended] using hsus) hone.other
      intro w u
      constructor
      · intro hb
        refine ⟨hone.of_blocks hsh.core hdc hb, ?_⟩
        rintro rfl
        exact (hfit.shape.of_blocks hb).1 (Set.mem_insert w ∅)
      · rintro ⟨hb, hwt⟩
        exact (hone.blocks_iff hsh.core hdc hwt u).mpr hb
    · obtain ⟨c, hc, hr⟩ := bind_eq_ok.mp hr
      cases hr
      have hrep := (hdc.updateOwner hadrift hc).2
      refine ⟨rfl, hfit.updateOwner hadrift hc, ?_, ?_⟩
      · simp [hrep.state, hself]
      · intro hw hf
        rw [hrep.current]
        exact hquiet (by simp [hs]) hw (hrep.hint hf)
  case h_4 =>
    cases hr
    exact .inr ⟨rfl, rfl⟩

end SdkPort.OSThread.Sched
