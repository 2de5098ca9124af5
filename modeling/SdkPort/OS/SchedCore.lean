import SdkPort.OS.SchedInv

/-!
# Every operation keeps the threads in place

One rule for each function of the scheduler. The functions that only move one
thread are chains of taking it out, changing it and putting it in; the loops
follow by induction.
-/
namespace SdkPort.OSThread.Sched

open PrioList (insertPrio SortedBy mem_insertPrio nodup_insertPrio sorted_insertPrio
  sorted_append_last sorted_congr)

variable {X : Set Addr} {a b : Sched} {t : Addr}

theorem blockedPriority_le (a : Sched) (p : Nat) (m : Addr) : a.blockedPriority p m ≤ p := by
  unfold blockedPriority
  split
  · exact le_refl p
  · split <;> omega

theorem foldl_blocked_le (a : Sched) (l : List Addr) (p : Nat) :
    l.foldl a.blockedPriority p ≤ p := by
  induction l generalizing p with
  | nil => exact le_refl p
  | cons m l ih => exact (ih _).trans (a.blockedPriority_le p m)

theorem effectivePriority_le_base (a : Sched) (t : Addr) :
    a.effectivePriority t ≤ (a.tcb t).base := a.foldl_blocked_le _ _

theorem Core.effectivePriority_le (h : Core X a) (t : Addr) : a.effectivePriority t ≤ 31 :=
  (a.effectivePriority_le_base t).trans (h.bounded t).base

/-- The bitmap after a run queue has lost a member. -/
theorem clearBit_bits (h : Core X a) {p : Nat} (hp : p ≤ 31)
    (ht : t ∈ a.queue (.runQueue p)) :
    ∀ r, r ≤ 31 → (runBit (if (a.removeItem (.runQueue p) t).queue (.runQueue p) = [] then
        a.runQueueBits &&& ~~~prioBit p else a.runQueueBits) r = true ↔
      (a.removeItem (.runQueue p) t).queue (.runQueue r) ≠ []) := by
  intro r hr
  have hne : a.queue (.runQueue p) ≠ [] := List.ne_nil_of_mem ht
  by_cases he : r = p
  · subst he
    split
    · simp_all [runBit_andNot]
    · rw [h.bits r hr]
      simp_all
  · have hq : (a.removeItem (.runQueue p) t).queue (.runQueue r) = a.queue (.runQueue r) := by
      simp [removeItem, he]
    rw [hq, ← h.bits r hr]
    split
    · rw [runBit_andNot hp hr]
      tauto
    · rfl

/-- Taking a runnable thread off its run queue. -/
theorem Core.takeRun (h : Core X a) (ht : t ∉ X) {p : Nat}
    (hq : (a.tcb t).home = some (.runQueue p)) :
    p ≤ 31 ∧ Core (insert t X) ((a.removeItem (.runQueue p) t).clearBit (.runQueue p) p) := by
  have hp : p ≤ 31 := by
    rcases Tcb.home_cases hq with ⟨hs, hs', he⟩ | ⟨hs, he⟩
    · cases he
      have h0 : (a.tcb t).suspend = 0 := by
        have := (h.bounded t).suspend
        omega
      exact (h.placed t ht).awake h0 (Or.inl hs)
    · have := (h.placed t ht).waiting hs
      rw [← he] at this
      exact this.elim
  refine ⟨hp, ?_⟩
  exact h.takeOut ht hq (clearBit_bits h hp (h.mem_home ht hq))

theorem Core.takeWait (h : Core X a) (ht : t ∉ X) (hs : (a.tcb t).state = .waiting) :
    Core (insert t X) (a.removeItem (a.tcb t).queue t) := by
  have hw := (h.placed t ht).waiting hs
  have hb : ∀ p, p ≤ 31 → (runBit a.runQueueBits p = true ↔
      (a.removeItem (a.tcb t).queue t).queue (.runQueue p) ≠ []) := by
    intro p hp
    rw [h.bits p hp]
    simp [removeItem, hw.ne_run p |>.symm]
  exact h.takeOut ht (Tcb.home_waiting hs) hb

theorem Core.addWait (h : Core (insert t X) a) (ht : t ∉ X) (hs : (a.tcb t).state = .waiting)
    (hp : (a.tcb t).Placed) {l : List Addr} (hl : ∀ u, u ∈ l ↔ u = t ∨ u ∈ a.queue (a.tcb t).queue)
    (hd : l.Nodup) (ho : SortedBy a.prio l) : Core X (a.setQueue (a.tcb t).queue l) := by
  have hw := hp.waiting hs
  have hb : ∀ p, p ≤ 31 → (runBit a.runQueueBits p = true ↔
      (a.setQueue (a.tcb t).queue l).queue (.runQueue p) ≠ []) := by
    intro p hp'
    rw [h.bits p hp']
    simp [hw.ne_run p |>.symm]
  exact h.putIn ht (Tcb.home_waiting hs) hp hl hd (fun _ => ho) hb

theorem Core.addPrio (h : Core (insert t X) a) (ht : t ∉ X) (hs : (a.tcb t).state = .waiting)
    (hp : (a.tcb t).Placed) : Core X (a.addPrio (a.tcb t).queue t) := by
  have hw := hp.waiting hs
  have hnot : t ∉ a.queue (a.tcb t).queue := h.not_mem (Set.mem_insert t X) hw.ne_active
  apply h.addWait ht hs hp
  · intro u
    exact mem_insertPrio
  · exact nodup_insertPrio (h.nodup _) hnot
  · exact sorted_insertPrio (h.sorted _ hw)

theorem Core.addTail (h : Core (insert t X) a) (ht : t ∉ X) (hs : (a.tcb t).state = .waiting)
    (hp : (a.tcb t).Placed) (h32 : (a.tcb t).priority = 32) :
    Core X (a.addTail (a.tcb t).queue t) := by
  have hw := hp.waiting hs
  have hnot : t ∉ a.queue (a.tcb t).queue := h.not_mem (Set.mem_insert t X) hw.ne_active
  apply h.addWait ht hs hp
  · intro u
    simp [or_comm]
  · rw [List.nodup_append]
    refine ⟨h.nodup _, by simp, ?_⟩
    intro u hu v hv
    rw [List.mem_singleton.mp hv]
    rintro rfl
    exact hnot hu
  · apply sorted_append_last (h.sorted _ hw)
    intro u _
    have := (h.bounded u).priority
    simp only [prio, h32]
    exact this

theorem Core.setRun (h : Core (insert t X) a) (ht : t ∉ X) (hs : (a.tcb t).state = .ready)
    (h0 : (a.tcb t).suspend = 0) (hp : a.prio t ≤ 31) : Core X (a.setRun t) := by
  have hc := h.modT (g := ({ · with queue := .runQueue (a.prio t) })) (Set.mem_insert t X)
    ⟨(h.bounded t).base, (h.bounded t).priority, (h.bounded t).suspend⟩ Iff.rfl
  have hnot : t ∉ a.queue (.runQueue (a.prio t)) := h.not_mem (Set.mem_insert t X) (by simp)
  apply Core.setHint
  apply hc.putIn ht
  · rw [modT_tcb, Function.update_self]
    exact Tcb.home_ready hs h0
  · constructor <;> simp_all [prio]
  · intro u
    simp [or_comm]
  · rw [List.nodup_append]
    refine ⟨h.nodup _, by simp, ?_⟩
    intro u hu v hv
    rw [List.mem_singleton.mp hv]
    rintro rfl
    exact hnot hu
  · exact fun hw => hw.elim
  · intro p hp'
    rw [runBit_or hp hp']
    by_cases he : p = a.prio t
    · subst he
      simp
    · simp [he, h.bits p hp']

/-- Leaving the run queue for good or to change priority. -/
theorem Core.unsetRun (h : Core X a) (ht : t ∉ X) (hs : (a.tcb t).state = .ready)
    (h0 : (a.tcb t).suspend = 0) : Core (insert t X) (a.unsetRun t) := by
  have hq : (a.tcb t).queue = .runQueue (a.prio t) := (h.placed t ht).ready hs h0
  have hc := (h.takeRun ht (Tcb.home_ready hs h0)).2
  unfold Sched.unsetRun
  rw [hq]
  exact hc.modT (Set.mem_insert t X)
    ⟨(h.bounded t).base, (h.bounded t).priority, (h.bounded t).suspend⟩ Iff.rfl

/-- A thread that is in no queue before and after changes freely. -/
theorem Core.modIdle (h : Core X a) (ht : t ∉ X) {g : Tcb → Tcb} (hq : (a.tcb t).home = none)
    (hq' : (g (a.tcb t)).home = none) (hb : (g (a.tcb t)).Bounded) (hp : (g (a.tcb t)).Placed)
    (hu : (g (a.tcb t)).state = .unused ↔ (a.tcb t).state = .unused)
    (hr : (g (a.tcb t)).state = .running → t = a.currentThread) : Core X (a.modT t g) := by
  have hc := (h.exempt hq).modT (Set.mem_insert t X) hb hu
  apply hc.putBack ht
  · simpa using hq'
  · simpa using hp
  · simpa using hr

/-- Words that say nothing about where a thread stands. -/
structure SameStand (th th' : Tcb) : Prop where
  state : th'.state = th.state
  priority : th'.priority = th.priority
  base : th'.base = th.base
  queue : th'.queue = th.queue
  suspend : 0 ≤ th'.suspend
  suspended : th'.suspend = 0 ↔ th.suspend = 0

theorem SameStand.home {th th' : Tcb} (h : SameStand th th') (hs : 0 ≤ th.suspend) :
    th'.home = th.home := by
  have h₁ := h.suspend
  have h₂ := h.suspended
  have h₃ : 0 < th'.suspend ↔ 0 < th.suspend := by omega
  simp only [Tcb.home, h.state, h.queue, h.priority, h₃]

theorem SameStand.placed {th th' : Tcb} (h : SameStand th th') (hs : 0 ≤ th.suspend)
    (hp : th.Placed) : th'.Placed := by
  have h₁ := h.suspend
  have h₂ := h.suspended
  constructor
  · rw [h.suspended, h.state, h.priority]
    exact hp.awake
  · rw [h.suspended, h.state]
    exact hp.running
  · rw [h.suspended, h.state, h.queue, h.priority]
    exact hp.ready
  · rw [h.state, h.queue]
    exact hp.waiting
  · rw [h.state, h.priority]
    intro hw hlt
    exact hp.parked hw (by omega)

theorem Core.modWords (h : Core X a) {g : Tcb → Tcb} (hg : SameStand (a.tcb t) (g (a.tcb t))) :
    Core X (a.modT t g) := by
  have hst : ∀ u, SameStand (a.tcb u) ((a.modT t g).tcb u) := by
    intro u
    by_cases he : u = t
    · subst he
      simpa using hg
    · have hs := (h.bounded u).suspend
      simpa [he] using SameStand.mk rfl rfl rfl rfl hs Iff.rfl
  have hsus : ∀ u, 0 ≤ (a.tcb u).suspend := fun u => (h.bounded u).suspend
  refine ⟨?_, ?_, ?_, h.nodup, ?_, ?_, ?_, h.current, h.bits, ?_⟩
  · intro u
    have hb := h.bounded u
    exact ⟨(hst u).base ▸ hb.base, (hst u).priority ▸ hb.priority, (hst u).suspend⟩
  · exact fun u hu => (hst u).placed (hsus u) (h.placed u hu)
  · intro q hq u
    rw [(hst u).home (hsus u)]
    exact h.mem q hq u
  · intro u
    rw [Ne, (hst u).state]
    exact h.active u
  · intro u hu
    rw [(hst u).state]
    exact h.running u hu
  · intro u
    rw [Ne, (hst u).state]
    exact h.slot u
  · intro q hq
    exact sorted_congr (h.sorted q hq) fun u _ => (hst u).priority

/-- A waiting thread leaves its queue, changes, and is sorted in again. -/
theorem Core.rewait (h : Core X a) (ht : t ∉ X) (hs : (a.tcb t).state = .waiting) {g : Tcb → Tcb}
    (hg : (g (a.tcb t)).state = .waiting) (hq : (g (a.tcb t)).queue = (a.tcb t).queue)
    (hb : (g (a.tcb t)).Bounded) (hp : (g (a.tcb t)).Placed) :
    Core X (((a.removeItem (a.tcb t).queue t).modT t g).addPrio (a.tcb t).queue t) := by
  have hc := (h.takeWait ht hs).modT (g := g) (Set.mem_insert t X) hb (by simp [hs, hg])
  have htcb : ((a.removeItem (a.tcb t).queue t).modT t g).tcb t = g (a.tcb t) := by simp
  have := hc.addPrio ht (by rw [htcb, hg]) (by rwa [htcb])
  rwa [htcb, hq] at this

theorem Core.requeue (h : Core X a) (ht : t ∉ X) (hs : (a.tcb t).state = .waiting)
    (h0 : (a.tcb t).suspend = 0) {p : Nat} (hp : p ≤ 31) : Core X (a.requeue t p) := by
  have hpl := h.placed t ht
  apply h.rewait ht hs (by exact hs) rfl
  · exact ⟨(h.bounded t).base, by simp; omega, (h.bounded t).suspend⟩
  · constructor <;> simp_all [hpl.waiting hs]

/-- The waiting threads of `X` have lost their queue. -/
def Adrift (X : Set Addr) (a : Sched) : Prop :=
  ∀ t ∈ X, (a.tcb t).state = .waiting ∧ (a.tcb t).queue = .null

theorem Core.setEffectivePriority (h : Core X a) (hX : Adrift X a) (h0 : ¬ a.suspended t) {p : Nat}
    (hp : p ≤ 31) {r : Addr × Sched} (hr : a.setEffectivePriority t p = .ok r) : Core X r.2 := by
  have h0' : (a.tcb t).suspend = 0 := by
    have := (h.bounded t).suspend
    simp only [suspended] at h0
    omega
  have ht : t ∉ X ∨ (a.tcb t).state = .waiting ∧ (a.tcb t).queue = .null := by
    by_cases ht : t ∈ X
    · exact .inr (hX t ht)
    · exact .inl ht
  unfold Sched.setEffectivePriority at hr
  split at hr
  case h_1 hs =>
    have ht := ht.resolve_right (by simp [hs])
    cases hr
    have hc := (h.unsetRun ht hs h0').modT (g := ({ · with priority := p })) (Set.mem_insert t X)
      ⟨by simpa using (h.bounded t).base, by simp; omega, by simpa using (h.bounded t).suspend⟩
      (by simp)
    exact hc.setRun ht (by simpa using hs) (by simpa using h0') (by simpa [prio] using hp)
  case h_2 hs =>
    split at hr
    · cases hr
    · rename_i hq
      have ht := ht.resolve_right (by simp [hq])
      cases hr
      exact h.requeue ht hs h0' hp
  case h_3 hs =>
    have ht := ht.resolve_right (by simp [hs])
    cases hr
    have hpl := h.placed t ht
    refine (h.setHint true).modIdle (g := ({ · with priority := p })) ht ?_ ?_ ?_ ?_ ?_ ?_
    · exact Tcb.home_idle (by simp [hs]) (by simp [hs])
    · exact Tcb.home_idle (by simp [hs]) (by simp [hs])
    · exact ⟨(h.bounded t).base, by simp; omega, (h.bounded t).suspend⟩
    · constructor <;> simp_all
    · simp
    · exact fun _ => h.running t ht hs
  case h_4 =>
    cases hr
    exact h

theorem Adrift.setEffectivePriority (hX : Adrift X a) {p : Nat} {r : Addr × Sched}
    (hr : a.setEffectivePriority t p = .ok r) : Adrift X r.2 := by
  intro u hu
  have hd := hX u hu
  by_cases he : u = t
  · subst he
    simp [Sched.setEffectivePriority, hd.1, hd.2] at hr
  · unfold Sched.setEffectivePriority at hr
    split at hr
    · cases hr
      simpa [he] using hd
    · split at hr
      · cases hr
      · cases hr
        simpa [he] using hd
    · cases hr
      simpa [he] using hd
    · cases hr
      exact hd

end SdkPort.OSThread.Sched
