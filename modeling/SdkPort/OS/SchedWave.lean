import SdkPort.OS.SchedCore

/-!
# Priority waves

Promoting an owner or re-evaluating it changes priorities along a chain of
owners. Nothing else changes but the order of the queues the threads stand in.
-/
namespace SdkPort.OSThread.Sched

variable {X : Set Addr} {a b c : Sched} {t : Addr}

/-- Priorities may differ, with the queue links of runnable threads. -/
structure Reprio (a b : Sched) : Prop where
  words : ∀ t, ∃ p q, b.tcb t = { a.tcb t with priority := p, queue := q }
  waiting : ∀ t, (a.tcb t).state = .waiting → (b.tcb t).queue = (a.tcb t).queue
  asleep : ∀ t, a.suspended t → b.tcb t = a.tcb t
  hint : b.runQueueHint = false → a.runQueueHint = false
  still : b.runQueueHint = false → ∀ t, (a.tcb t).state ≠ .waiting → b.tcb t = a.tcb t
  owned : b.owned = a.owned
  mtx : b.mtx = a.mtx
  msgq : b.msgq = a.msgq
  current : b.currentThread = a.currentThread
  reschedule : b.reschedule = a.reschedule

namespace Reprio

theorem state (h : Reprio a b) (t : Addr) : (b.tcb t).state = (a.tcb t).state := by
  obtain ⟨p, q, hw⟩ := h.words t
  rw [hw]

theorem suspend (h : Reprio a b) (t : Addr) : (b.tcb t).suspend = (a.tcb t).suspend := by
  obtain ⟨p, q, hw⟩ := h.words t
  rw [hw]

theorem base (h : Reprio a b) (t : Addr) : (b.tcb t).base = (a.tcb t).base := by
  obtain ⟨p, q, hw⟩ := h.words t
  rw [hw]

theorem mutex (h : Reprio a b) (t : Addr) : (b.tcb t).mutex = (a.tcb t).mutex := by
  obtain ⟨p, q, hw⟩ := h.words t
  rw [hw]

theorem val (h : Reprio a b) (t : Addr) : (b.tcb t).val = (a.tcb t).val := by
  obtain ⟨p, q, hw⟩ := h.words t
  rw [hw]

theorem live (h : Reprio a b) (t : Addr) : b.live t ↔ a.live t := by
  simp only [Sched.live, h.state]

theorem not_suspended (h : Reprio a b) (t : Addr) : b.suspended t ↔ a.suspended t := by
  simp only [Sched.suspended, h.suspend]

theorem nextOwner (h : Reprio a b) (t : Addr) : b.nextOwner t = a.nextOwner t := by
  simp only [Sched.nextOwner, h.mutex, h.mtx]

theorem refl (a : Sched) : Reprio a a :=
  ⟨fun _ => ⟨_, _, rfl⟩, fun _ _ => rfl, fun _ _ => rfl, id, fun _ _ _ => rfl, rfl, rfl, rfl, rfl, rfl⟩

theorem trans (h : Reprio a b) (h' : Reprio b c) : Reprio a c := by
  constructor
  · intro t
    obtain ⟨p, q, hw⟩ := h.words t
    obtain ⟨p', q', hw'⟩ := h'.words t
    exact ⟨p', q', by rw [hw', hw]⟩
  · intro t hs
    rw [h'.waiting t (by rw [h.state t, hs]), h.waiting t hs]
  · intro t hs
    rw [h'.asleep t ((h.not_suspended t).mpr hs), h.asleep t hs]
  · exact fun hf => h.hint (h'.hint hf)
  · intro hf t hs
    rw [h'.still hf t (by rwa [h.state t]), h.still (h'.hint hf) t hs]
  · rw [h'.owned, h.owned]
  · rw [h'.mtx, h.mtx]
  · rw [h'.msgq, h.msgq]
  · rw [h'.current, h.current]
  · rw [h'.reschedule, h.reschedule]

/-- Who stands in a wait queue does not change. -/
theorem mem_wait (h : Reprio a b) (ha : Core X a) (hb : Core X b) {q : QueueAddr} (hq : q.isWait) :
    t ∈ b.queue q ↔ t ∈ a.queue q := by
  rw [hb.mem q hq.ne_active, ha.mem q hq.ne_active, home_wait hq, home_wait hq, h.state t]
  constructor
  · rintro ⟨hX, hs, he⟩
    exact ⟨hX, hs, by rw [← h.waiting t hs, he]⟩
  · rintro ⟨hX, hs, he⟩
    exact ⟨hX, hs, by rw [h.waiting t hs, he]⟩

end Reprio

theorem Reprio.requeue (hs : (a.tcb t).state = .waiting) (h0 : ¬ a.suspended t) (p : Nat) :
    Reprio a (a.requeue t p) := by
  constructor
  · intro u
    by_cases he : u = t
    · subst he
      exact ⟨p, (a.tcb u).queue, by simp⟩
    · exact ⟨_, _, by simp [he]; rfl⟩
  · intro u _
    by_cases he : u = t
    · subst he
      simp
    · simp [he]
  · intro u hu
    have he : u ≠ t := by
      rintro rfl
      exact h0 hu
    simp [he]
  · simp
  · intro _ u hu
    have he : u ≠ t := by
      rintro rfl
      exact hu hs
    simp [he]
  all_goals simp

theorem Reprio.setEffectivePriority (h0 : ¬ a.suspended t) {p : Nat} {r : Addr × Sched}
    (hr : a.setEffectivePriority t p = .ok r) : Reprio a r.2 := by
  unfold Sched.setEffectivePriority at hr
  split at hr
  case h_1 hs =>
    cases hr
    constructor
    · intro u
      by_cases he : u = t
      · subst he
        exact ⟨p, .runQueue p, by simp [prio]⟩
      · exact ⟨_, _, by simp [he]; rfl⟩
    · intro u hu
      have he : u ≠ t := by
        rintro rfl
        rw [hs] at hu
        cases hu
      simp [he]
    · intro u hu
      have he : u ≠ t := by
        rintro rfl
        exact h0 hu
      simp [he]
    all_goals simp
  case h_2 hs =>
    split at hr
    · cases hr
    · cases hr
      exact Reprio.requeue hs h0 p
  case h_3 hs =>
    cases hr
    constructor
    · intro u
      by_cases he : u = t
      · subst he
        exact ⟨p, (a.tcb u).queue, by simp⟩
      · exact ⟨_, _, by simp [he]; rfl⟩
    · intro u hu
      by_cases he : u = t
      · subst he
        simp
      · simp [he]
    · intro u hu
      have he : u ≠ t := by
        rintro rfl
        exact h0 hu
      simp [he]
    all_goals simp
  case h_4 =>
    cases hr
    exact Reprio.refl a

/-- A wave keeps every thread in place and changes nothing but priorities. -/
theorem Core.updatePriority (h : Core X a) (hX : Adrift X a) {n : Nat}
    (hr : Sched.updatePriority n a t = .ok b) : Core X b ∧ Reprio a b := by
  induction n generalizing a t with
  | zero => cases hr
  | succ n ih =>
    simp only [Sched.updatePriority] at hr
    split at hr
    · cases hr
    split at hr
    · cases hr
      exact ⟨h, Reprio.refl _⟩
    split at hr
    · cases hr
      exact ⟨h, Reprio.refl _⟩
    rename_i h0 _
    cases hm : a.setEffectivePriority t (a.effectivePriority t) with
    | error e => simp [hm, bind, Except.bind] at hr
    | ok r =>
      simp only [hm, bind, Except.bind] at hr
      have hc := h.setEffectivePriority hX h0 (h.effectivePriority_le t) hm
      have hp := Reprio.setEffectivePriority h0 hm
      split at hr
      · cases hr
        exact ⟨hc, hp⟩
      · have hrest := ih hc (hX.setEffectivePriority hm) hr
        exact ⟨hrest.1, hp.trans hrest.2⟩

theorem Core.promoteThread (h : Core X a) (hX : Adrift X a) {p n : Nat} (hp : p ≤ 31)
    (hr : Sched.promoteThread p n a t = .ok b) : Core X b ∧ Reprio a b := by
  induction n generalizing a t with
  | zero => cases hr
  | succ n ih =>
    simp only [Sched.promoteThread] at hr
    split at hr
    · cases hr
      exact ⟨h, Reprio.refl _⟩
    split at hr
    · cases hr
      exact ⟨h, Reprio.refl _⟩
    rename_i h0 _
    cases hm : a.setEffectivePriority t p with
    | error e => simp [hm, bind, Except.bind] at hr
    | ok r =>
      simp only [hm, bind, Except.bind] at hr
      have hc := h.setEffectivePriority hX h0 hp hm
      have hp' := Reprio.setEffectivePriority h0 hm
      split at hr
      · cases hr
        exact ⟨hc, hp'⟩
      · have hrest := ih hc (hX.setEffectivePriority hm) hr
        exact ⟨hrest.1, hp'.trans hrest.2⟩

theorem Core.updateOwner (h : Core X a) (hX : Adrift X a) {n : Nat}
    (hr : a.updateOwner n t = .ok b) : Core X b ∧ Reprio a b := by
  unfold Sched.updateOwner at hr
  split at hr
  · cases hr
    exact ⟨h, Reprio.refl _⟩
  · exact h.updatePriority hX hr

end SdkPort.OSThread.Sched
