import SdkPort.OS.SchedSound
import SdkPort.Lib.Inherit

/-!
# Priority inheritance

A thread is blocked by whoever waits on a mutex it owns. The priority of a live
thread that is not suspended is settled between operations; the waves along the
chain of owners settle it again. None of this needs the chains to be free of
circles.
-/
namespace SdkPort.OSThread.Sched

open PrioList (SortedBy)
open Inherit (demands Settled)

variable {X D H E : Set Addr} {a b : Sched} {t u w m : Addr} {q : QueueAddr} {n : Nat}

/-- `w` waits on a mutex of `t`. -/
def blocks (a : Sched) (w t : Addr) : Prop := ∃ m ∈ a.owned t, w ∈ a.queue (.mutex m)

def base (a : Sched) (t : Addr) : Nat := (a.tcb t).base

/-- Priorities are settled outside `E`. -/
def Exact (E : Set Addr) (a : Sched) : Prop :=
  ∀ t, t ∉ E → a.live t → ¬ a.suspended t → Settled a.blocks a.base a.prio t

/-- A waiting thread that names a mutex is queued on it. -/
def Waits (X : Set Addr) (a : Sched) : Prop :=
  ∀ t, t ∉ X → (a.tcb t).state = .waiting → (a.tcb t).mutex ≠ 0 →
    (a.tcb t).queue = .mutex (a.tcb t).mutex

/-- The head of a sorted queue stands for all of it. -/
theorem blockedPriority_isLeast (hs : SortedBy a.prio (a.queue (.mutex m))) (p : Nat) :
    IsLeast {x | x = p ∨ ∃ w ∈ a.queue (.mutex m), x = a.prio w} (a.blockedPriority p m) := by
  unfold blockedPriority
  cases hq : a.queue (.mutex m) with
  | nil => exact ⟨.inl rfl, by rintro x (rfl | ⟨w, hw, _⟩) <;> simp_all⟩
  | cons h l =>
    rw [hq] at hs
    have hhead : ∀ w ∈ h :: l, a.prio h ≤ a.prio w := by
      intro w hw
      rcases List.mem_cons.mp hw with rfl | hw
      · exact le_refl _
      · exact (List.pairwise_cons.mp hs).1 w hw
    by_cases hlt : a.prio h < p
    · simp only [hlt, if_true]
      refine ⟨.inr ⟨h, by simp, rfl⟩, ?_⟩
      rintro x (rfl | ⟨w, hw, rfl⟩)
      · omega
      · exact hhead w hw
    · simp only [hlt, if_false]
      refine ⟨.inl rfl, ?_⟩
      rintro x (rfl | ⟨w, hw, rfl⟩)
      · exact le_refl _
      · have := hhead w hw
        omega

theorem foldl_blocked_isLeast (hs : ∀ m, SortedBy a.prio (a.queue (.mutex m))) (l : List Addr)
    (p : Nat) : IsLeast {x | x = p ∨ ∃ m ∈ l, ∃ w ∈ a.queue (.mutex m), x = a.prio w}
      (l.foldl a.blockedPriority p) := by
  induction l generalizing p with
  | nil => exact ⟨.inl rfl, by rintro x (rfl | ⟨m, hm, _⟩) <;> simp_all⟩
  | cons m l ih =>
    have hm := a.blockedPriority_isLeast (hs m) p
    have hl := ih (a.blockedPriority p m)
    constructor
    · rcases hl.1 with he | ⟨k, hk, w, hw, he⟩
      · rcases hm.1 with he' | ⟨w, hw, he'⟩
        · exact .inl (he.trans he')
        · exact .inr ⟨m, by simp, w, hw, he.trans he'⟩
      · exact .inr ⟨k, by simp [hk], w, hw, he⟩
    · have hle : l.foldl a.blockedPriority (a.blockedPriority p m) ≤ a.blockedPriority p m :=
        hl.2 (.inl rfl)
      rintro x (rfl | ⟨k, hk, w, hw, rfl⟩)
      · exact hle.trans (hm.2 (.inl rfl))
      · rcases List.mem_cons.mp hk with rfl | hk
        · exact hle.trans (hm.2 (.inr ⟨w, hw, rfl⟩))
        · exact hl.2 (.inr ⟨k, hk, w, hw, rfl⟩)

/-- What the code computes from the heads of the queues is the best demand. -/
theorem Core.effectivePriority_isLeast (h : Core X a) (t : Addr) :
    IsLeast (demands a.blocks a.base a.prio t) (a.effectivePriority t) := by
  have hl := foldl_blocked_isLeast (fun m => h.sorted _ (QueueAddr.mutex_isWait m)) (a.owned t)
    (a.tcb t).base
  have heq : demands a.blocks a.base a.prio t = {x | x = (a.tcb t).base ∨ ∃ m ∈ a.owned t,
      ∃ w ∈ a.queue (.mutex m), x = a.prio w} := by
    ext x
    constructor
    · rintro (rfl | ⟨w, ⟨m, hm, hw⟩, rfl⟩)
      · exact .inl rfl
      · exact .inr ⟨m, hm, w, hw, rfl⟩
    · rintro (rfl | ⟨m, hm, w, hw, rfl⟩)
      · exact .inl rfl
      · exact .inr ⟨w, ⟨m, hm, hw⟩, rfl⟩
  rw [heq]
  exact hl

theorem Core.settled_iff (h : Core X a) (t : Addr) :
    Settled a.blocks a.base a.prio t ↔ a.prio t = a.effectivePriority t := by
  have hl := h.effectivePriority_isLeast t
  constructor
  · exact fun hs => hs.unique hl
  · intro he
    rw [Settled, he]
    exact hl

/-- A blocker is waiting, names a mutex of the thread it blocks, and is another thread. -/
theorem Shape.of_blocks (h : Shape X D H a) (hb : a.blocks w t) :
    w ∉ X ∧ (a.tcb w).state = .waiting ∧ (a.tcb w).mutex ≠ 0 ∧ a.nextOwner w = t ∧ t ≠ 0 := by
  obtain ⟨m, hm, hw⟩ := hb
  obtain ⟨h0, ht⟩ := (h.owned t m).mp hm
  obtain ⟨hX, hs, _⟩ := (h.core.mem_wait (QueueAddr.mutex_isWait m)).mp hw
  have hn := h.names m w hw
  have hm0 := (h.addr m (by rw [ht]; exact h0)).1
  refine ⟨hX, hs, by rwa [hn], ?_, h0⟩
  simp [Sched.nextOwner, hn, hm0, ht]

theorem Shape.not_blocks_self (h : Shape X D ∅ a) : ¬ a.blocks t t := by
  rintro ⟨m, hm, ht⟩
  exact (h.held m t (by simp) ht).2 ((h.owned t m).mp hm).2

/-- Whoever is blocked owns a mutex and is alive. -/
theorem Shape.live_of_blocks (h : Sound a) (hb : a.blocks w u) : a.live u := by
  obtain ⟨m, hm, _⟩ := hb
  obtain ⟨h0, ho⟩ := (h.owned u m).mp hm
  subst ho
  exact (h.live m h0).resolve_right (Set.notMem_empty _)

/-- The thread blocked by a waiting one is the owner of the mutex it names. -/
theorem Shape.blocks_nextOwner (h : Shape X D H a) (hw : Waits X a) (hX : w ∉ X)
    (hs : (a.tcb w).state = .waiting) (h0 : a.nextOwner w ≠ 0) : a.blocks w (a.nextOwner w) := by
  have hm : (a.tcb w).mutex ≠ 0 := by
    intro hz
    simp [Sched.nextOwner, hz] at h0
  have hq := hw w hX hs hm
  simp only [Sched.nextOwner, hm, if_false] at h0 ⊢
  refine ⟨(a.tcb w).mutex, (h.owned _ _).mpr ⟨h0, rfl⟩, ?_⟩
  exact (h.core.mem_wait (QueueAddr.mutex_isWait _)).mpr ⟨hX, hs, hq⟩

theorem Exact.congr (h : Exact E a) {E' : Set Addr} (hblk : ∀ w u, b.blocks w u ↔ a.blocks w u)
    (ht : ∀ u, u ∉ E' → b.live u → ¬ b.suspended u → u ∉ E ∧ a.live u ∧ ¬ a.suspended u ∧
      b.base u = a.base u ∧ b.prio u = a.prio u)
    (hp : ∀ w u, a.blocks w u → b.prio w = a.prio w) : Exact E' b := by
  intro u hu hl hs
  obtain ⟨hE, hl', hs', hb, hpr⟩ := ht u hu hl hs
  exact (h u hE hl' hs').congr hb hpr (fun w => hblk w u) (fun w => hp w u)

theorem Reprio.blocks (h : Reprio a b) (ha : Core X a) (hb : Core X b) (w t : Addr) :
    b.blocks w t ↔ a.blocks w t := by
  simp only [Sched.blocks, h.owned, h.mem_wait ha hb (QueueAddr.mutex_isWait _)]

theorem Waits.reprio (h : Waits X a) (hr : Reprio a b) : Waits X b := by
  intro t hX hs hm
  rw [hr.state] at hs
  rw [hr.mutex] at hm ⊢
  rw [hr.waiting t hs]
  exact h t hX hs hm

/-- Setting a priority, in terms of priorities alone. -/
theorem setEffectivePriority_prio {p : Nat} {r : Addr × Sched} (hl : a.live t)
    (hr : a.setEffectivePriority t p = .ok r) : r.2.prio = Function.update a.prio t p ∧
      ((a.tcb t).state = .waiting → r.1 = a.nextOwner t) ∧
      ((a.tcb t).state ≠ .waiting → r.1 = 0) := by
  have hfun : ∀ c : Sched, (∀ u, (c.tcb u).priority = if u = t then p else (a.tcb u).priority) →
      c.prio = Function.update a.prio t p := by
    intro c hc
    funext u
    by_cases he : u = t
    · simpa [Sched.prio, he] using hc u
    · simpa [Sched.prio, he] using hc u
  unfold Sched.setEffectivePriority at hr
  split at hr
  case h_1 hs =>
    cases hr
    refine ⟨hfun _ ?_, by simp [hs], by simp⟩
    intro u
    by_cases he : u = t <;> simp [he]
  case h_2 hs =>
    split at hr
    · cases hr
    · cases hr
      refine ⟨hfun _ ?_, by simp, by simp [hs]⟩
      intro u
      by_cases he : u = t <;> simp [he]
  case h_3 hs =>
    cases hr
    refine ⟨hfun _ ?_, by simp [hs], by simp⟩
    intro u
    by_cases he : u = t <;> simp [he]
  case h_4 h₁ h₂ h₃ =>
    simp only [Sched.live] at hl
    cases hs : (a.tcb t).state <;> simp_all

theorem setEffectivePriority_dead {p : Nat} {r : Addr × Sched} (hl : ¬ a.live t)
    (hm : a.setEffectivePriority t p = .ok r) : r = (0, a) := by
  simp only [Sched.live, not_and_or, not_not] at hl
  cases hl with
  | inl h0 =>
    simp [Sched.setEffectivePriority, h0] at hm
    exact hm.symm
  | inr h0 =>
    simp [Sched.setEffectivePriority, h0] at hm
    exact hm.symm

theorem setEffectivePriority_ok (h : (a.tcb t).state = .waiting → (a.tcb t).queue ≠ .null) (p : Nat) :
    ∃ r, a.setEffectivePriority t p = .ok r := by
  unfold Sched.setEffectivePriority
  split
  · exact ⟨_, rfl⟩
  · rename_i hs
    rw [if_neg (h hs)]
    exact ⟨_, rfl⟩
  · exact ⟨_, rfl⟩
  · exact ⟨_, rfl⟩

/-- Giving a thread its best demand settles it; only the thread it blocks may have become
unsettled. -/
theorem Exact.setEffectivePriority (hs : Shape X D ∅ a) (hX : Adrift X a) (he : Exact (insert t E) a)
    (hsus : ¬ a.suspended t) {r : Addr × Sched}
    (hm : a.setEffectivePriority t (a.effectivePriority t) = .ok r) : Exact (insert r.1 E) r.2 := by
  have hc := hs.core.setEffectivePriority hX hsus (hs.core.effectivePriority_le t) hm
  have hrep := Reprio.setEffectivePriority hsus hm
  by_cases hl : a.live t
  case neg =>
    -- a dead thread is left alone, and nothing is demanded of it
    obtain rfl := setEffectivePriority_dead hl hm
    intro u hu hlu h0
    apply he u _ hlu h0
    rintro (rfl | hE)
    · exact hl hlu
    · exact hu (.inr hE)
  case pos =>
    obtain ⟨hprio, hwait, _⟩ := setEffectivePriority_prio hl hm
    have hblk := hrep.blocks hs.core hc
    intro v hv hlv h0
    simp only [Set.mem_insert_iff, not_or] at hv
    have hb : ¬ a.blocks t v := by
      intro hb
      obtain ⟨_, hst, _, hn, _⟩ := hs.of_blocks hb
      exact hv.1 (by rw [hwait hst, hn])
    have hgoal : Settled a.blocks a.base (Function.update a.prio t (a.effectivePriority t)) v := by
      by_cases hvt : v = t
      · subst hvt
        exact Inherit.settled_set (hs.core.effectivePriority_isLeast v) hs.not_blocks_self
      · exact (he v (by simp [hvt, hv.2]) ((hrep.live v).mp hlv)
          (fun hx => h0 ((hrep.not_suspended v).mpr hx))).set_other hvt hb
    exact hgoal.congr (hrep.base v) (by rw [hprio]) (fun w => hblk w v) (fun w _ => by rw [hprio])

/-- Nothing is demanded of the null thread. -/
theorem Exact.drop_null (h : Exact (insert 0 E) a) (hc : Core X a) : Exact E a := by
  intro u hu hl hn
  apply h u _ hl hn
  rintro (rfl | hE)
  · exact (hc.slot 0 hl.1).1 rfl
  · exact hu hE

/-- Re-evaluating a thread settles it and hands on to the thread it blocks. -/
theorem Exact.updatePriority (hs : Shape X D ∅ a) (hX : Adrift X a) (hw : Waits X a)
    (he : Exact (insert t E) a) (hr : Sched.updatePriority n a t = .ok b) :
    Exact E b := by
  induction n generalizing a t with
  | zero => cases hr
  | succ n ih =>
    simp only [Sched.updatePriority] at hr
    split at hr
    · cases hr
    split at hr
    · cases hr
      rename_i _ hsus
      intro u hu hl h0
      apply he u _ hl h0
      rintro (rfl | hE)
      · exact h0 hsus
      · exact hu hE
    split at hr
    · cases hr
      rename_i hp
      intro u hu hl h0
      by_cases hut : u = t
      · subst hut
        exact (hs.core.settled_iff u).mpr hp
      · exact he u (by simp [hut, hu]) hl h0
    rename_i _ hsus _
    obtain ⟨r, hm, hr⟩ := Runs.bind_eq_ok.mp hr
    have hc := hs.core.setEffectivePriority hX hsus (hs.core.effectivePriority_le t) hm
    have hrep := Reprio.setEffectivePriority hsus hm
    have hstep := he.setEffectivePriority hs hX hsus hm
    split at hr
    · rename_i hz
      cases hr
      rw [hz] at hstep
      exact hstep.drop_null hc
    · exact ih (hs.reprio hc hrep) (hX.setEffectivePriority hm) (hw.reprio hrep) hstep hr

/-- Demands while thread `c` of priority `p` is about to block `o`: all threads but
`t` are settled, and `t` is at least as good as settled once promoted to `p`. -/
structure Promoting (c o : Addr) (p : Nat) (t : Addr) (a : Sched) : Prop where
  self : a.prio c = p
  others : ∀ u, u ≠ t → a.live u → ¬ a.suspended u →
    Settled (fun w v => a.blocks w v ∨ (w = c ∧ v = o)) a.base a.prio u
  next : a.live t → ¬ a.suspended t →
    IsLeast (demands (fun w v => a.blocks w v ∨ (w = c ∧ v = o)) a.base a.prio t) (min (a.prio t) p)

/-- With `c` about to block `o`, all threads are settled. -/
def Promoted (c o : Addr) (a : Sched) : Prop := ∀ u, a.live u → ¬ a.suspended u →
  Settled (fun w v => a.blocks w v ∨ (w = c ∧ v = o)) a.base a.prio u

theorem Exact.promoting (h : Exact ∅ a) (c o : Addr) : Promoting c o (a.prio c) o a := by
  refine ⟨rfl, ?_, ?_⟩
  · intro u hu hl h0
    apply (h u (by simp) hl h0).congr rfl rfl
    · simp [hu]
    · exact fun _ _ => rfl
  · intro hl h0
    have hs := h o (by simp) hl h0
    have hc : a.prio c ∈ demands (fun w v => a.blocks w v ∨ (w = c ∧ v = o)) a.base a.prio o :=
      .inr ⟨c, .inr ⟨rfl, rfl⟩, rfl⟩
    constructor
    · by_cases hle : a.prio o ≤ a.prio c
      · rw [min_eq_left hle]
        rcases hs.1 with he | ⟨w, hw, he⟩
        · exact .inl he
        · exact .inr ⟨w, .inl hw, he⟩
      · rw [min_eq_right (by omega)]
        exact hc
    · rintro x (rfl | ⟨w, hw, rfl⟩)
      · have := hs.le_base
        omega
      · rcases hw with hw | ⟨rfl, _⟩
        · have := hs.le_blocker hw
          omega
        · omega

/-- A change of a live thread, in terms of what the threads demand. -/
theorem demands_setEffectivePriority {c o v : Addr} {p : Nat} {r : Addr × Sched} (hc : Core X a)
    (hc' : Core X r.2) (hsus : ¬ a.suspended t) (hl : a.live t) (hm : a.setEffectivePriority t p = .ok r) :
    demands (fun w u => r.2.blocks w u ∨ (w = c ∧ u = o)) r.2.base r.2.prio v =
      demands (fun w u => a.blocks w u ∨ (w = c ∧ u = o)) a.base (Function.update a.prio t p) v := by
  have hrep := Reprio.setEffectivePriority hsus hm
  apply Inherit.demands_congr (hrep.base v)
  · intro w
    rw [hrep.blocks hc hc']
  · intro w _
    rw [(setEffectivePriority_prio hl hm).1]

/-- Promoting a thread settles it, and leaves others settled but for the one it blocks. -/
theorem Promoting.settled {c o v : Addr} {p : Nat} {r : Addr × Sched} (hs : Shape ∅ D ∅ a) (hc : Core ∅ r.2)
    (he : Promoting c o p t a) (hsus : ¬ a.suspended t) (hlt : p < a.prio t) (hl : a.live t)
    (hm : a.setEffectivePriority t p = .ok r) (hlv : r.2.live v) (h0 : ¬ r.2.suspended v)
    (hb : ¬ a.blocks t v) : Settled (fun w u => r.2.blocks w u ∨ (w = c ∧ u = o)) r.2.base r.2.prio v := by
  have hrep := Reprio.setEffectivePriority hsus hm
  have htc : t ≠ c := by
    rintro rfl
    exact hlt.ne he.self.symm
  rw [Settled, demands_setEffectivePriority hs.core hc hsus hl hm, (setEffectivePriority_prio hl hm).1]
  by_cases hvt : v = t
  · subst hvt
    have hmin := he.next hl hsus
    rw [min_eq_right hlt.le] at hmin
    refine Inherit.settled_set hmin ?_
    rintro (hb' | ⟨rfl, _⟩)
    · exact hb hb'
    · exact htc rfl
  · apply (he.others v hvt ((hrep.live v).mp hlv)
      (fun hx => h0 ((hrep.not_suspended v).mpr hx))).set_other hvt
    rintro (hb' | ⟨hb', _⟩)
    · exact hb hb'
    · exact htc hb'

/-- The thread that a promoted one blocks is promoted next. -/
theorem Promoting.setEffectivePriority {c o : Addr} {p : Nat} {r : Addr × Sched} (hp31 : p ≤ 31)
    (hs : Shape ∅ D ∅ a) (hw : Waits ∅ a) (he : Promoting c o p t a) (hsus : ¬ a.suspended t)
    (hlt : p < a.prio t) (hm : a.setEffectivePriority t p = .ok r) :
    (r.1 = 0 → Promoted c o r.2 ∧ r.2.prio c = p) ∧ (r.1 ≠ 0 → Promoting c o p r.1 r.2) := by
  have hX : Adrift ∅ a := fun _ h => h.elim
  have hc := hs.core.setEffectivePriority hX hsus hp31 hm
  have hrep := Reprio.setEffectivePriority hsus hm
  by_cases hl : a.live t
  case neg =>
    -- a dead thread is left alone, and nothing is demanded of it
    obtain rfl := setEffectivePriority_dead hl hm
    refine ⟨fun _ => ⟨?_, he.self⟩, fun hne => absurd rfl hne⟩
    intro u hlu h0
    apply he.others u _ hlu h0
    rintro rfl
    exact hl hlu
  case pos =>
    obtain ⟨hprio, hwait, hnot⟩ := setEffectivePriority_prio hl hm
    have hself : r.2.prio c = p := by
      have hct : c ≠ t := by
        rintro rfl
        exact hlt.ne he.self.symm
      rw [hprio, Function.update_of_ne hct, he.self]
    have hnext : ∀ v, a.blocks t v → v = r.1 ∧ r.1 ≠ 0 := by
      intro v hv
      obtain ⟨_, hst, _, hn, h0⟩ := hs.of_blocks hv
      rw [hwait hst, hn]
      exact ⟨rfl, h0⟩
    constructor
    · intro hz
      exact ⟨fun v hlv h0 => he.settled hs hc hsus hlt hl hm hlv h0 fun hb => (hnext v hb).2 hz, hself⟩
    · intro hnz
      have hst : (a.tcb t).state = .waiting := by
        by_contra hst
        exact hnz (hnot hst)
      have hb : a.blocks t r.1 := by
        have hb := hs.blocks_nextOwner hw (Set.notMem_empty t) hst (by rwa [← hwait hst])
        rwa [← hwait hst] at hb
      have hvt : r.1 ≠ t := by
        intro he'
        rw [he'] at hb
        exact hs.not_blocks_self hb
      refine ⟨hself, ?_, ?_⟩
      · exact fun v hv hlv h0 => he.settled hs hc hsus hlt hl hm hlv h0 fun hb => hv (hnext v hb).1
      · intro hlv h0
        have hset := he.others r.1 hvt ((hrep.live r.1).mp hlv)
          (fun hx => h0 ((hrep.not_suspended r.1).mpr hx))
        rw [demands_setEffectivePriority hs.core hc hsus hl hm, hprio, Function.update_of_ne hvt]
        exact hset.promoted (.inl hb) hlt

theorem Promoting.promoteThread {c o : Addr} {p : Nat} (hp31 : p ≤ 31)
    (hs : Shape ∅ D ∅ a) (hw : Waits ∅ a) (he : Promoting c o p t a)
    (hr : Sched.promoteThread p n a t = .ok b) : Promoted c o b ∧ b.prio c = p := by
  induction n generalizing a t with
  | zero => cases hr
  | succ n ih =>
    simp only [Sched.promoteThread] at hr
    split at hr
    · cases hr
      rename_i hsus
      refine ⟨?_, he.self⟩
      intro u hl h0
      apply he.others u _ hl h0
      rintro rfl
      exact h0 hsus
    split at hr
    · cases hr
      rename_i hle
      refine ⟨?_, he.self⟩
      intro u hl h0
      by_cases hut : u = t
      · subst hut
        have hnext := he.next hl h0
        rwa [min_eq_left hle] at hnext
      · exact he.others u hut hl h0
    rename_i hsus hlt
    obtain ⟨r, hm, hr⟩ := Runs.bind_eq_ok.mp hr
    obtain ⟨hend, hnext⟩ := he.setEffectivePriority hp31 hs hw hsus (Nat.lt_of_not_le hlt) hm
    split at hr
    · rename_i hz
      cases hr
      exact hend hz
    · rename_i hnz
      have hX : Adrift ∅ a := fun _ h => h.elim
      have hc := hs.core.setEffectivePriority hX hsus hp31 hm
      have hrep := Reprio.setEffectivePriority hsus hm
      exact ih (hs.reprio hc hrep) (hw.reprio hrep) (hnext hnz) hr

end SdkPort.OSThread.Sched
