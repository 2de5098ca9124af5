import SdkPort.OS.RepQueue

/-!
# Owned mutexes and effective priority

The operations on a thread's list of owned mutexes, and the walk over it that
computes the effective priority.
-/
namespace SdkPort.OSThread

open Linked (Family Seg firstOf lastOf)
open Runs (Gives run_bind_ok gives_bind gives_pure)

variable {s s' s'' : St} {a : Sched} {t m : Addr}

/-- Write one link of a mutex. -/
def St.setMutexLink (s : St) (m : Addr) (g : Mutex → Mutex) : St :=
  { s with mtx := Function.update s.mtx m (g (s.mtx m)) }

@[simp] theorem St.setMutexLink_thr (s : St) (m : Addr) (g : Mutex → Mutex) :
    (s.setMutexLink m g).thr = s.thr := rfl

@[simp] theorem St.setMutexLink_queue (s : St) (m : Addr) (g : Mutex → Mutex) :
    (s.setMutexLink m g).queue = s.queue := rfl

@[simp] theorem St.setLink_mtx (s : St) (t : Addr) (g : Thread → Thread) :
    (s.setLink t g).mtx = s.mtx := rfl

@[simp] theorem St.setMutexLink_mtx (s : St) (m : Addr) (g : Mutex → Mutex) (k : Addr) :
    (s.setMutexLink m g).mtx k = if k = m then g (s.mtx k) else s.mtx k := by
  by_cases he : k = m
  · subst he
    simp [St.setMutexLink]
  · simp [St.setMutexLink, he]

theorem mtxSet_ok (hm : m ≠ 0) (g : Mutex → Mutex) (s : St) :
    mtxSet m g s = .ok ((), s.setMutexLink m g) := by simp [mtxSet, hm, St.setMutexLink]

theorem mtxGet_ok (hm : m ≠ 0) (f : Mutex → α) (s : St) :
    mtxGet m f s = .ok (f (s.mtx m), s) := by simp [mtxGet, hm]

/-- Only the links of owned mutexes differ. -/
structure OwnOnly (s s' : St) : Prop where
  tcb : ∀ t, (s'.thr t).toTcb = (s.thr t).toTcb
  next : ∀ o t, (s'.thr t).next o = (s.thr t).next o
  prev : ∀ o t, (s'.thr t).prev o = (s.thr t).prev o
  mtx : ∀ m, (s'.mtx m).toMutexCore = (s.mtx m).toMutexCore
  rest : s' = { s with thr := s'.thr, mtx := s'.mtx }

theorem OwnOnly.trans (h : OwnOnly s s') (h' : OwnOnly s' s'') : OwnOnly s s'' := by
  refine ⟨?_, ?_, ?_, ?_, ?_⟩
  · exact fun t => (h'.tcb t).trans (h.tcb t)
  · exact fun o t => (h'.next o t).trans (h.next o t)
  · exact fun o t => (h'.prev o t).trans (h.prev o t)
  · exact fun m => (h'.mtx m).trans (h.mtx m)
  · rw [h'.rest, h.rest]

/-- A write that keeps a thread's words and the links of its queues. -/
theorem OwnOnly.setLink (t : Addr) {g : Thread → Thread} (ht : ∀ th, (g th).toTcb = th.toTcb)
    (hn : ∀ o th, (g th).next o = th.next o) (hp : ∀ o th, (g th).prev o = th.prev o) :
    OwnOnly s (s.setLink t g) := by
  refine ⟨?_, ?_, ?_, fun _ => rfl, rfl⟩
  all_goals
    intros
    simp only [St.setLink_thr]
    split <;> simp_all

theorem OwnOnly.setMutexHead (s : St) (t v : Addr) :
    OwnOnly s (s.setLink t ({ · with mutexHead := v })) :=
  OwnOnly.setLink t (fun _ => rfl) (fun o _ => by cases o <;> rfl) (fun o _ => by cases o <;> rfl)

theorem OwnOnly.setMutexTail (s : St) (t v : Addr) :
    OwnOnly s (s.setLink t ({ · with mutexTail := v })) :=
  OwnOnly.setLink t (fun _ => rfl) (fun o _ => by cases o <;> rfl) (fun o _ => by cases o <;> rfl)

theorem OwnOnly.setMutexLink (m : Addr) {g : Mutex → Mutex}
    (hg : ∀ mt, (g mt).toMutexCore = mt.toMutexCore) : OwnOnly s (s.setMutexLink m g) := by
  refine ⟨fun _ => rfl, fun _ _ => rfl, fun _ _ => rfl, ?_, rfl⟩
  intro k
  simp only [St.setMutexLink_mtx]
  split
  · exact hg _
  · rfl

theorem OwnOnly.setLinkNext (s : St) (m v : Addr) :
    OwnOnly s (s.setMutexLink m ({ · with linkNext := v })) := OwnOnly.setMutexLink m fun _ => rfl

theorem OwnOnly.setLinkPrev (s : St) (m v : Addr) :
    OwnOnly s (s.setMutexLink m ({ · with linkPrev := v })) := OwnOnly.setMutexLink m fun _ => rfl

/-- A change of the mutexes of one thread makes its list change. -/
theorem Rep.reown {l : List Addr} (h : Rep s a) (ho : OwnOnly s s')
    (hf : Family 0 (fun m => (s'.mtx m).linkNext) (fun m => (s'.mtx m).linkPrev)
      (fun t => (s'.thr t).mutexHead) (fun t => (s'.thr t).mutexTail)
      (Function.update a.owned t l)) : Rep s' (a.setOwned t l) := by
  have hrest := ho.rest
  refine ⟨?_, ?_, ?_, ?_, ?_, ?_, ?_, ?_, hf⟩
  · exact fun t => (ho.tcb t).trans (h.tcb t)
  · exact fun m => (ho.mtx m).trans (h.mtx m)
  · rw [hrest]
    exact h.msgq
  · rw [hrest]
    exact h.current
  · rw [hrest]
    exact h.bits
  · rw [hrest]
    exact h.hint
  · rw [hrest]
    exact h.reschedule
  · intro o
    have hn : (fun t => (s'.thr t).next o) = fun t => (s.thr t).next o := funext (ho.next o)
    have hp : (fun t => (s'.thr t).prev o) = fun t => (s.thr t).prev o := funext (ho.prev o)
    have hq : s'.queue = s.queue := by rw [hrest]
    have hh : headOf s' o = headOf s o := by
      funext r
      simp only [headOf, hq]
    have ht : tailOf s' o = tailOf s o := by
      funext r
      simp only [tailOf, hq]
    rw [hn, hp, hh, ht]
    exact h.queues o

/-- The writes of the source, where both addresses are set. -/
theorem portMutexPushTail_run (ht : t ≠ 0) (hm : m ≠ 0) (s : St) :
    portMutexPushTail t m s = .ok ((),
      let prev := (s.thr t).mutexTail
      ((((if prev = 0 then s.setLink t ({ · with mutexHead := m })
        else s.setMutexLink prev ({ · with linkNext := m })).setMutexLink m
          ({ · with linkPrev := prev })).setMutexLink m ({ · with linkNext := 0 })).setLink t
            ({ · with mutexTail := m }))) := by
  unfold portMutexPushTail
  rw [run_bind_ok (thrGet_ok ht _ s)]
  by_cases hz : (s.thr t).mutexTail = 0
  · simp only [hz, if_true]
    rw [run_bind_ok (thrSet_ok ht _ _), run_bind_ok (mtxSet_ok hm _ _),
      run_bind_ok (mtxSet_ok hm _ _), thrSet_ok ht]
  · simp only [hz, if_false]
    rw [run_bind_ok (mtxSet_ok hz _ _), run_bind_ok (mtxSet_ok hm _ _),
      run_bind_ok (mtxSet_ok hm _ _), thrSet_ok ht]

/-- A mutex that nobody owns comes behind the others. -/
theorem Rep.portMutexPushTail (h : Rep s a) (ht : t ≠ 0) (hm : m ≠ 0) (hfresh : ∀ u, m ∉ a.owned u) :
    Gives Rep (portMutexPushTail t m s) () (a.setOwned t (a.owned t ++ [m])) := by
  refine ⟨_, portMutexPushTail_run ht hm s, ?_⟩
  refine h.reown ?_ ?_
  · apply OwnOnly.trans _ (OwnOnly.setMutexTail _ t m)
    apply OwnOnly.trans _ (OwnOnly.setLinkNext _ m 0)
    apply OwnOnly.trans _ (OwnOnly.setLinkPrev _ m _)
    split
    · exact OwnOnly.setMutexHead s t m
    · exact OwnOnly.setLinkNext s _ m
  · apply h.owned.pushBack hm hfresh
    · intro y hy
      by_cases hz : (s.thr t).mutexTail = 0 <;> by_cases hym : y = m <;>
        by_cases hyp : y = (s.thr t).mutexTail <;> simp_all
    · intro y hy
      by_cases hz : (s.thr t).mutexTail = 0 <;> by_cases hym : y = m <;>
        by_cases hyp : y = (s.thr t).mutexTail <;> simp_all
    · intro u
      by_cases hz : (s.thr t).mutexTail = 0 <;> by_cases hu : u = t <;> simp_all
    · intro u
      by_cases hz : (s.thr t).mutexTail = 0 <;> by_cases hu : u = t <;> simp_all

theorem portMutexPopItem_run (ht : t ≠ 0) (hm : m ≠ 0) (s : St) :
    portMutexPopItem t m s = .ok ((),
      let next := (s.mtx m).linkNext
      let prev := (s.mtx m).linkPrev
      let s₁ := if next = 0 then s.setLink t ({ · with mutexTail := prev })
        else s.setMutexLink next ({ · with linkPrev := prev })
      if prev = 0 then s₁.setLink t ({ · with mutexHead := next })
        else s₁.setMutexLink prev ({ · with linkNext := next })) := by
  unfold portMutexPopItem
  rw [run_bind_ok (mtxGet_ok hm _ s), run_bind_ok (mtxGet_ok hm _ s)]
  by_cases hn : (s.mtx m).linkNext = 0 <;> by_cases hp : (s.mtx m).linkPrev = 0
  · simp only [hn, hp, if_true]
    rw [run_bind_ok (thrSet_ok ht _ _), thrSet_ok ht]
  · simp only [hn, hp, if_true, if_false]
    rw [run_bind_ok (thrSet_ok ht _ _), mtxSet_ok hp]
  · simp only [hn, hp, if_true, if_false]
    rw [run_bind_ok (mtxSet_ok hn _ _), thrSet_ok ht]
  · simp only [hn, hp, if_false]
    rw [run_bind_ok (mtxSet_ok hn _ _), mtxSet_ok hp]

/-- A mutex is taken out from wherever it is. -/
theorem Rep.portMutexPopItem (h : Rep s a) (ht : t ≠ 0) (hm : m ∈ a.owned t) :
    Gives Rep (portMutexPopItem t m s) () (a.setOwned t ((a.owned t).erase m)) := by
  have hm0 : m ≠ 0 := h.owned.ne_nil hm
  refine ⟨_, portMutexPopItem_run ht hm0 s, ?_⟩
  refine h.reown ?_ ?_
  · simp only
    split <;> split
    · exact (OwnOnly.setMutexTail s t _).trans (OwnOnly.setMutexHead _ t _)
    · exact (OwnOnly.setLinkPrev s _ _).trans (OwnOnly.setMutexHead _ t _)
    · exact (OwnOnly.setMutexTail s t _).trans (OwnOnly.setLinkNext _ _ _)
    · exact (OwnOnly.setLinkPrev s _ _).trans (OwnOnly.setLinkNext _ _ _)
  · apply h.owned.remove hm
    · intro z hz hzm
      by_cases hn : (s.mtx m).linkNext = 0 <;> by_cases hp : (s.mtx m).linkPrev = 0 <;>
        by_cases h₁ : z = (s.mtx m).linkNext <;> by_cases h₂ : z = (s.mtx m).linkPrev <;> simp_all
    · intro z hz hzm
      by_cases hn : (s.mtx m).linkNext = 0 <;> by_cases hp : (s.mtx m).linkPrev = 0 <;>
        by_cases h₁ : z = (s.mtx m).linkNext <;> by_cases h₂ : z = (s.mtx m).linkPrev <;> simp_all
    · intro u
      by_cases hn : (s.mtx m).linkNext = 0 <;> by_cases hp : (s.mtx m).linkPrev = 0 <;>
        by_cases hu : u = t <;> simp_all
    · intro u
      by_cases hn : (s.mtx m).linkNext = 0 <;> by_cases hp : (s.mtx m).linkPrev = 0 <;>
        by_cases hu : u = t <;> simp_all

theorem portMutexPopHead_run (ht : t ≠ 0) (s : St) (hm : (s.thr t).mutexHead ≠ 0) :
    portMutexPopHead t s = .ok ((s.thr t).mutexHead,
      let next := (s.mtx (s.thr t).mutexHead).linkNext
      (if next = 0 then s.setLink t ({ · with mutexTail := 0 })
        else s.setMutexLink next ({ · with linkPrev := 0 })).setLink t ({ · with mutexHead := next })) := by
  unfold portMutexPopHead
  rw [run_bind_ok (thrGet_ok ht _ s), run_bind_ok (mtxGet_ok hm _ s)]
  by_cases hn : (s.mtx (s.thr t).mutexHead).linkNext = 0
  · simp only [hn, if_true]
    rw [run_bind_ok (thrSet_ok ht _ _), run_bind_ok (thrSet_ok ht _ _)]
    rfl
  · simp only [hn, if_false]
    rw [run_bind_ok (mtxSet_ok hn _ _), run_bind_ok (thrSet_ok ht _ _)]
    rfl

theorem Rep.mutexHead (h : Rep s a) (t : Addr) : (s.thr t).mutexHead = firstOf 0 (a.owned t) :=
  (h.owned.dll t).head_eq

theorem Rep.portMutexPopHead (h : Rep s a) (ht : t ≠ 0) {l : List Addr} (hl : a.owned t = m :: l) :
    Gives Rep (portMutexPopHead t s) m (a.setOwned t ((a.owned t).erase m)) := by
  have hm : m ∈ a.owned t := by simp [hl]
  have hm0 : m ≠ 0 := h.owned.ne_nil hm
  have hhead : (s.thr t).mutexHead = m := by rw [h.mutexHead, hl, firstOf]
  have hprev : (s.mtx m).linkPrev = 0 := by
    have := (h.owned.dll t).seg
    rw [hl] at this
    exact this.1
  refine ⟨_, by rw [portMutexPopHead_run ht s (by rwa [hhead]), hhead], ?_⟩
  refine h.reown ?_ ?_
  · simp only
    split
    · exact (OwnOnly.setMutexTail s t _).trans (OwnOnly.setMutexHead _ t _)
    · exact (OwnOnly.setLinkPrev s _ _).trans (OwnOnly.setMutexHead _ t _)
  · apply h.owned.remove hm
    · intro z hz hzm
      by_cases hn : (s.mtx m).linkNext = 0 <;> by_cases h₁ : z = (s.mtx m).linkNext <;> simp_all
    · intro z hz hzm
      by_cases hn : (s.mtx m).linkNext = 0 <;> by_cases h₁ : z = (s.mtx m).linkNext <;> simp_all
    · intro u
      by_cases hn : (s.mtx m).linkNext = 0 <;> by_cases hu : u = t <;> simp_all
    · intro u
      by_cases hn : (s.mtx m).linkNext = 0 <;> by_cases hu : u = t <;> simp_all

/-- The first thread blocked on a mutex bounds the priority. -/
theorem Rep.blockedPriority (h : Rep s a) (m : Addr) (p : Nat) :
    OSThread.blockedPriority m p s = .ok (a.blockedPriority p m, s) := by
  unfold OSThread.blockedPriority
  rw [run_bind_ok (qGet_ok (by simp) _ s), h.head]
  cases hq : a.queue (.mutex m) with
  | nil =>
    simp [Sched.blockedPriority, hq]
  | cons b l =>
    have hb : b ≠ 0 := by
      apply (h.queues .link).ne_nil (i := .mutex m)
      simp [listOf, QueueAddr.field, hq]
    have hprio : (s.thr b).toTcb.priority = a.prio b := by rw [h.tcb]; rfl
    rw [Linked.firstOf_cons, if_neg hb, run_bind_ok (tcbGet_ok hb _ s), hprio]
    simp [Sched.blockedPriority, hq]

/-- By induction on the mutexes that are left, of which there are fewer than the fuel. -/
theorem Rep.effectivePriorityScan (h : Rep s a) (n : Nat) {p : Addr} {l : List Addr}
    (hs : Seg (fun m => (s.mtx m).linkNext) (fun m => (s.mtx m).linkPrev) p l 0)
    (h0 : ∀ x ∈ l, x ≠ 0) (hn : l.length < n) (prio : Nat) :
    OSThread.effectivePriorityScan n (firstOf 0 l) prio s =
      .ok (l.foldl a.blockedPriority prio, s) := by
  induction n generalizing p l prio with
  | zero => omega
  | succ n ih =>
    cases l with
    | nil => simp [OSThread.effectivePriorityScan]
    | cons x l =>
      have hx : x ≠ 0 := h0 x (by simp)
      obtain ⟨_, hnext, hrest⟩ := hs
      change (s.mtx x).linkNext = _ at hnext
      rw [Linked.firstOf_cons, OSThread.effectivePriorityScan, if_neg hx,
        run_bind_ok (h.blockedPriority x prio), run_bind_ok (mtxGet_ok hx _ s), hnext]
      exact ih hrest (fun y hy => h0 y (by simp [hy])) (by simpa using hn) _

/-- A thread owns no more mutexes than there are, so the walk comes to its end. -/
theorem Rep.portOSGetEffectivePriority (h : Rep s a) (ht : t ≠ 0)
    (hlen : (a.owned t).length ≤ PORT_MAX_MUTEXES) :
    portOSGetEffectivePriority t s = .ok (a.effectivePriority t, s) := by
  unfold OSThread.portOSGetEffectivePriority
  have hbase : (s.thr t).toTcb.base = (a.tcb t).base := by rw [h.tcb]
  rw [run_bind_ok (tcbGet_ok ht _ s), run_bind_ok (thrGet_ok ht _ s), h.mutexHead, hbase]
  apply h.effectivePriorityScan _ (h.owned.dll t).seg
  · intro x hx
    exact h.owned.ne_nil hx
  · simp only [mutexFuel]
    omega

end SdkPort.OSThread
