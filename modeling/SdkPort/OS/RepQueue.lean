import SdkPort.OS.Rep
import SdkPort.OS.SchedInv

/-!
# Queue operations on lists

Each queue operation of the source computes the operation on lists it is named
for, provided the thread is where the operation expects it.
-/
namespace SdkPort.OSThread

open Linked (Family Seg firstOf lastOf)
open Runs (Gives run_bind_ok gives_bind gives_pure)

variable {s : St} {a : Sched} {q : QueueAddr} {t : Addr} {off : LinkField}

theorem portAddTail_run (hq : q ≠ .null) (ht : t ≠ 0) (s : St) (off : LinkField) :
    portAddTail q t off s = .ok ((),
      ((((if (s.queue q).tail = 0 then s.setHead q ({ · with head := t })
        else s.setLink (s.queue q).tail (·.setNext off t)).setLink t
          (·.setPrev off (s.queue q).tail)).setLink t (·.setNext off 0)).setHead q
            ({ · with tail := t }))) := by
  unfold portAddTail
  rw [run_bind_ok (qGet_ok hq _ s)]
  by_cases hz : (s.queue q).tail = 0
  · simp only [hz, if_true]
    rw [run_bind_ok (qSet_ok hq _ _), run_bind_ok (thrSet_ok ht _ _), run_bind_ok (thrSet_ok ht _ _),
      qSet_ok hq]
  · simp only [hz, if_false]
    rw [run_bind_ok (thrSet_ok hz _ _), run_bind_ok (thrSet_ok ht _ _),
      run_bind_ok (thrSet_ok ht _ _), qSet_ok hq]

/-- A thread that no list of these links has goes to the end. -/
theorem Rep.portAddTail (h : Rep s a) (hq : q ≠ .null) (ht : t ≠ 0)
    (hfresh : ∀ r, t ∉ listOf a q.field r) :
    Gives Rep (portAddTail q t q.field s) () (a.addTail q t) := by
  refine ⟨_, portAddTail_run hq ht s _, ?_⟩
  refine h.relink ?_ rfl (l := a.queue q ++ [t]) ?_
  · apply LinkOnly.trans _ (LinkOnly.setHead _ q _)
    apply LinkOnly.trans _ (LinkOnly.setNext _ _ _ _)
    apply LinkOnly.trans _ (LinkOnly.setPrev _ _ _ _)
    split
    · exact LinkOnly.setHead _ q _
    · exact LinkOnly.setNext _ _ _ _
  · have hl : listOf a q.field q ++ [t] = a.queue q ++ [t] := by simp [listOf]
    rw [← hl]
    apply (h.queues q.field).pushBack ht hfresh
    · intro y hy
      by_cases hz : (s.queue q).tail = 0 <;> by_cases hyt : y = t <;>
        by_cases hyp : y = (s.queue q).tail <;> simp_all [tailOf]
    · intro y hy
      by_cases hz : (s.queue q).tail = 0 <;> by_cases hyt : y = t <;>
        by_cases hyp : y = (s.queue q).tail <;> simp_all [tailOf]
    · intro r
      by_cases hz : (s.queue q).tail = 0 <;> by_cases hr : r = q <;> simp_all [tailOf, headOf]
    · intro r
      by_cases hz : (s.queue q).tail = 0 <;> by_cases hr : r = q <;> simp_all [tailOf]

theorem portRemoveItem_run (hq : q ≠ .null) (ht : t ≠ 0) (s : St) (off : LinkField) :
    portRemoveItem q t off s = .ok ((),
      let next := (s.thr t).next off
      let prev := (s.thr t).prev off
      let s₁ := if next = 0 then s.setHead q ({ · with tail := prev })
        else s.setLink next (·.setPrev off prev)
      if prev = 0 then s₁.setHead q ({ · with head := next }) else s₁.setLink prev (·.setNext off next)) := by
  unfold portRemoveItem
  rw [run_bind_ok (thrGet_ok ht _ s), run_bind_ok (thrGet_ok ht _ s)]
  by_cases hn : (s.thr t).next off = 0 <;> by_cases hp : (s.thr t).prev off = 0
  · simp only [hn, hp, if_true]
    rw [run_bind_ok (qSet_ok hq _ _), qSet_ok hq]
  · simp only [hn, hp, if_true, if_false]
    rw [run_bind_ok (qSet_ok hq _ _), thrSet_ok hp]
  · simp only [hn, hp, if_true, if_false]
    rw [run_bind_ok (thrSet_ok hn _ _), qSet_ok hq]
  · simp only [hn, hp, if_false]
    rw [run_bind_ok (thrSet_ok hn _ _), thrSet_ok hp]

/-- Neighbours and ends take over the links of the thread that goes. -/
theorem Rep.portRemoveItem (h : Rep s a) (hq : q ≠ .null) (hm : t ∈ a.queue q) :
    Gives Rep (portRemoveItem q t q.field s) () (a.removeItem q t) := by
  have hl : listOf a q.field q = a.queue q := by simp [listOf]
  have hfam := h.queues q.field
  have ht : t ≠ 0 := hfam.ne_nil (by rwa [hl])
  refine ⟨_, portRemoveItem_run hq ht s _, ?_⟩
  refine h.relink ?_ rfl (l := (a.queue q).erase t) ?_
  · simp only
    split <;> split
    · exact (LinkOnly.setHead s q _).trans (LinkOnly.setHead _ q _)
    · exact (LinkOnly.setPrev _ s _ _).trans (LinkOnly.setHead _ q _)
    · exact (LinkOnly.setHead s q _).trans (LinkOnly.setNext _ _ _ _)
    · exact (LinkOnly.setPrev _ s _ _).trans (LinkOnly.setNext _ _ _ _)
  · rw [← hl]
    apply hfam.remove (by rwa [hl])
    · intro z hz hzt
      by_cases hn : (s.thr t).next q.field = 0 <;> by_cases hp : (s.thr t).prev q.field = 0 <;>
        by_cases h₁ : z = (s.thr t).next q.field <;> by_cases h₂ : z = (s.thr t).prev q.field <;>
          simp_all
    · intro z hz hzt
      by_cases hn : (s.thr t).next q.field = 0 <;> by_cases hp : (s.thr t).prev q.field = 0 <;>
        by_cases h₁ : z = (s.thr t).next q.field <;> by_cases h₂ : z = (s.thr t).prev q.field <;>
          simp_all
    · intro r
      by_cases hn : (s.thr t).next q.field = 0 <;> by_cases hp : (s.thr t).prev q.field = 0 <;>
        by_cases hr : r = q <;> simp_all [headOf]
    · intro r
      by_cases hn : (s.thr t).next q.field = 0 <;> by_cases hp : (s.thr t).prev q.field = 0 <;>
        by_cases hr : r = q <;> simp_all [tailOf]

theorem portRemoveHead_run (hq : q ≠ .null) (s : St) (off : LinkField)
    (ht : (s.queue q).head ≠ 0) :
    portRemoveHead q off s = .ok ((s.queue q).head,
      let nh := (s.thr (s.queue q).head).next off
      (if nh = 0 then s.setHead q ({ · with tail := 0 })
        else s.setLink nh (·.setPrev off 0)).setHead q ({ · with head := nh })) := by
  unfold portRemoveHead
  rw [run_bind_ok (qGet_ok hq _ s), run_bind_ok (thrGet_ok ht _ s)]
  by_cases hn : (s.thr (s.queue q).head).next off = 0
  · simp only [hn, if_true]
    rw [run_bind_ok (qSet_ok hq _ _), run_bind_ok (qSet_ok hq _ _)]
    rfl
  · simp only [hn, if_false]
    rw [run_bind_ok (thrSet_ok hn _ _), run_bind_ok (qSet_ok hq _ _)]
    rfl

/-- The head of a queue is the first of its list. -/
theorem Rep.head (h : Rep s a) (q : QueueAddr) : (s.queue q).head = firstOf 0 (a.queue q) := by
  have := ((h.queues q.field).dll q).head_eq
  simpa [headOf, listOf] using this

theorem Rep.head_eq_zero (h : Rep s a) (q : QueueAddr) : (s.queue q).head = 0 ↔ a.queue q = [] := by
  have := ((h.queues q.field).dll q).head_eq_nil
  simpa [headOf, listOf] using this

theorem Rep.portRemoveHead (h : Rep s a) (hq : q ≠ .null) {l : List Addr} (hl : a.queue q = t :: l) :
    Gives Rep (portRemoveHead q q.field s) t (a.removeItem q t) := by
  have hlist : listOf a q.field q = a.queue q := by simp [listOf]
  have hfam := h.queues q.field
  have hm : t ∈ listOf a q.field q := by simp [hlist, hl]
  have ht : t ≠ 0 := hfam.ne_nil hm
  have hhead : (s.queue q).head = t := by rw [h.head, hl, firstOf]
  have hprev : (s.thr t).prev q.field = 0 := by
    have := (hfam.dll q).seg
    rw [hlist, hl] at this
    exact this.1
  refine ⟨_, by rw [portRemoveHead_run hq s q.field (by rwa [hhead]), hhead], ?_⟩
  refine h.relink ?_ rfl (l := (a.queue q).erase t) ?_
  · simp only
    split
    · exact (LinkOnly.setHead s q _).trans (LinkOnly.setHead _ q _)
    · exact (LinkOnly.setPrev _ s _ _).trans (LinkOnly.setHead _ q _)
  · rw [← hlist]
    apply hfam.remove hm
    · intro z hz hzt
      by_cases hn : (s.thr t).next q.field = 0 <;> by_cases h₁ : z = (s.thr t).next q.field <;>
        simp_all
    · intro z hz hzt
      by_cases hn : (s.thr t).next q.field = 0 <;> by_cases h₁ : z = (s.thr t).next q.field <;>
        simp_all
    · intro r
      by_cases hn : (s.thr t).next q.field = 0 <;> by_cases hr : r = q <;> simp_all [headOf]
    · intro r
      by_cases hn : (s.thr t).next q.field = 0 <;> by_cases hr : r = q <;> simp_all [tailOf]

/-- The search stops at the first thread of larger priority. -/
theorem addPrioScan_run (h : Rep s a) (prio n : Nat) {p : Addr} {l : List Addr}
    (hs : Seg (fun t => (s.thr t).next off) (fun t => (s.thr t).prev off) p l 0) (h0 : ∀ x ∈ l, x ≠ 0)
    (hn : l.length < n) : addPrioScan prio off n (firstOf 0 l) s =
      .ok (firstOf 0 (l.dropWhile fun x => a.prio x ≤ prio), s) := by
  induction n generalizing p l with
  | zero => omega
  | succ n ih =>
    cases l with
    | nil => simp [addPrioScan]
    | cons x l =>
      have hx : x ≠ 0 := h0 x (by simp)
      obtain ⟨_, hnext, hrest⟩ := hs
      change (s.thr x).next off = _ at hnext
      have hprio : (s.thr x).toTcb.priority = a.prio x := by rw [h.tcb]; rfl
      rw [Linked.firstOf_cons, addPrioScan, if_neg hx, run_bind_ok (tcbGet_ok hx _ s), hprio]
      by_cases hle : a.prio x ≤ prio
      · rw [if_pos hle, run_bind_ok (thrGet_ok hx _ s), hnext]
        simpa [hle] using ih hrest (fun y hy => h0 y (by simp [hy])) (by simpa using hn)
      · simp [hle]

theorem portAddPrio_run (hq : q ≠ .null) (ht : t ≠ 0) {y : Addr} (hy : y ≠ 0) (s : St)
    (off : LinkField) (hscan : addPrioScan (s.thr t).toTcb.priority off threadFuel (s.queue q).head s =
      .ok (y, s)) (hty : t ≠ y) : portAddPrio q t off s = .ok ((),
      let prev := (s.thr y).prev off
      let s₁ := ((s.setLink t (·.setNext off y)).setLink y (·.setPrev off t)).setLink t
        (·.setPrev off prev)
      if prev = 0 then s₁.setHead q ({ · with head := t }) else s₁.setLink prev (·.setNext off t)) := by
  unfold portAddPrio
  rw [run_bind_ok (tcbGet_ok ht _ s), run_bind_ok (qGet_ok hq _ s), run_bind_ok hscan]
  simp only [if_neg hy]
  rw [run_bind_ok (thrSet_ok ht _ _), run_bind_ok (thrGet_ok hy _ _), run_bind_ok (thrSet_ok hy _ _),
    run_bind_ok (thrSet_ok ht _ _)]
  have hprev : ((s.setLink t (·.setNext off y)).thr y).prev off = (s.thr y).prev off := by
    simp [Ne.symm hty]
  rw [hprev]
  by_cases hp : (s.thr y).prev off = 0
  · simp only [hp, if_true]
    rw [qSet_ok hq]
  · simp only [hp, if_false]
    rw [thrSet_ok hp]

/-- A thread is put in front of the first one of larger priority, or at the end if there is none. -/
theorem Rep.portAddPrio (h : Rep s a) (hq : q ≠ .null) (ht : t ≠ 0)
    (hfresh : ∀ r, t ∉ listOf a q.field r) (hlen : (a.queue q).length ≤ PORT_MAX_THREADS) :
    Gives Rep (portAddPrio q t q.field s) () (a.addPrio q t) := by
  have hlist : listOf a q.field q = a.queue q := by simp [listOf]
  have hfam := h.queues q.field
  have hdll := hfam.dll q
  rw [hlist] at hdll
  have hprio : (s.thr t).toTcb.priority = a.prio t := by rw [h.tcb]; rfl
  have hscan : addPrioScan (s.thr t).toTcb.priority q.field threadFuel (s.queue q).head s =
      .ok (firstOf 0 ((a.queue q).dropWhile fun x => a.prio x ≤ a.prio t), s) := by
    rw [hprio, h.head]
    apply addPrioScan_run h _ _ hdll.seg
    · intro x hx hz
      exact hdll.nil_not_mem (hz ▸ hx)
    · simp only [threadFuel]
      omega
  rw [Sched.addPrio, PrioList.insertPrio_eq]
  have hsplit := List.takeWhile_append_dropWhile (p := fun x => decide (a.prio x ≤ a.prio t)) (l := a.queue q)
  cases hv : (a.queue q).dropWhile fun x => decide (a.prio x ≤ a.prio t) with
  | nil =>
    rw [hv] at hsplit hscan
    have hgoal := h.portAddTail hq ht hfresh
    have hrun : OSThread.portAddPrio q t q.field s = OSThread.portAddTail q t q.field s := by
      unfold OSThread.portAddPrio
      rw [run_bind_ok (tcbGet_ok ht _ s), run_bind_ok (qGet_ok hq _ s), run_bind_ok hscan]
      simp
    rw [hrun]
    simp only [List.append_nil] at hsplit
    rw [hsplit]
    exact hgoal
  | cons y v =>
    rw [hv] at hsplit hscan
    have hmem : y ∈ listOf a q.field q := by
      rw [hlist, ← hsplit]
      simp
    have hy : y ≠ 0 := hfam.ne_nil hmem
    have hty : t ≠ y := by
      intro he
      subst he
      exact hfresh q hmem
    have htp : t ≠ (s.thr y).prev q.field := by
      rw [← hsplit] at hdll
      rw [hdll.links.1]
      intro he
      by_cases hu : (a.queue q).takeWhile (fun x => decide (a.prio x ≤ a.prio t)) = []
      · rw [hu] at he
        exact ht he
      · have hin := List.mem_append_left (y :: v) (Linked.lastOf_mem (p := 0) hu)
        rw [hsplit, ← he] at hin
        exact hfresh q (by rwa [hlist])
    refine ⟨_, portAddPrio_run hq ht hy s _ hscan hty, ?_⟩
    refine h.relink ?_ rfl ?_
    · have h₁ := ((LinkOnly.setNext q.field s t y).trans (LinkOnly.setPrev _ _ y t)).trans
        (LinkOnly.setPrev _ _ t ((s.thr y).prev q.field))
      simp only
      split
      · exact h₁.trans (LinkOnly.setHead _ q _)
      · exact h₁.trans (LinkOnly.setNext _ _ _ _)
    · apply hfam.insertBefore ht hfresh (hlist.trans hsplit.symm)
      · intro z hz
        by_cases hp : (s.thr y).prev q.field = 0 <;> by_cases h₁ : z = t <;> by_cases h₂ : z = y <;>
          by_cases h₃ : z = (s.thr y).prev q.field <;> simp_all
      · intro z hz
        by_cases hp : (s.thr y).prev q.field = 0 <;> by_cases h₁ : z = t <;> by_cases h₂ : z = y <;>
          by_cases h₃ : z = (s.thr y).prev q.field <;> simp_all
      · intro r
        by_cases hp : (s.thr y).prev q.field = 0 <;> by_cases hr : r = q <;> simp_all [headOf]
      · intro r
        by_cases hp : (s.thr y).prev q.field = 0 <;> by_cases hr : r = q <;> simp_all [tailOf]

end SdkPort.OSThread
