import SdkPort.OS.Sched
import Mathlib.Data.Set.Insert

/-!
# Where every thread stands

The structural invariant of the scheduler: each thread is linked in the queue
its own words call for and in no other. A set of threads may be exempt, for the
moments when an operation has taken a thread out and not yet put it back; the
rules below take a thread out, change it, and put it back.
-/
namespace SdkPort.OSThread

open PrioList (insertPrio SortedBy mem_insertPrio nodup_insertPrio sorted_insertPrio sorted_congr
  sorted_erase)

/-- The addresses of thread slots. -/
def Slot (t : Addr) : Prop := t ≠ 0 ∧ t ≤ PORT_MAX_THREADS

/-- Queues on which threads wait, kept in order of priority. -/
def QueueAddr.isWait : QueueAddr → Prop
  | .waitQueue _ | .mutex _ | .cond _ | .msgSend _ | .msgRecv _ => True
  | _ => False

/-- The queue a thread must be linked in, going by its own words. -/
def Tcb.home (th : Tcb) : Option QueueAddr :=
  match th.state with
  | .ready => if 0 < th.suspend then none else some (.runQueue th.priority)
  | .waiting => some th.queue
  | _ => none

/-- Bounds every thread obeys at all times. -/
structure Tcb.Bounded (th : Tcb) : Prop where
  base : th.base ≤ 31
  priority : th.priority ≤ 32
  suspend : 0 ≤ th.suspend

/-- The words of a thread that is in place. -/
structure Tcb.Placed (th : Tcb) : Prop where
  awake : th.suspend = 0 → th.state = .ready ∨ th.state = .running ∨ th.state = .waiting →
    th.priority ≤ 31
  running : th.state = .running → th.suspend = 0
  ready : th.state = .ready → th.suspend = 0 → th.queue = .runQueue th.priority
  waiting : th.state = .waiting → th.queue.isWait
  parked : th.state = .waiting → 0 < th.suspend → th.priority = 32

/-- The bit of a run queue in the bitmap. -/
def runBit (b : BitVec 32) (p : Nat) : Bool := b.getLsbD (31 - p)

namespace Sched

/-- All threads outside `X` are linked exactly where they belong. -/
structure Core (X : Set Addr) (a : Sched) : Prop where
  bounded : ∀ t, (a.tcb t).Bounded
  placed : ∀ t, t ∉ X → (a.tcb t).Placed
  mem : ∀ q, q ≠ .active → ∀ t, t ∈ a.queue q ↔ t ∉ X ∧ (a.tcb t).home = some q
  nodup : ∀ q, (a.queue q).Nodup
  active : ∀ t, t ∈ a.queue .active ↔ (a.tcb t).state ≠ .unused
  running : ∀ t, t ∉ X → (a.tcb t).state = .running → t = a.currentThread
  slot : ∀ t, (a.tcb t).state ≠ .unused → Slot t
  current : a.currentThread ≠ 0 → Slot a.currentThread
  bits : ∀ p, p ≤ 31 → (runBit a.runQueueBits p = true ↔ a.queue (.runQueue p) ≠ [])
  sorted : ∀ q, q.isWait → SortedBy a.prio (a.queue q)

end Sched

theorem runBit_prioBit {p q : Nat} (hp : p ≤ 31) (hq : q ≤ 31) :
    runBit (prioBit p) q = decide (q = p) := by
  simp only [runBit, prioBit, PORT_OS_PRIORITY_MAX, BitVec.getLsbD_shiftLeft, BitVec.getLsbD_one]
  by_cases h : q = p
  · subst h
    simp
    omega
  · simp [h]
    omega

theorem runBit_or {b : BitVec 32} {p q : Nat} (hp : p ≤ 31) (hq : q ≤ 31) :
    runBit (b ||| prioBit p) q = true ↔ q = p ∨ runBit b q = true := by
  have h := runBit_prioBit hp hq
  simp only [runBit] at h ⊢
  rw [BitVec.getLsbD_or, h]
  simp only [Bool.or_eq_true, decide_eq_true_eq]
  tauto

theorem runBit_andNot {b : BitVec 32} {p q : Nat} (hp : p ≤ 31) (hq : q ≤ 31) :
    runBit (b &&& ~~~prioBit p) q = true ↔ q ≠ p ∧ runBit b q = true := by
  have h := runBit_prioBit hp hq
  simp only [runBit] at h ⊢
  rw [BitVec.getLsbD_and, BitVec.getLsbD_not, h]
  simp only [Bool.and_eq_true, decide_eq_true_eq, Bool.not_eq_true', decide_eq_false_iff_not]
  have : 31 - q < 32 := by omega
  tauto

/-- The leading zeros of the bitmap are the index of its first set bit. -/
theorem cntlzw_spec {b : BitVec 32} (h : b ≠ 0) :
    portCntlzw b ≤ 31 ∧ runBit b (portCntlzw b) = true ∧
      ∀ p, p < portCntlzw b → runBit b p = false := by
  have hlt : b.clz.toNat < 32 := by
    have := BitVec.clz_lt_iff_ne_zero.mpr h
    simpa [BitVec.lt_def] using this
  simp only [portCntlzw, if_neg h, runBit]
  refine ⟨by omega, ?_, ?_⟩
  · have := BitVec.getLsbD_true_clz_of_ne_zero (by decide) h
    simpa using this
  · intro p hp
    have := BitVec.getLsbD_false_of_clzAuxRec (x := b) (n := 31)
      (fun i hi => by simp [show 32 ≤ i by omega]) (b.clz.toNat - 1 - p)
    rw [show 31 - p = 32 - b.clz.toNat + (b.clz.toNat - 1 - p) by omega]
    exact this

theorem cntlzw_eq_32 {b : BitVec 32} (h : b = 0) : portCntlzw b = 32 := by simp [portCntlzw, h]

theorem runBit_zero (p : Nat) : runBit 0 p = false := by simp [runBit]

theorem Tcb.home_ready {th : Tcb} (h : th.state = .ready) (hs : th.suspend = 0) :
    th.home = some (.runQueue th.priority) := by simp [Tcb.home, h, hs]

theorem Tcb.home_waiting {th : Tcb} (h : th.state = .waiting) : th.home = some th.queue := by
  simp [Tcb.home, h]

theorem Tcb.home_suspended {th : Tcb} (h : th.state = .ready) (hs : 0 < th.suspend) :
    th.home = none := by simp [Tcb.home, h, hs]

theorem Tcb.home_idle {th : Tcb} (h₁ : th.state ≠ .ready) (h₂ : th.state ≠ .waiting) :
    th.home = none := by
  unfold Tcb.home
  split <;> simp_all

/-- What can be told of a thread from its being linked somewhere. -/
theorem Tcb.home_cases {th : Tcb} {q : QueueAddr} (h : th.home = some q) :
    (th.state = .ready ∧ ¬ 0 < th.suspend ∧ q = .runQueue th.priority) ∨
      (th.state = .waiting ∧ q = th.queue) := by
  unfold Tcb.home at h
  split at h
  case h_1 hs =>
    split at h
    · simp at h
    · exact .inl ⟨hs, by assumption, by simpa using h.symm⟩
  case h_2 hs => exact .inr ⟨hs, by simpa using h.symm⟩
  case h_3 => simp at h

theorem Tcb.Placed.home_ne_active {th : Tcb} (h : th.Placed) : th.home ≠ some .active := by
  intro hh
  rcases Tcb.home_cases hh with ⟨_, _, hq⟩ | ⟨hs, hq⟩
  · cases hq
  · have := h.waiting hs
    rw [← hq] at this
    exact this

theorem QueueAddr.mutex_isWait (m : Addr) : (QueueAddr.mutex m).isWait := trivial

theorem QueueAddr.isWait.ne_run {q : QueueAddr} (h : q.isWait) (p : Nat) : q ≠ .runQueue p := by
  rintro rfl
  exact h

theorem QueueAddr.isWait.ne_active {q : QueueAddr} (h : q.isWait) : q ≠ .active := by
  rintro rfl
  exact h

theorem QueueAddr.isWait.ne_null {q : QueueAddr} (h : q.isWait) : q ≠ .null := by
  rintro rfl
  exact h

theorem home_wait {th : Tcb} {q : QueueAddr} (hq : q.isWait) :
    th.home = some q ↔ th.state = .waiting ∧ th.queue = q := by
  constructor
  · intro h
    rcases Tcb.home_cases h with ⟨_, _, he⟩ | ⟨hs, he⟩
    · exact absurd he (hq.ne_run _)
    · exact ⟨hs, he.symm⟩
  · rintro ⟨hs, rfl⟩
    exact Tcb.home_waiting hs

namespace Sched

variable {X : Set Addr} {a : Sched} {t : Addr}

theorem Core.not_mem (h : Core X a) (ht : t ∈ X) {q : QueueAddr} (hq : q ≠ .active) :
    t ∉ a.queue q := fun hm => ((h.mem q hq t).mp hm).1 ht

theorem Core.mem_home (h : Core X a) (ht : t ∉ X) {q : QueueAddr} (hq : (a.tcb t).home = some q) :
    t ∈ a.queue q := by
  refine (h.mem q ?_ t).mpr ⟨ht, hq⟩
  rintro rfl
  exact (h.placed t ht).home_ne_active hq

/-- The scheduler hint is not part of the structure. -/
theorem Core.setHint (h : Core X a) (v : Bool) : Core X (a.setHint v) :=
  ⟨h.bounded, h.placed, h.mem, h.nodup, h.active, h.running, h.slot, h.current, h.bits, h.sorted⟩

theorem Core.setOwned (h : Core X a) (u : Addr) (l : List Addr) : Core X (a.setOwned u l) :=
  ⟨h.bounded, h.placed, h.mem, h.nodup, h.active, h.running, h.slot, h.current, h.bits, h.sorted⟩

theorem Core.modM (h : Core X a) (m : Addr) (g : MutexCore → MutexCore) : Core X (a.modM m g) :=
  ⟨h.bounded, h.placed, h.mem, h.nodup, h.active, h.running, h.slot, h.current, h.bits, h.sorted⟩

theorem Core.modQ (h : Core X a) (q : Nat) (g : MsgQueue → MsgQueue) : Core X (a.modQ q g) :=
  ⟨h.bounded, h.placed, h.mem, h.nodup, h.active, h.running, h.slot, h.current, h.bits, h.sorted⟩

/-- An exempt thread may change at will, within its bounds and its lifetime. -/
theorem Core.modT (h : Core X a) (ht : t ∈ X) {g : Tcb → Tcb} (hb : (g (a.tcb t)).Bounded)
    (hu : (g (a.tcb t)).state = .unused ↔ (a.tcb t).state = .unused) : Core X (a.modT t g) := by
  have hne : ∀ u, u ∉ X → u ≠ t := by
    rintro u hX rfl
    exact hX ht
  have htcb : ∀ u, u ≠ t → (a.modT t g).tcb u = a.tcb u := by
    intro u hu
    simp [hu]
  have hstate : ∀ u, ((a.modT t g).tcb u).state = .unused ↔ (a.tcb u).state = .unused := by
    intro u
    by_cases he : u = t
    · subst he
      simpa using hu
    · rw [htcb u he]
  refine ⟨?_, ?_, ?_, h.nodup, ?_, ?_, ?_, h.current, h.bits, ?_⟩
  · intro u
    by_cases he : u = t
    · subst he
      simpa using hb
    · rw [htcb u he]
      exact h.bounded u
  · intro u hu
    rw [htcb u (hne u hu)]
    exact h.placed u hu
  · intro q hq u
    by_cases hX : u ∈ X
    · simp [hX, h.not_mem hX hq]
    · rw [htcb u (hne u hX)]
      exact h.mem q hq u
  · intro u
    rw [Ne, hstate u]
    exact h.active u
  · intro u hu
    rw [htcb u (hne u hu)]
    exact h.running u hu
  · intro u
    rw [Ne, hstate u]
    exact h.slot u
  · intro q hq
    apply sorted_congr (h.sorted q hq)
    intro u hu
    have hX := ((h.mem q hq.ne_active u).mp hu).1
    simp only [prio, htcb u (hne u hX)]

/-- Taking a thread out of its queue, with the bitmap adjusted. -/
theorem Core.takeOut (h : Core X a) (ht : t ∉ X) {q : QueueAddr} (hq : (a.tcb t).home = some q)
    {b : BitVec 32}
    (hb : ∀ p, p ≤ 31 → (runBit b p = true ↔ (a.removeItem q t).queue (.runQueue p) ≠ [])) :
    Core (insert t X) ((a.removeItem q t).setBits b) := by
  have hqa : q ≠ .active := by
    rintro rfl
    exact (h.placed t ht).home_ne_active hq
  have hqueue : ∀ r, r ≠ q → (a.removeItem q t).queue r = a.queue r := by
    intro r hr
    simp [removeItem, hr]
  have hself : (a.removeItem q t).queue q = (a.queue q).erase t := by simp [removeItem]
  refine ⟨h.bounded, ?_, ?_, ?_, ?_, ?_, h.slot, h.current, hb, ?_⟩
  · intro u hu
    exact h.placed u (fun hX => hu (Set.mem_insert_of_mem t hX))
  · intro r hr u
    change u ∈ (a.removeItem q t).queue r ↔ _ ∧ (a.tcb u).home = some r
    by_cases he : r = q
    · subst he
      rw [hself, (h.nodup r).mem_erase_iff, h.mem r hr, Set.mem_insert_iff]
      tauto
    · rw [hqueue r he, h.mem r hr, Set.mem_insert_iff]
      constructor
      · rintro ⟨hX, hu⟩
        refine ⟨?_, hu⟩
        rintro (rfl | hX')
        · rw [hq] at hu
          exact he (Option.some.inj hu).symm
        · exact hX hX'
      · rintro ⟨hX, hu⟩
        exact ⟨fun hX' => hX (Or.inr hX'), hu⟩
  · intro r
    change ((a.removeItem q t).queue r).Nodup
    by_cases he : r = q
    · subst he
      rw [hself]
      exact (h.nodup r).erase t
    · rw [hqueue r he]
      exact h.nodup r
  · intro u
    change u ∈ (a.removeItem q t).queue .active ↔ _
    rw [hqueue _ (Ne.symm hqa)]
    exact h.active u
  · intro u hu
    exact h.running u (fun hX => hu (Set.mem_insert_of_mem t hX))
  · intro r hr
    change SortedBy a.prio ((a.removeItem q t).queue r)
    by_cases he : r = q
    · subst he
      rw [hself]
      exact sorted_erase (h.sorted r hr)
    · rw [hqueue r he]
      exact h.sorted r hr

/-- Linking an exempt thread where its words call for, at any place that keeps
the queue in order. -/
theorem Core.putIn (h : Core (insert t X) a) (ht : t ∉ X) {q : QueueAddr}
    (hq : (a.tcb t).home = some q) (hp : (a.tcb t).Placed) {l : List Addr}
    (hl : ∀ u, u ∈ l ↔ u = t ∨ u ∈ a.queue q) (hd : l.Nodup) (hs : q.isWait → SortedBy a.prio l)
    {b : BitVec 32}
    (hb : ∀ p, p ≤ 31 → (runBit b p = true ↔ (a.setQueue q l).queue (.runQueue p) ≠ [])) :
    Core X ((a.setQueue q l).setBits b) := by
  have hqa : q ≠ .active := by
    rintro rfl
    exact hp.home_ne_active hq
  have hqueue : ∀ r, r ≠ q → (a.setQueue q l).queue r = a.queue r := by
    intro r hr
    simp [hr]
  have hself : (a.setQueue q l).queue q = l := by simp
  have hX : ∀ u, u ∉ X → u ≠ t → u ∉ insert t X := by
    rintro u hu hut (rfl | hX)
    · exact hut rfl
    · exact hu hX
  refine ⟨h.bounded, ?_, ?_, ?_, ?_, ?_, h.slot, h.current, hb, ?_⟩
  · intro u hu
    by_cases he : u = t
    · subst he
      exact hp
    · exact h.placed u (hX u hu he)
  · intro r hr u
    change u ∈ (a.setQueue q l).queue r ↔ _ ∧ (a.tcb u).home = some r
    by_cases he : r = q
    · subst he
      rw [hself, hl, h.mem r hr, Set.mem_insert_iff]
      constructor
      · rintro (rfl | ⟨hu, hh⟩)
        · exact ⟨ht, hq⟩
        · exact ⟨fun hx => hu (Or.inr hx), hh⟩
      · rintro ⟨hu, hh⟩
        by_cases hut : u = t
        · exact Or.inl hut
        · exact Or.inr ⟨hX u hu hut, hh⟩
    · rw [hqueue r he, h.mem r hr, Set.mem_insert_iff]
      constructor
      · rintro ⟨hu, hh⟩
        exact ⟨fun hx => hu (Or.inr hx), hh⟩
      · rintro ⟨hu, hh⟩
        refine ⟨?_, hh⟩
        rintro (rfl | hx)
        · rw [hq] at hh
          exact he (Option.some.inj hh).symm
        · exact hu hx
  · intro r
    change ((a.setQueue q l).queue r).Nodup
    by_cases he : r = q
    · subst he
      rw [hself]
      exact hd
    · rw [hqueue r he]
      exact h.nodup r
  · intro u
    change u ∈ (a.setQueue q l).queue .active ↔ _
    rw [hqueue _ (Ne.symm hqa)]
    exact h.active u
  · intro u hu hr
    by_cases he : u = t
    · subst he
      rcases Tcb.home_cases hq with ⟨hs', _⟩ | ⟨hs', _⟩ <;>
        · change (a.tcb u).state = .running at hr
          rw [hs'] at hr
          cases hr
    · exact h.running u (hX u hu he) hr
  · intro r hr
    change SortedBy a.prio ((a.setQueue q l).queue r)
    by_cases he : r = q
    · subst he
      rw [hself]
      exact hs hr
    · rw [hqueue r he]
      exact h.sorted r hr

/-- A thread that belongs in no queue may be exempted. -/
theorem Core.exempt (h : Core X a) (hq : (a.tcb t).home = none) : Core (insert t X) a := by
  refine ⟨h.bounded, ?_, ?_, h.nodup, h.active, ?_, h.slot, h.current, h.bits, h.sorted⟩
  · exact fun u hu => h.placed u (fun hX => hu (Set.mem_insert_of_mem t hX))
  · intro q hqa u
    rw [h.mem q hqa, Set.mem_insert_iff]
    constructor
    · rintro ⟨hX, hu⟩
      refine ⟨?_, hu⟩
      rintro (rfl | hX')
      · rw [hq] at hu
        cases hu
      · exact hX hX'
    · rintro ⟨hX, hu⟩
      exact ⟨fun hX' => hX (Or.inr hX'), hu⟩
  · exact fun u hu => h.running u (fun hX => hu (Set.mem_insert_of_mem t hX))

/-- An exempt thread that belongs in no queue is in place again. -/
theorem Core.putBack (h : Core (insert t X) a) (ht : t ∉ X) (hq : (a.tcb t).home = none)
    (hp : (a.tcb t).Placed) (hr : (a.tcb t).state = .running → t = a.currentThread) : Core X a := by
  have hX : ∀ u, u ∉ X → u ≠ t → u ∉ insert t X := by
    rintro u hu hut (rfl | hX)
    · exact hut rfl
    · exact hu hX
  refine ⟨h.bounded, ?_, ?_, h.nodup, h.active, ?_, h.slot, h.current, h.bits, h.sorted⟩
  · intro u hu
    by_cases he : u = t
    · subst he
      exact hp
    · exact h.placed u (hX u hu he)
  · intro q hqa u
    rw [h.mem q hqa, Set.mem_insert_iff]
    constructor
    · rintro ⟨hu, hh⟩
      exact ⟨fun hx => hu (Or.inr hx), hh⟩
    · rintro ⟨hu, hh⟩
      refine ⟨?_, hh⟩
      rintro (rfl | hx)
      · rw [hq] at hh
        cases hh
      · exact hu hx
  · intro u hu hs
    by_cases he : u = t
    · subst he
      exact hr hs
    · exact h.running u (hX u hu he) hs

end Sched

end SdkPort.OSThread
