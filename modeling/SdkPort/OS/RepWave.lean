import SdkPort.OS.RepSched
import SdkPort.OS.SchedInherit

/-!
# Waves and dispatching in memory

Re-evaluating a thread, promoting a chain of owners, choosing the next thread and
waking a queue compute their counterparts over lists, faults included.
-/
namespace SdkPort.OSThread

open Linked (firstOf)
open Runs (Gives Lockstep gives_bind gives_pure lockstep_of_gives lockstep_bind run_bind_ok)
open Sched (Core Shape Adrift Moved Idle)

variable {X D H : Set Addr} {s : St} {a : Sched} {t m : Addr} {q : QueueAddr} {n : Nat}

/-- A program computes an operation on lists: both fail alike or reach states that
correspond. -/
abbrev Computes (x : Except Fault (α × St)) (y : Except Fault Sched) : Prop :=
  Lockstep (fun _ s b => Rep s b) x y

theorem computes_of_gives {x : Except Fault (α × St)} {v : α} {b : Sched} (h : Gives Rep x v b) :
    Computes x (.ok b) := by
  obtain ⟨s', rfl, hs⟩ := h
  exact hs

/-- A checked addition fails or succeeds on both sides. -/
theorem lockstep_addS32 {R : α → St → β → Prop} {k : Int → M α} {x y : Int}
    {g : Int → Except Fault β} (h : ∀ v, checkS32 (x + y) = .ok v → Lockstep R (k v s) (g v)) :
    Lockstep R ((addS32 x y >>= k) s) (checkS32 (x + y) >>= g) := by
  rw [Runs.run_bind, addS32]
  cases hv : checkS32 (x + y) with
  | error e => exact rfl
  | ok v => exact h v hv

/-- Removing from the null queue writes through stale links or fails, and sorting
into it fails in any case. -/
theorem portAddPrio_null (ht : t ≠ 0) (off : LinkField) (s : St) :
    portAddPrio .null t off s = .error .nullQueue := by
  unfold portAddPrio
  rw [run_bind_ok (tcbGet_ok ht _ s), Runs.run_bind]
  rfl

theorem portRemoveItem_null (ht : t ≠ 0) (off : LinkField) (s : St) :
    portRemoveItem .null t off s = .error .nullQueue ∨
      ∃ s', portRemoveItem .null t off s = .ok ((), s') := by
  unfold portRemoveItem
  rw [run_bind_ok (thrGet_ok ht _ s), run_bind_ok (thrGet_ok ht _ s)]
  by_cases hn : (s.thr t).next off = 0
  · left
    simp only [hn, if_true]
    rfl
  · simp only [hn, if_false]
    rw [run_bind_ok (thrSet_ok hn _ s)]
    by_cases hp : (s.thr t).prev off = 0
    · left
      simp only [hp, if_true]
      rfl
    · right
      simp only [hp, if_false]
      exact ⟨_, thrSet_ok hp _ _⟩

/-- A waiting thread without a queue cannot be sorted in again. -/
theorem portSetEffectivePriority_null (h : Rep s a) (ht : t ≠ 0) (hs : (a.tcb t).state = .waiting)
    (hq : (a.tcb t).queue = .null) (p : Nat) :
    portSetEffectivePriority t p s = .error .nullQueue := by
  unfold portSetEffectivePriority
  rw [← h.tcb] at hs hq
  rw [run_bind_ok (tcbGet_ok ht _ s)]
  simp only [hs]
  rw [run_bind_ok (tcbGet_ok ht _ s)]
  simp only [hq]
  rcases portRemoveItem_null ht .link s with he | ⟨s', he⟩
  · rw [Runs.run_bind, he]
    rfl
  · rw [run_bind_ok he, run_bind_ok (tcbSet_ok ht _ _), Runs.run_bind, portAddPrio_null ht]
    rfl

theorem Rep.portSetEffectivePriority (h : Rep s a) (hc : Core X a) (hX : Adrift X a) (ht : t ≠ 0)
    (h0 : ¬ a.suspended t) (p : Nat) :
    Lockstep (fun v s b => v = b.1 ∧ Rep s b.2) (portSetEffectivePriority t p s)
      (a.setEffectivePriority t p) := by
  have hz : (a.tcb t).suspend = 0 := by
    have := (hc.bounded t).suspend
    simp only [Sched.suspended] at h0
    omega
  cases hs : (a.tcb t).state with
  | waiting =>
    by_cases hq : (a.tcb t).queue = .null
    · rw [portSetEffectivePriority_null h ht hs hq]
      simp [Sched.setEffectivePriority, hs, hq]
    · have hXt : t ∉ X := fun hx => hq (hX t hx).2
      have hw := (hc.placed t hXt).waiting hs
      have hmem : t ∈ a.queue (a.tcb t).queue := hc.mem_home hXt (Tcb.home_waiting hs)
      have hc₁ := hc.takeWait hXt hs
      unfold OSThread.portSetEffectivePriority Sched.setEffectivePriority
      refine lockstep_of_gives (h.tcbGet ht _) fun s₁ h₁ => ?_
      simp only [hs, if_neg hq]
      refine lockstep_of_gives (h₁.tcbGet ht _) fun s₂ h₂ => ?_
      have hrem := h₂.portRemoveItem hq hmem
      rw [hw.field] at hrem
      refine lockstep_of_gives hrem fun s₃ h₃ => ?_
      refine lockstep_of_gives (h₃.tcbSet ht _) fun s₄ h₄ => ?_
      have hadd := h₄.portAddPrio hq ht ?_ ?_
      · rw [hw.field] at hadd
        refine lockstep_of_gives hadd fun s₅ h₅ => ?_
        refine lockstep_of_gives (h₅.tcbGet ht _) fun s₆ h₆ => ?_
        have hmut : ((a.requeue t p).tcb t).mutex = (a.tcb t).mutex := by simp
        by_cases hm : (a.tcb t).mutex = 0
        · have hm' := hmut.trans hm
          simp only [Sched.requeue] at hm'
          simp only [hm', if_true]
          exact ⟨by simp [Sched.nextOwner, hm], h₆⟩
        · have hm' : ((a.requeue t p).tcb t).mutex ≠ 0 := by rwa [hmut]
          simp only [Sched.requeue] at hm'
          simp only [hm', if_false]
          obtain ⟨s₇, he, h₇⟩ := h₆.coreGet hm' (·.thread)
          rw [he]
          exact ⟨by simp [Sched.nextOwner, hm], h₇⟩
      · rw [hw.field]
        exact hc₁.fresh (by simp)
      · simpa using hc₁.length_le (a.tcb t).queue
  | ready =>
    have hXt : t ∉ X := by
      intro hx
      rw [(hX t hx).1] at hs
      cases hs
    unfold OSThread.portSetEffectivePriority Sched.setEffectivePriority
    refine lockstep_of_gives (h.tcbGet ht _) fun s₁ h₁ => ?_
    simp only [hs]
    have hrun := (hc.placed t hXt).ready hs hz
    refine lockstep_of_gives (h₁.portUnsetRun hrun (hc.mem_home hXt (Tcb.home_ready hs hz)))
      fun s₂ h₂ => ?_
    refine lockstep_of_gives (h₂.tcbSet ht _) fun s₃ h₃ => ?_
    refine lockstep_of_gives (h₃.portSetRun ht ?_) fun s₄ h₄ => ⟨rfl, h₄⟩
    exact (hc.unsetRun hXt hs hz).fresh (by simp)
  | running =>
    unfold OSThread.portSetEffectivePriority Sched.setEffectivePriority
    refine lockstep_of_gives (h.tcbGet ht _) fun s₁ h₁ => ?_
    simp only [hs]
    refine lockstep_of_gives (h₁.setHint true) fun s₂ h₂ => ?_
    exact lockstep_of_gives (h₂.tcbSet ht _) fun s₃ h₃ => ⟨rfl, h₃⟩
  | unused =>
    unfold OSThread.portSetEffectivePriority Sched.setEffectivePriority
    refine lockstep_of_gives (h.tcbGet ht _) fun s₁ h₁ => ?_
    simp only [hs]
    exact ⟨rfl, h₁⟩
  | moribund =>
    unfold OSThread.portSetEffectivePriority Sched.setEffectivePriority
    refine lockstep_of_gives (h.tcbGet ht _) fun s₁ h₁ => ?_
    simp only [hs]
    exact ⟨rfl, h₁⟩

theorem Rep.portUpdatePriority (h : Rep s a) (hs : Shape X D H a) (hX : Adrift X a) (n : Nat)
    (t : Addr) : Computes (portUpdatePriority n t s) (Sched.updatePriority n a t) := by
  induction n generalizing s a t with
  | zero => rfl
  | succ n ih =>
    by_cases ht : t = 0
    · subst ht
      rfl
    · unfold OSThread.portUpdatePriority Sched.updatePriority
      refine lockstep_of_gives (h.tcbGet ht _) fun s₁ h₁ => ?_
      rw [if_neg ht]
      by_cases h0 : a.suspended t
      · rw [if_pos h0, if_pos (show 0 < (a.tcb t).suspend from h0)]
        exact h₁
      · have he := h₁.portOSGetEffectivePriority ht (hs.length_owned t)
        rw [if_neg h0, if_neg (show ¬ 0 < (a.tcb t).suspend from h0), run_bind_ok he]
        refine lockstep_of_gives (h₁.tcbGet ht _) fun s₂ h₂ => ?_
        by_cases hp : a.prio t = a.effectivePriority t
        · rw [if_pos hp, if_pos (show (a.tcb t).priority = a.effectivePriority t from hp)]
          exact h₂
        · rw [if_neg hp, if_neg (show ¬ (a.tcb t).priority = a.effectivePriority t from hp)]
          refine lockstep_bind (h₂.portSetEffectivePriority hs.core hX ht h0 _) ?_
          rintro v s₃ ⟨_, b⟩ hb ⟨rfl, h₃⟩
          by_cases hz : v = 0
          · simp only [hz, if_true]
            exact h₃
          · simp only [hz, if_false]
            have hc := hs.core.setEffectivePriority hX h0 (hs.core.effectivePriority_le t) hb
            have hr := Sched.Reprio.setEffectivePriority h0 hb
            exact ih h₃ (hs.reprio hc hr) (hX.setEffectivePriority hb) v

theorem Rep.portOSPromoteThread (h : Rep s a) (hs : Shape X D H a) (hX : Adrift X a) (ht : t ≠ 0)
    {p : Nat} (hp : p ≤ 31) (n : Nat) :
    Computes (portOSPromoteThread p n t s) (Sched.promoteThread p n a t) := by
  induction n generalizing s a t with
  | zero => rfl
  | succ n ih =>
    unfold OSThread.portOSPromoteThread Sched.promoteThread
    refine lockstep_of_gives (h.tcbGet ht _) fun s₁ h₁ => ?_
    by_cases h0 : a.suspended t
    · rw [if_pos h0, if_pos (show 0 < (a.tcb t).suspend from h0)]
      exact h₁
    · rw [if_neg h0, if_neg (show ¬ 0 < (a.tcb t).suspend from h0)]
      refine lockstep_of_gives (h₁.tcbGet ht _) fun s₂ h₂ => ?_
      by_cases hle : a.prio t ≤ p
      · rw [if_pos hle, if_pos (show (a.tcb t).priority ≤ p from hle)]
        exact h₂
      · rw [if_neg hle, if_neg (show ¬ (a.tcb t).priority ≤ p from hle)]
        refine lockstep_bind (h₂.portSetEffectivePriority hs.core hX ht h0 _) ?_
        rintro v s₃ ⟨_, b⟩ hb ⟨rfl, h₃⟩
        by_cases hz : v = 0
        · simp only [hz, if_true]
          exact h₃
        · simp only [hz, if_false]
          have hc := hs.core.setEffectivePriority hX h0 hp hb
          have hr := Sched.Reprio.setEffectivePriority h0 hb
          exact ih h₃ (hs.reprio hc hr) (hX.setEffectivePriority hb) hz

theorem Rep.updateOwner (h : Rep s a) (hs : Shape X D H a) (hX : Adrift X a) (ht : t ≠ 0) (n : Nat) :
    Computes (updateOwner n t s) (a.updateOwner n t) := by
  unfold OSThread.updateOwner Sched.updateOwner
  refine lockstep_of_gives (h.tcbGet ht _) fun s₁ h₁ => ?_
  by_cases hm : (a.tcb t).mutex = 0
  · rw [if_pos hm, if_pos hm]
    exact h₁
  · rw [if_neg hm, if_neg hm]
    exact lockstep_of_gives (h₁.coreGet hm _) fun s₂ h₂ => h₂.portUpdatePriority hs hX n _

/-- Whoever is dispatched comes off the best run queue. -/
theorem Rep.selectNext (h : Rep s a) (hc : Core X a) :
    ∃ v, Gives Rep (selectNext s) v a.selectNext := by
  have hc₀ : a.runQueueBits ≠ 0 ↔ a.queue (.runQueue (portCntlzw a.runQueueBits)) ≠ [] :=
    hc.bits_ne_zero
  unfold OSThread.selectNext Sched.selectNext
  obtain ⟨s₁, he₁, h₁⟩ := h.setCurrent 0
  obtain ⟨s₂, he₂, h₂⟩ := h₁.getBits
  rw [run_bind_ok he₁, run_bind_ok he₂]
  by_cases hb : a.runQueueBits = 0
  · exact ⟨0, s₂, by simp [hb], by simpa [hb] using h₂⟩
  · have hne := hc₀.mp hb
    obtain ⟨u, l, hl⟩ := List.exists_cons_of_ne_nil hne
    have hu : u ≠ 0 := (hc.mem_slot (q := .runQueue (portCntlzw a.runQueueBits)) (by simp [hl])).1
    refine ⟨u, ?_⟩
    simp only [hb, if_false]
    refine gives_bind (h₂.setHint false) fun s₃ h₃ => ?_
    refine gives_bind h₃.getBits fun s₄ h₄ => ?_
    have hl' : (({ a with currentThread := 0 } : Sched).setHint false).queue
      (.runQueue (portCntlzw a.runQueueBits)) = u :: l := hl
    refine gives_bind (h₄.portRemoveHead (q := .runQueue _) (by simp) hl') fun s₅ h₅ => ?_
    refine h₅.clearBit (q := .runQueue _) (k := fun _ => _) (by simp) _ fun s₆ h₆ => ?_
    refine gives_bind (h₆.tcbSet hu _) fun s₇ h₇ => ?_
    refine gives_bind (h₇.tcbSet hu _) fun s₈ h₈ => ?_
    refine gives_bind (h₈.setCurrent u) fun s₉ h₉ => ?_
    refine gives_pure _ ?_
    rw [Sched.modT_modT] at h₉
    rw [hl]
    exact h₉

end SdkPort.OSThread
