import SdkPort.AR.ArqTransfer
import Mathlib.Data.List.Induction

/-!
# The order of transfers

At most one transfer is outstanding, high-priority requests go before the chunks of
low-priority ones, requests of one priority follow each other, and the engine is never
idle with work queued.
-/
namespace SdkPort.ARQ

open Trace (Always always_snoc)

variable {c : Nat} {ρ : Run} {P : Job → Prop} {l : List Event}

/-- Interrupts and transfers take turns. -/
theorem lawful_alternates (h : Always (Lawful c) l) :
    irqs l ≤ (starts l).length ∧ (starts l).length ≤ irqs l + 1 := by
  induction l using List.reverseRecOn with
  | nil => exact ⟨Nat.le_refl 0, Nat.zero_le 1⟩
  | append_singleton l v ih =>
    obtain ⟨hl, hv⟩ := always_snoc.mp h
    obtain ⟨h₁, h₂⟩ := ih hl
    cases v with
    | post j => simpa using ⟨h₁, h₂⟩
    | irq =>
      have hlt : irqs l < (starts l).length := hv
      simp only [irqs_append, irqs_irq, starts_append, starts_irq, List.append_nil]
      omega
    | dma i d =>
      have heq : (starts l).length = irqs l := hv.1
      simp only [irqs_append, irqs_dma, starts_append, starts_dma, List.length_append,
        List.length_singleton]
      omega
    | done i => simpa using ⟨h₁, h₂⟩

theorem always_of_append {u v : List Event} (h : Always (Lawful c) (u ++ v)) : Always (Lawful c) u := by
  intro a e b he
  apply h a e (b ++ v)
  rw [he, List.append_assoc, List.cons_append]

/-- The scheduling discipline. At every moment of a run at most one transfer is outstanding,
and after each step one is exactly if a request is pending. A transfer starts only when the
earlier requests of its priority have completed, and one of low priority only when all
high-priority requests posted have. Requests of one priority complete in posting order. With
no transfer outstanding both queues are empty and everything posted has completed. -/
theorem reached_disciplined (h : Reached P c ρ) :
    (∀ u v, ρ.log = u ++ v → irqs u ≤ (starts u).length ∧ (starts u).length ≤ irqs u + 1) ∧
    (ρ.Outstanding ↔ ρ.st.pendingHi ≠ 0 ∨ ρ.st.pendingLo ≠ 0) ∧
    (∀ u i d v, ρ.log = u ++ .dma i d :: v → ∃ t ∈ tickets u, t.id = i ∧ ∀ t' ∈ tickets u,
      t'.job.prio = t.job.prio ∧ t'.id < t.id ∨ t.job.prio = .low ∧ t'.job.prio = .high →
        t'.id ∈ dones u) ∧
    (∀ u i v, ρ.log = u ++ .done i :: v → ∃ t ∈ tickets u, t.id = i ∧ ∀ t' ∈ tickets u,
      t'.job.prio = t.job.prio → t'.id < t.id → t'.id ∈ dones u) ∧
    (¬ ρ.Outstanding → ρ.st.queueHi = 0 ∧ ρ.st.queueLo = 0 ∧
      ∀ t ∈ tickets ρ.log, t.id ∈ dones ρ.log) := by
  obtain ⟨e, he⟩ := h.shows
  obtain ⟨q, hr⟩ := he.rep
  have hlaw : Always (Lawful c) ρ.log := by
    rw [he.log]
    exact he.steady.core.law
  refine ⟨?_, ?_, ?_, ?_, ?_⟩
  · intro u v hu
    rw [hu] at hlaw
    exact lawful_alternates (always_of_append hlaw)
  · have h₁ : ρ.st.pendingHi = 0 ↔ e.current .high = none := hr.pending_iff .high
    have h₂ : ρ.st.pendingLo = 0 ↔ e.current .low = none := hr.pending_iff .low
    rw [he.outstanding_iff, ne_eq, Engine.inFlight_eq_none, ← h₁, ← h₂, not_and_or]
  · intro u i d v hu
    obtain ⟨_, t, ht, hi, _, hb⟩ := hlaw u _ v hu
    exact ⟨t, ht, hi, hb⟩
  · intro u i v hu
    obtain ⟨t, ht, hi, _, hb, _⟩ := hlaw u _ v hu
    exact ⟨t, ht, hi, hb⟩
  · intro ho
    have hfl : e.inFlight = none := by
      by_contra hne
      exact ho (he.outstanding_iff.mpr hne)
    have hq := he.steady.idle hfl
    refine ⟨(hr.head_iff .high).mpr (hq .high), (hr.head_iff .low).mpr (hq .low), ?_⟩
    intro t ht
    rw [he.log] at ht ⊢
    exact he.steady.all_done hfl ht

/-- A chunk of the low-priority request was started before the other was posted. -/
theorem mixed_disciplined : mixedRun.Outstanding ∧
    (mixedRun.st.pendingHi ≠ 0 ∨ mixedRun.st.pendingLo ≠ 0) := by
  have hout : mixedRun.Outstanding := by
    show _ < _
    decide +kernel
  exact ⟨hout, (reached_disciplined (reached_mixedRun (P := fun _ => True) trivial trivial)).2.1.mp hout⟩

end SdkPort.ARQ
