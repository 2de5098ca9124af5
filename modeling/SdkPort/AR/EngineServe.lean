import SdkPort.AR.EngineSteps
import Mathlib.Logic.Function.Iterate

/-!
# The engine never stalls

Serving the queues starts a transfer whenever there is work, so one is outstanding
until everything has completed, and each interrupt reduces the transfers that are left.
-/
namespace SdkPort.ARQ.Engine

open Function (update update_self update_of_ne)

variable {c : Nat} {e : Engine} {p : Prio} {t : Ticket} {d : DMARecord} {ds : List DMARecord}

theorem inFlight_high (h : e.current .high ≠ none) : e.inFlight = some .high := by
  simp [inFlight, Option.isSome_iff_ne_none.mpr h]

theorem inFlight_low (h : e.current .high = none) (hl : e.current .low ≠ none) :
    e.inFlight = some .low := by
  simp [inFlight, h, Option.isSome_iff_ne_none.mpr hl]

theorem inFlight_eq_none : e.inFlight = none ↔ e.current .high = none ∧ e.current .low = none := by
  unfold inFlight
  cases e.current .high <;> cases e.current .low <;> simp

theorem inFlight_eq_high : e.inFlight = some .high ↔ e.current .high ≠ none := by
  unfold inFlight
  cases e.current .high <;> cases e.current .low <;> simp

theorem inFlight_eq_low :
    e.inFlight = some .low ↔ e.current .high = none ∧ e.current .low ≠ none := by
  unfold inFlight
  cases e.current .high <;> cases e.current .low <;> simp

/-- The request whose transfer is outstanding. -/
theorem exists_current (h : e.inFlight = some p) : ∃ t, e.current p = some t := by
  apply Option.ne_none_iff_exists'.mp
  cases p with
  | high => exact inFlight_eq_high.mp h
  | low => exact (inFlight_eq_low.mp h).2

/-- A transfer is started. -/
theorem Core.steady_start (h : Core c e) (hc : e.current p = some t) (hd : e.todo p = d :: ds)
    (hcount : (starts e.log).length = irqs e.log)
    (hhigh : p = .high → ds = [] ∧ (e.current .low ≠ none → e.todo .low ≠ []))
    (hlow : p = .low → e.current .high = none ∧ e.queue .high = []) : Steady c (e.start p) := by
  have hcore := h.start hc hd hcount fun hp u hu => h.all_done (hlow hp).1 (hlow hp).2 hu
  have hfl : (e.start p).inFlight = some p := by
    rw [start_eq hc hd]
    cases p with
    | high => exact inFlight_high (by simp [hc])
    | low => exact inFlight_low (hlow rfl).1 (by simp [hc])
  refine ⟨hcore, ?_, ?_, ?_, ?_, ?_⟩
  · simp [hfl]
  · rw [start_eq hc hd]
    cases p with
    | high => simpa using (hhigh rfl).1
    | low => simpa using h.rest .high (hlow rfl).1
  · rw [start_eq hc hd]
    cases p with
    | high => simpa using fun _ => (hhigh rfl).2
    | low => simp [(hlow rfl).1]
  · rw [hfl, start_eq hc hd]
    simp [hcount]
  · intro p' t' hp ht'
    rw [hfl] at hp
    cases hp
    rw [start_eq hc hd] at ht' ⊢
    cases hc.symm.trans ht'
    simp

/-- What is left to start. -/
def rest (c : Nat) (e : Engine) : Nat :=
  ((e.queue .high).map (·.job.transfers c |>.length)).sum +
    ((e.queue .low).map (·.job.transfers c |>.length)).sum + (e.todo .low).length

/-- What is left to end. -/
def work (c : Nat) (e : Engine) : Nat := rest c e + if e.inFlight = none then 0 else 1

theorem Core.transfers_high (h : Core c e) (ht : t ∈ e.queue .high) :
    t.job.transfers c = [transfer t.job.type t.job.source t.job.dest t.job.length] := by
  have hp := (mem_ticketsOf.mp (h.mem_iff.mpr (.inr (.inr ht)))).2
  rw [Job.transfers, hp]

/-- A waiting high-priority request is started. -/
theorem Ready.serveHigh (h : Ready c e) (hq : e.queue .high ≠ []) :
    Steady c (e.serveHigh c) ∧ (e.serveHigh c).current .high ≠ none ∧
      work c (e.serveHigh c) = rest c e ∧ dones (e.serveHigh c).log = dones e.log := by
  obtain ⟨t, l, hq⟩ := List.exists_cons_of_ne_nil hq
  have htr := h.core.transfers_high (t := t) (by simp [hq])
  have hcore := h.core.take .high
  have hlow := h.low
  have htake := take_eq (c := c) h.high hq
  have hc : (e.take c .high).current .high = some t := by simp [htake]
  have hd : (e.take c .high).todo .high = [transfer t.job.type t.job.source t.job.dest t.job.length] := by
    simp [htake, htr]
  have hst := hcore.steady_start hc hd (by simpa [htake] using h.count)
    (fun _ => ⟨rfl, by simpa [htake] using hlow⟩) nofun
  have hcur : (e.serveHigh c).current .high ≠ none := by
    rw [Engine.serveHigh, start_eq hc hd]
    simp [hc]
  refine ⟨hst, hcur, ?_, ?_⟩
  · rw [work, inFlight_high hcur, Engine.serveHigh, start_eq hc hd, htake]
    simp [rest, hq, htr]
    omega
  · rw [Engine.serveHigh, start_eq hc hd, htake]
    simp

/-- With no high-priority request waiting, the low queue is served. -/
theorem Ready.serveLow (h : Ready c e) (hq : e.queue .high = []) :
    Steady c (e.serveLow c) ∧ work c (e.serveLow c) = rest c e ∧
      dones (e.serveLow c).log = dones e.log := by
  unfold Engine.serveLow
  cases hc : e.current .low with
  | some t =>
    obtain ⟨d, ds, hd⟩ := List.exists_cons_of_ne_nil (h.low (by simp [hc]))
    rw [take_self (.inl (by simp [hc]))]
    have hst := h.core.steady_start hc hd h.count nofun fun _ => ⟨h.high, hq⟩
    rw [start_eq hc hd] at hst ⊢
    refine ⟨hst, ?_, by simp⟩
    rw [work, if_neg (by simp [inFlight_eq_none, hc])]
    simp [rest, hd]
    omega
  | none =>
    have hrest := h.core.rest .low hc
    cases hql : e.queue .low with
    | nil =>
      rw [take_self (.inr hql), start_self hc]
      have hfl : e.inFlight = none := inFlight_eq_none.mpr ⟨h.high, hc⟩
      refine ⟨⟨h.core, ?_, h.core.rest .high h.high, by simp [h.high], by simp [hfl, h.count],
        by simp [hfl]⟩, ?_, rfl⟩
      · intro _ p
        cases p with
        | high => exact hq
        | low => exact hql
      · simp [work, hfl]
    | cons t l =>
      have hcore := h.core.take .low
      obtain ⟨d, ds, hd⟩ := List.exists_cons_of_ne_nil (t.job.transfers_ne_nil c)
      have htake := take_eq (c := c) hc hql
      have hc' : (e.take c .low).current .low = some t := by simp [htake]
      have hd' : (e.take c .low).todo .low = d :: ds := by simp [htake, hd]
      have hst := hcore.steady_start hc' hd' (by simpa [htake] using h.count) nofun
        fun _ => ⟨by simpa [htake] using h.high, by simpa [htake] using hq⟩
      rw [start_eq hc' hd', htake] at hst ⊢
      refine ⟨hst, ?_, by simp⟩
      rw [work, if_neg (by simp [inFlight_eq_none])]
      simp [rest, hql, hd, hrest]
      omega

/-- Something is left to start for a request that is taken. -/
theorem Ready.take_low (h : Ready c e) (hc : (e.take c .low).current .low ≠ none) :
    (e.take c .low).todo .low ≠ [] := by
  by_cases hself : e.current .low ≠ none ∨ e.queue .low = []
  · rw [take_self hself] at hc ⊢
    exact h.low hc
  · simp only [not_or, not_not] at hself
    obtain ⟨t, l, hq⟩ := List.exists_cons_of_ne_nil hself.2
    rw [take_eq hself.1 hq]
    simpa using t.job.transfers_ne_nil c

theorem serveHigh_self (h : e.current .high = none) (hq : e.queue .high = []) :
    e.serveHigh c = e := by
  rw [Engine.serveHigh, take_self (.inr hq), start_self h]

/-- Serving the queues settles the engine, and starts something if there is anything. -/
theorem Ready.serve (h : Ready c e) :
    Steady c (e.serve c) ∧ work c (e.serve c) = rest c e ∧ dones (e.serve c).log = dones e.log := by
  unfold Engine.serve
  by_cases hq : e.queue .high = []
  · rw [serveHigh_self h.high hq, if_pos h.high]
    exact h.serveLow hq
  · obtain ⟨hst, hc, hw, hd⟩ := h.serveHigh hq
    rw [if_neg hc]
    exact ⟨hst, hw, hd⟩

/-- The end of the outstanding transfer. -/
theorem Steady.finish (h : Steady c e) (hp : e.inFlight = some p) (ht : e.current p = some t) :
    Ready c (e.emit .irq).finish ∧ rest c (e.emit .irq).finish = rest c e ∧
      dones (e.emit .irq).finish.log = dones e.log ++ if e.todo p = [] then [t.id] else [] := by
  have hcount : (starts e.log).length = irqs e.log + 1 := by simpa [hp] using h.count
  have hirq := h.core.irq (by omega)
  have hfl : (e.emit .irq).inFlight = some p := hp
  unfold Engine.finish
  rw [hfl]
  by_cases hd : e.todo p = []
  · have hd' : (e.emit .irq).todo p = [] := hd
    have hc' : (e.emit .irq).current p = some t := ht
    have hcore := hirq.complete hc' hd' rfl (h.last p t hp ht)
    simp only [hd', if_true, hd]
    rw [complete_eq hc'] at hcore ⊢
    refine ⟨⟨hcore, ?_, ?_, ?_⟩, rfl, ?_⟩
    · cases p with
      | high => simp
      | low => exact (inFlight_eq_low.mp hp).1
    · cases p with
      | high => simpa [emit] using h.paused (by simp [ht])
      | low => simp
    · simp only [emit, starts_append, starts_irq, starts_done, irqs_append, irqs_irq, irqs_done,
        List.append_nil, hcount]
    · simp only [emit, dones_append, dones_irq, dones_done, List.append_nil]
  · have hd' : (e.emit .irq).todo p ≠ [] := hd
    simp only [hd', if_false, hd, List.append_nil]
    cases p with
    | high => exact absurd h.whole hd
    | low =>
      refine ⟨⟨hirq, (inFlight_eq_low.mp hp).1, fun _ => hd, ?_⟩, rfl, by simp [emit]⟩
      simp [emit, hcount]

/-- One interrupt: the engine stays steady with one transfer less to end, and the request
completes if that was its last one. -/
theorem Steady.interrupt (h : Steady c e) (hp : e.inFlight = some p) (ht : e.current p = some t) :
    Steady c (e.interrupt c) ∧ work c (e.interrupt c) + 1 = work c e ∧
      dones (e.interrupt c).log = dones e.log ++ if e.todo p = [] then [t.id] else [] := by
  obtain ⟨hr, hrest, hd⟩ := h.finish hp ht
  obtain ⟨hst, hw, hd'⟩ := hr.serve
  refine ⟨hst, ?_, hd'.trans hd⟩
  rw [Engine.interrupt, hw, hrest, work, hp]
  simp

/-- A post to an idle engine. -/
theorem Steady.ready_post (h : Steady c e) (hfl : e.inFlight = none) (j : Job) :
    Ready c ((e.emit (.post j)).push ⟨(posts e.log).length, j⟩) := by
  obtain ⟨h₁, h₂⟩ := inFlight_eq_none.mp hfl
  refine ⟨h.core.push j, h₁, fun hne => absurd h₂ hne, ?_⟩
  have hcount := h.count
  simp only [hfl, if_true] at hcount
  simpa [push, emit] using hcount

/-- One post: nothing completes. -/
theorem Steady.post (h : Steady c e) (j : Job) :
    Steady c (e.post c j) ∧ dones (e.post c j).log = dones e.log := by
  have hcore := h.core.push j
  unfold Engine.post
  by_cases hfl : e.inFlight = none
  · have hfl' : ((e.emit (.post j)).push ⟨(posts e.log).length, j⟩).inFlight = none := hfl
    obtain ⟨hst, _, hd⟩ := (h.ready_post hfl j).serve
    simp only [hfl', if_true]
    exact ⟨hst, hd.trans (by simp [push, emit])⟩
  · have hfl' : ¬ ((e.emit (.post j)).push ⟨(posts e.log).length, j⟩).inFlight = none := hfl
    simp only [hfl', if_false]
    refine ⟨⟨hcore, fun hn => absurd hn hfl', h.whole, h.paused, ?_, ?_⟩, by simp [push, emit]⟩
    · have hcount := h.count
      simp only [hfl, if_false] at hcount
      simp only [hfl', if_false]
      simpa [push, emit] using hcount
    · intro p t hp ht
      simpa [push, emit] using h.last p t hp ht

theorem Steady.empty (c : Nat) : Steady c empty := by
  refine ⟨⟨?_, fun _ _ => rfl, ?_, ?_, ?_, fun _ _ => rfl, ?_, Trace.always_nil _⟩, fun _ _ => rfl,
    rfl, ?_, rfl, ?_⟩
  · intro p
    rfl
  · exact fun p t ht => absurd ht List.not_mem_nil
  · exact fun p t ht => absurd ht (by simp [Engine.empty])
  · exact fun p t ht => absurd ht List.not_mem_nil
  · exact .refl _
  · exact fun hn => absurd rfl hn
  · exact fun p t _ ht => absurd ht (by simp [Engine.empty])

/-- When no transfer is outstanding, every request has completed. -/
theorem Steady.all_done (h : Steady c e) (hfl : e.inFlight = none) (ht : t ∈ tickets e.log) :
    t.id ∈ dones e.log := by
  obtain ⟨h₁, h₂⟩ := inFlight_eq_none.mp hfl
  have hm : t ∈ ticketsOf t.job.prio e.log := mem_ticketsOf.mpr ⟨ht, rfl⟩
  refine h.core.all_done ?_ (h.idle hfl _) hm
  cases t.job.prio with
  | high => exact h₁
  | low => exact h₂

/-- Interrupts drain the engine. -/
theorem Steady.drain (h : Steady c e) : ((Engine.interrupt c)^[work c e] e).inFlight = none ∧
    ∀ n < work c e, ((Engine.interrupt c)^[n] e).inFlight ≠ none := by
  generalize hw : work c e = n
  induction n generalizing e with
  | zero =>
    refine ⟨?_, fun n hn => absurd hn (Nat.not_lt_zero n)⟩
    rw [work] at hw
    by_contra hne
    rw [Function.iterate_zero_apply] at hne
    simp [hne] at hw
  | succ n ih =>
    cases hp : e.inFlight with
    | none =>
      have hq := h.idle hp
      have hl := h.core.rest .low (inFlight_eq_none.mp hp).2
      simp [work, rest, hp, hq, hl] at hw
    | some p =>
      obtain ⟨t, ht⟩ := exists_current hp
      obtain ⟨hst, hwork, _⟩ := h.interrupt hp ht
      obtain ⟨h₁, h₂⟩ := ih hst (by omega)
      refine ⟨by rwa [Function.iterate_succ_apply], ?_⟩
      intro m hm
      cases m with
      | zero => simp [hp]
      | succ m =>
        rw [Function.iterate_succ_apply]
        exact h₂ m (by omega)

end SdkPort.ARQ.Engine
