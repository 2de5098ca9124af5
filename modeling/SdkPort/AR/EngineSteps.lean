import SdkPort.AR.Engine

/-!
# The engine keeps its books

Taking a request, starting a transfer, completing a request and posting one each
preserve the invariant. From these, one post and one interrupt keep the engine steady.
-/
namespace SdkPort.ARQ.Engine

open Function (update update_self update_of_ne)
open Trace (Always always_nil always_snoc)

variable {c : Nat} {e : Engine} {p : Prio} {t t' : Ticket} {d : DMARecord} {ds : List DMARecord}

theorem Core.mem_iff (h : Core c e) : t ∈ ticketsOf p e.log ↔
    t ∈ e.served p ∨ e.current p = some t ∨ t ∈ e.queue p := by
  rw [h.order p]
  simp [Option.mem_toList]

/-- A current request is one of its own priority. -/
theorem Core.prio_current (h : Core c e) (ht : e.current p = some t) : t.job.prio = p :=
  (mem_ticketsOf.mp (h.mem_iff.mpr (.inr (.inl ht)))).2

theorem Core.mem_current (h : Core c e) (ht : e.current p = some t) : t ∈ tickets e.log :=
  (mem_ticketsOf.mp (h.mem_iff.mpr (.inr (.inl ht)))).1

theorem Core.done_iff (h : Core c e) (i : Nat) :
    i ∈ dones e.log ↔ ∃ p, ∃ t ∈ e.served p, t.id = i := by
  rw [h.completed.mem_iff, List.mem_map]
  constructor
  · intro ⟨t, ht, hi⟩
    cases List.mem_append.mp ht with
    | inl hm => exact ⟨.high, t, hm, hi⟩
    | inr hm => exact ⟨.low, t, hm, hi⟩
  · intro ⟨p, t, ht, hi⟩
    refine ⟨t, ?_, hi⟩
    cases p with
    | high => exact List.mem_append_left _ ht
    | low => exact List.mem_append_right _ ht

/-- A request that precedes the current one has been served. -/
theorem Core.earlier (h : Core c e) (ht : e.current p = some t) (hm : t' ∈ ticketsOf p e.log)
    (hlt : t'.id < t.id) : t' ∈ e.served p := by
  have hs := ticketsOf_sorted p e.log
  rw [h.order p, ht] at hs
  cases h.mem_iff.mp hm with
  | inl hv => exact hv
  | inr hr =>
    cases hr with
    | inl hc =>
      rw [ht] at hc
      cases hc
      exact absurd hlt (Nat.lt_irrefl _)
    | inr hq =>
      have hgt := (List.pairwise_append.mp hs).2.2 t (by simp) t' hq
      exact absurd hlt (Nat.lt_asymm hgt)

theorem Core.not_done (h : Core c e) (ht : e.current p = some t) : t.id ∉ dones e.log := by
  intro hd
  obtain ⟨p', u, hu, hi⟩ := (h.done_iff _).mp hd
  have hmu := mem_ticketsOf.mp (h.mem_iff.mpr (.inl hu))
  have he := ticket_ext hmu.1 (h.mem_current ht) hi
  subst he
  have hpp : p' = p := hmu.2.symm.trans (h.prio_current ht)
  subst hpp
  have hs := ticketsOf_sorted p' e.log
  rw [h.order p', ht, List.append_assoc] at hs
  exact absurd ((List.pairwise_append.mp hs).2.2 u hu u (by simp)) (Nat.lt_irrefl _)

/-- When nothing of a priority waits, all of it has completed. -/
theorem Core.all_done (h : Core c e) (hc : e.current p = none) (hq : e.queue p = [])
    (ht : t ∈ ticketsOf p e.log) : t.id ∈ dones e.log := by
  cases h.mem_iff.mp ht with
  | inl hs => exact (h.done_iff _).mpr ⟨p, t, hs, rfl⟩
  | inr hr => simp [hc, hq] at hr

theorem take_eq {l : List Ticket} (hc : e.current p = none) (hq : e.queue p = t :: l) :
    e.take c p = { e with
      queue := update e.queue p l, current := update e.current p (some t)
      todo := update e.todo p (t.job.transfers c) } := by
  simp [take, hc, hq]

theorem take_self (h : e.current p ≠ none ∨ e.queue p = []) : e.take c p = e := by
  unfold take
  split
  · rename_i t l hc hq
    simp [hc, hq] at h
  · rfl

theorem Core.take (h : Core c e) (p : Prio) : Core c (e.take c p) := by
  by_cases hself : e.current p ≠ none ∨ e.queue p = []
  · rw [take_self hself]
    exact h
  · simp only [not_or, not_not] at hself
    obtain ⟨hc, hq⟩ := hself
    obtain ⟨t, l, hq⟩ := List.exists_cons_of_ne_nil hq
    rw [take_eq hc hq]
    have ht : dmas e.log t.id = [] := h.queued p t (by simp [hq])
    refine ⟨?_, ?_, h.served, ?_, ?_, h.unposted, h.completed, h.law⟩
    · intro p'
      rw [h.order p']
      by_cases hp : p' = p
      · subst hp
        simp [hc, hq]
      · simp [hp]
    · intro p' hn
      by_cases hp : p' = p
      · subst hp
        simp at hn
      · simp only [update_of_ne hp] at hn ⊢
        exact h.rest p' hn
    · intro p' u hu
      by_cases hp : p' = p
      · subst hp
        simp only [update_self, Option.some.injEq] at hu
        subst hu
        simp [ht]
      · simp only [update_of_ne hp] at hu ⊢
        exact h.current p' u hu
    · intro p' u hu
      by_cases hp : p' = p
      · subst hp
        simp only [update_self] at hu
        exact h.queued p' u (by simp [hq, hu])
      · simp only [update_of_ne hp] at hu
        exact h.queued p' u hu

theorem start_eq (hc : e.current p = some t) (hd : e.todo p = d :: ds) :
    e.start p = { e with todo := update e.todo p ds, log := e.log ++ [.dma t.id d] } := by
  simp [start, hc, hd]

theorem start_self (h : e.current p = none) : e.start p = e := by
  simp [start, h]

theorem Core.start (h : Core c e) (hc : e.current p = some t) (hd : e.todo p = d :: ds)
    (hcount : (starts e.log).length = irqs e.log)
    (hlow : p = .low → ∀ u ∈ ticketsOf .high e.log, u.id ∈ dones e.log) : Core c (e.start p) := by
  rw [start_eq hc hd]
  have hmem := h.mem_current hc
  have hprio := h.prio_current hc
  have hnd := h.not_done hc
  -- the transfers of other requests stay as they are
  have hne : ∀ {p' u}, u ∈ ticketsOf p' e.log → u ≠ t → dmas [.dma t.id d] u.id = [] := by
    intro p' u hu hut
    exact dmas_dma_ne (fun he => hut (ticket_ext (mem_ticketsOf.mp hu).1 hmem he.symm)) d
  have hsv : ∀ {p' u}, u ∈ e.served p' → u ≠ t := by
    intro p' u hu he
    subst he
    exact hnd ((h.done_iff _).mpr ⟨p', u, hu, rfl⟩)
  refine ⟨?_, ?_, ?_, ?_, ?_, ?_, ?_, always_snoc.mpr ⟨h.law, hcount, t, hmem, rfl, hnd, ?_⟩⟩
  · intro p'
    rw [ticketsOf_congr (l := e.log) (by simp)]
    exact h.order p'
  · intro p' hn
    have hp : p' ≠ p := by
      intro hp
      subst hp
      simp [hc] at hn
    simp only [update_of_ne hp]
    exact h.rest p' hn
  · intro p' u hu
    rw [dmas_append, hne (h.mem_iff.mpr (.inl hu)) (hsv hu), List.append_nil]
    exact h.served p' u hu
  · intro p' u hu
    by_cases hp : p' = p
    · subst hp
      rw [hc] at hu
      cases hu
      have hx := h.current p' t hc
      rw [hd] at hx
      simpa using hx
    · have hut : u ≠ t := by
        intro he
        subst he
        exact hp ((h.prio_current hu).symm.trans hprio)
      simp only [update_of_ne hp]
      rw [dmas_append, hne (h.mem_iff.mpr (.inr (.inl hu))) hut, List.append_nil]
      exact h.current p' u hu
  · intro p' u hu
    have hut : u ≠ t := by
      intro he
      subst he
      have hx := h.current p u hc
      rw [hd, h.queued p' u hu] at hx
      have hpp : p' = p := (mem_ticketsOf.mp (h.mem_iff.mpr (.inr (.inr hu)))).2.symm.trans hprio
      subst hpp
      have hs := ticketsOf_sorted p' e.log
      rw [h.order p', hc] at hs
      exact absurd ((List.pairwise_append.mp hs).2.2 u (by simp) u hu) (Nat.lt_irrefl _)
    rw [dmas_append, hne (h.mem_iff.mpr (.inr (.inr hu))) hut, List.append_nil]
    exact h.queued p' u hu
  · intro i hi
    have hlt := id_lt hmem
    simp only [posts_append, posts_dma, List.append_nil] at hi
    rw [dmas_append, dmas_dma_ne (by omega), h.unposted i hi, List.append_nil]
  · rw [dones_append, dones_dma, List.append_nil]
    exact h.completed
  · intro u hu hcase
    cases hcase with
    | inl hs =>
      have hmu : u ∈ ticketsOf p e.log := mem_ticketsOf.mpr ⟨hu, hs.1.trans hprio⟩
      exact (h.done_iff _).mpr ⟨p, u, h.earlier hc hmu hs.2, rfl⟩
    | inr hs => exact hlow (hprio.symm.trans hs.1) u (mem_ticketsOf.mpr ⟨hu, hs.2⟩)

theorem complete_eq (hc : e.current p = some t) :
    e.complete p = { e with
      current := update e.current p none, served := update e.served p (e.served p ++ [t])
      log := e.log ++ [.done t.id] } := by
  simp [complete, hc]

theorem Core.complete {k : List Event} (h : Core c e) (hc : e.current p = some t)
    (hd : e.todo p = []) (hk : e.log = k ++ [.irq]) (hlast : (starts k).getLast? = some t.id) :
    Core c (e.complete p) := by
  rw [complete_eq hc]
  have hmem := h.mem_current hc
  have hprio := h.prio_current hc
  have hsent : dmas e.log t.id = t.job.transfers c := by
    have hx := h.current p t hc
    rwa [hd, List.append_nil] at hx
  refine ⟨?_, ?_, ?_, ?_, ?_, ?_, ?_, always_snoc.mpr ⟨h.law, t, hmem, rfl, h.not_done hc, ?_, k, hk,
    hlast, ?_⟩⟩
  · intro p'
    rw [ticketsOf_congr (l := e.log) (by simp), h.order p']
    by_cases hp : p' = p
    · subst hp
      simp [hc]
    · simp [hp]
  · intro p' hn
    by_cases hp : p' = p
    · subst hp
      exact hd
    · exact h.rest p' (by simpa [hp] using hn)
  · intro p' u hu
    rw [dmas_append, dmas_done, List.append_nil]
    by_cases hp : p' = p
    · subst hp
      simp only [update_self, List.mem_append, List.mem_singleton] at hu
      cases hu with
      | inl hs => exact h.served p' u hs
      | inr he => rw [he, hsent]
    · simp only [update_of_ne hp] at hu
      exact h.served p' u hu
  · intro p' u hu
    rw [dmas_append, dmas_done, List.append_nil]
    by_cases hp : p' = p
    · subst hp
      simp at hu
    · simp only [update_of_ne hp] at hu
      exact h.current p' u hu
  · intro p' u hu
    rw [dmas_append, dmas_done, List.append_nil]
    exact h.queued p' u hu
  · intro i hi
    rw [dmas_append, dmas_done, List.append_nil]
    exact h.unposted i (by simpa using hi)
  · rw [dones_append, dones_done]
    have hx := h.completed.append_right [t.id]
    cases p with
    | high =>
      refine hx.trans ?_
      simp only [update_self, List.map_append, List.map_cons, List.map_nil, List.append_assoc]
      have hcomm : ((e.served .low).map (·.id) ++ [t.id]).Perm ([t.id] ++ (e.served .low).map (·.id)) :=
        List.perm_append_comm
      simpa using hcomm.append_left _
    | low => simpa using hx
  · intro u hu hs hlt
    have hmu : u ∈ ticketsOf p e.log := mem_ticketsOf.mpr ⟨hu, hs.trans hprio⟩
    exact (h.done_iff _).mpr ⟨p, u, h.earlier hc hmu hlt, rfl⟩
  · rw [hk, dmas_append, dmas_irq, List.append_nil] at hsent
    exact hsent

theorem Core.irq (h : Core c e) (hlt : irqs e.log < (starts e.log).length) :
    Core c (e.emit .irq) := by
  have hd : ∀ i, dmas (e.log ++ [.irq]) i = dmas e.log i := by simp
  have hp : ∀ p, ticketsOf p (e.log ++ [.irq]) = ticketsOf p e.log :=
    fun p => ticketsOf_congr (by simp)
  refine ⟨fun p => (hp p).trans (h.order p), h.rest, ?_, ?_, ?_, ?_, ?_, always_snoc.mpr ⟨h.law, hlt⟩⟩
  · exact fun p u hu => (hd _).trans (h.served p u hu)
  · exact fun p u hu => (congrArg (· ++ e.todo p) (hd u.id)).trans (h.current p u hu)
  · exact fun p u hu => (hd _).trans (h.queued p u hu)
  · exact fun i hi => (hd i).trans (h.unposted i (by simpa [emit] using hi))
  · simpa [emit] using h.completed

/-- A new request goes behind those of its priority. -/
theorem Core.push (h : Core c e) (j : Job) :
    Core c ((e.emit (.post j)).push ⟨(posts e.log).length, j⟩) := by
  have hd : ∀ i, dmas (e.log ++ [.post j]) i = dmas e.log i := by simp
  refine ⟨?_, h.rest, ?_, ?_, ?_, ?_, ?_, always_snoc.mpr ⟨h.law, trivial⟩⟩
  · intro p
    have hx := h.order p
    simp only [ticketsOf] at hx
    simp only [Engine.push, emit, ticketsOf, tickets_post, List.filter_append, hx]
    by_cases hp : j.prio = p
    · subst hp
      simp
    · simp [hp, Ne.symm hp]
  · exact fun p u hu => (hd _).trans (h.served p u hu)
  · exact fun p u hu => (congrArg (· ++ e.todo p) (hd u.id)).trans (h.current p u hu)
  · intro p u hu
    refine (hd _).trans ?_
    simp only [Engine.push, emit] at hu
    by_cases hp : p = j.prio
    · subst hp
      simp only [update_self, List.mem_append, List.mem_singleton] at hu
      cases hu with
      | inl hm => exact h.queued _ u hm
      | inr he =>
        subst he
        exact h.unposted _ (Nat.le_refl _)
    · simp only [update_of_ne hp] at hu
      exact h.queued p u hu
  · intro i hi
    refine (hd i).trans (h.unposted i ?_)
    simp only [Engine.push, emit, posts_append, List.length_append] at hi
    omega
  · simpa [Engine.push, emit] using h.completed

end SdkPort.ARQ.Engine
