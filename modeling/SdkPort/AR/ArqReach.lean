import SdkPort.AR.ArqRefine

/-!
# Every run is a run of the engine

Initialisation gives the empty engine; a post and an interrupt are those of the engine.
-/
namespace SdkPort.ARQ

open Function (update update_self)

/-- The run stands for a steady engine with the same log. -/
structure Shows (c : Nat) (ρ : Run) (e : Engine) : Prop where
  pos : 1 ≤ c
  steady : Engine.Steady c e
  log : ρ.log = e.log
  rep : ∃ q, Rep c ρ.ids ρ.log { ρ.st with calls := [] } e q

variable {c : Nat} {ρ : Run} {e : Engine} {P : Job → Prop} {r : Nat} {j : Job}

/-- A step ends where its calls are added to the log. -/
theorem shows_of_rep {ids : Nat → Nat} {base : List Event} {s : St} {q : Prio → List Nat} (hc : 1 ≤ c)
    (h : Rep c ids base s e q) (hs : Engine.Steady c e) :
    Shows c ⟨s, ids, base ++ s.calls.map (Call.event ids)⟩ e := by
  refine ⟨hc, hs, h.log.symm, q, ?_⟩
  have hb := h.rebase []
  simp only [List.append_nil] at hb
  rwa [← h.log]

theorem shows_boot (s : St) (hc : 1 ≤ c) : Shows c (Run.boot s c) .empty := by
  refine ⟨hc, .empty c, rfl, fun _ => [], rfl, ?_, fun _ => .nil, ?_, fun _ _ => nofun, ?_, ?_,
    fun h => absurd rfl h, List.nodup_nil, fun _ _ _ => List.not_mem_nil, fun h => absurd rfl h, rfl⟩
  · intro p
    cases p <;> rfl
  · intro p _
    cases p <;> rfl
  · simp [Run.boot, portARQInit, Engine.empty]
  · simp [Run.boot, portARQInit, Engine.empty]

namespace Shows

/-- A transfer is outstanding exactly while a request is in flight. -/
theorem outstanding_iff (h : Shows c ρ e) : ρ.Outstanding ↔ e.inFlight ≠ none := by
  have hcount := h.steady.count
  rw [Run.Outstanding, h.log, hcount]
  split
  · simp_all
  · simp_all

theorem interrupt (h : Shows c ρ e) (ho : ρ.Outstanding) : Shows c ρ.interrupt (e.interrupt c) := by
  obtain ⟨q, hr⟩ := h.rep
  obtain ⟨p, hp⟩ := Option.ne_none_iff_exists'.mp (h.outstanding_iff.mp ho)
  obtain ⟨t, ht⟩ := Engine.exists_current hp
  obtain ⟨hready, _, _⟩ := h.steady.finish hp ht
  have hirq : Rep c ρ.ids (e.log ++ [.irq]) { ρ.st with calls := [] } (e.emit .irq) q := hr.rebase [.irq]
  obtain ⟨q', hs⟩ := (hirq.finish h.steady.whole).serve h.pos hready
  have hx := shows_of_rep h.pos hs (h.steady.interrupt hp ht).1
  rw [← h.log, List.append_assoc] at hx
  exact hx

theorem post (h : Shows c ρ e) (ha : Postable P ρ r j) : Shows c (ρ.post r j) (e.post c j) := by
  obtain ⟨q, hr⟩ := h.rep
  obtain ⟨hq, hpend⟩ := hr.free ha.free
  -- the structure is filled in
  have h₁ : Rep c ρ.ids (e.log ++ [.post j]) { ρ.st with calls := [] } (e.emit (.post j)) q :=
    hr.rebase [.post j]
  have h₂ := h₁.fill rfl hq hpend ⟨0, j.owner, j.type, j.source, j.dest, j.length, 1⟩ (posts e.log).length
  generalize hs₁ : St.reqSet { ρ.st with calls := [] } r
    (fun _ => ⟨0, j.owner, j.type, j.source, j.dest, j.length, 1⟩) = s₁ at h₂
  have hm : s₁.mem r = ⟨0, j.owner, j.type, j.source, j.dest, j.length, 1⟩ := by
    rw [← hs₁]
    simp [St.reqSet]
  have hh : Holds s₁.mem (update ρ.ids r (posts e.log).length) j.prio r ⟨(posts e.log).length, j⟩ := by
    refine ⟨update_self .., rfl, ?_, ha.valid.length⟩
    rw [hm]
    exact ⟨rfl, rfl, rfl, rfl⟩
  have hpend₁ : ∀ k, r ≠ s₁.pendingOf k := by
    rw [← hs₁]
    exact hpend
  -- and linked into its queue
  obtain ⟨s₂, hs₂, hpush⟩ : ∃ s₂, (if j.priority = PORT_ARQ_PRIORITY_LOW then enqueueLo s₁ r
      else if j.priority = PORT_ARQ_PRIORITY_HIGH then enqueueHi s₁ r else s₁) = s₂ ∧
      Pushed j.prio r s₁ s₂ := by
    cases ha.valid.priority with
    | inl hl =>
      have hp : j.prio = .low := by simp [Job.prio, hl, PORT_ARQ_PRIORITY_LOW, PORT_ARQ_PRIORITY_HIGH]
      rw [if_pos hl, hp]
      exact ⟨_, rfl, enqueueLo_pushed s₁ r⟩
    | inr hl =>
      have hp : j.prio = .high := by simp [Job.prio, hl]
      rw [if_neg (by simp [hl, PORT_ARQ_PRIORITY_LOW, PORT_ARQ_PRIORITY_HIGH]), if_pos hl, hp]
      exact ⟨_, rfl, enqueueHi_pushed s₁ r⟩
  have h₃ := h₂.push hpush hh (by rw [hm]) ha.addr hq hpend₁
  have hidle : (s₂.pendingHi = 0 ∧ s₂.pendingLo = 0) ↔ e.inFlight = none := by
    rw [Engine.inFlight_eq_none]
    exact and_congr (h₃.pending_iff .high) (h₃.pending_iff .low)
  have hsteady := (h.steady.post j).1
  have hrun : ρ.post r j = ⟨if s₂.pendingHi = 0 ∧ s₂.pendingLo = 0 then serviceQueues s₂ else s₂,
      update ρ.ids r (posts e.log).length,
      (e.log ++ [.post j]) ++ (if s₂.pendingHi = 0 ∧ s₂.pendingLo = 0 then serviceQueues s₂ else s₂).calls.map
        (Call.event (update ρ.ids r (posts e.log).length))⟩ := by
    rw [Run.post, portARQPostRequest, ← h.log, hs₁, ← hs₂, List.append_assoc]
    rfl
  rw [hrun]
  unfold Engine.post at hsteady ⊢
  by_cases hfl : e.inFlight = none
  · have hfl' : ((e.emit (.post j)).push ⟨(posts e.log).length, j⟩).inFlight = none := hfl
    simp only [hidle.mpr hfl, and_self, if_true, hfl'] at hsteady ⊢
    obtain ⟨q', h₄⟩ := h₃.serve h.pos (h.steady.ready_post hfl j)
    exact shows_of_rep h.pos h₄ hsteady
  · have hfl' : ¬ ((e.emit (.post j)).push ⟨(posts e.log).length, j⟩).inFlight = none := hfl
    simp only [hidle, hfl, hfl', if_false] at hsteady ⊢
    exact shows_of_rep h.pos h₃ hsteady

end Shows

/-- Every state of a run stands for an engine. -/
theorem Reached.shows (h : Reached P c ρ) : ∃ e, Shows c ρ e := by
  induction h with
  | boot s hc _ => exact ⟨_, shows_boot s hc⟩
  | post _ ha ih =>
    obtain ⟨e, he⟩ := ih
    exact ⟨_, he.post ha⟩
  | interrupt _ ho ih =>
    obtain ⟨e, he⟩ := ih
    exact ⟨_, he.interrupt ho⟩

end SdkPort.ARQ
