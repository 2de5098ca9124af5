import SdkPort.AR.ArqReach

/-!
# Every byte is transferred once

A request whose ranges fit below the end of the address space moves each of its bytes
once and in order, in one transfer or in chunks, and completes once, in the interrupt
that ends the last of its transfers.
-/
namespace SdkPort.ARQ

open Gc (u32)

/-- The byte moves of a transfer, as pairs of a main memory and an ARAM address. -/
def DMARecord.moves (d : DMARecord) : List (Nat × Nat) :=
  (List.range d.length).map fun k => (d.mainmem + k, d.aram + k)

/-- The main memory side: the source of what goes to ARAM, the destination of what comes from it. -/
def Job.mainmem (j : Job) : Nat := if j.type = PORT_ARQ_TYPE_MRAM_TO_ARAM then j.source else j.dest

/-- The ARAM side. -/
def Job.aram (j : Job) : Nat := if j.type = PORT_ARQ_TYPE_MRAM_TO_ARAM then j.dest else j.source

/-- The whole request as one transfer. -/
def Job.whole (j : Job) : DMARecord := ⟨j.type, j.mainmem, j.aram, j.length⟩

/-- The transfers do what the request asks for: a high-priority one at once, a low-priority
one in chunks, all in its direction, and each byte once and in order. -/
structure Job.Delivers (c : Nat) (j : Job) (ds : List DMARecord) : Prop where
  high : j.prio = .high → ds = [j.whole]
  low : j.prio = .low → ∀ d ∈ ds, d.length ≤ c
  type : ∀ d ∈ ds, d.type = j.type
  moves : ds.flatMap DMARecord.moves = j.whole.moves

/-- The code swaps its arguments where the request asks for it. -/
theorem Job.transfer_eq (j : Job) : transfer j.type j.source j.dest j.length = j.whole := by
  rw [transfer, Job.whole, Job.mainmem, Job.aram]
  split
  · rfl
  · rfl

@[simp] theorem transfer_type (type source dest length : Nat) :
    (transfer type source dest length).type = type := by
  unfold transfer
  split <;> rfl

@[simp] theorem transfer_length (type source dest length : Nat) :
    (transfer type source dest length).length = length := by
  unfold transfer
  split <;> rfl

/-- A transfer in two parts. -/
theorem moves_add (type source dest m n : Nat) :
    (transfer type source dest (m + n)).moves = (transfer type source dest m).moves ++
      (transfer type (source + m) (dest + m) n).moves := by
  unfold transfer
  split
  · simp [DMARecord.moves, List.range_add, Nat.add_assoc, Function.comp_def]
  · simp [DMARecord.moves, List.range_add, Nat.add_assoc, Function.comp_def]

theorem u32_of_lt {x : Nat} (h : x < 2 ^ 32) : u32 x = x := Nat.mod_eq_of_lt h

theorem mem_pieces {c type source dest length : Nat} (hc : 1 ≤ c) {d : DMARecord}
    (hd : d ∈ pieces c type source dest length) : d.type = type ∧ d.length ≤ c := by
  induction source, dest, length using pieces.induct c with
  | case1 source dest length h =>
    rw [pieces, dif_pos h, List.mem_singleton] at hd
    rw [hd, transfer_type, transfer_length]
    exact ⟨rfl, h.resolve_left (by omega)⟩
  | case2 source dest length h ih =>
    rw [pieces, dif_neg h, List.mem_cons] at hd
    cases hd with
    | inl he =>
      rw [he, transfer_type, transfer_length]
      exact ⟨rfl, Nat.le_refl c⟩
    | inr hm => exact ih hm

/-- The chunks move the bytes of the whole. -/
theorem pieces_moves {c type source dest length : Nat} (hs : source + length ≤ 2 ^ 32)
    (hd : dest + length ≤ 2 ^ 32) : (pieces c type source dest length).flatMap DMARecord.moves =
      (transfer type source dest length).moves := by
  induction source, dest, length using pieces.induct c with
  | case1 source dest length h =>
    rw [pieces, dif_pos h]
    simp
  | case2 source dest length h ih =>
    have hus : u32 (source + c) = source + c := u32_of_lt (by omega)
    have hud : u32 (dest + c) = dest + c := u32_of_lt (by omega)
    rw [hus, hud] at ih
    have hlen : length = c + (length - c) := by omega
    rw [pieces, dif_neg h, List.flatMap_cons, hus, hud, ih (by omega) (by omega), ← moves_add, ← hlen]

theorem Job.delivers {c : Nat} {j : Job} (hc : 1 ≤ c) (hj : j.Fits) : j.Delivers c (j.transfers c) := by
  cases hp : j.prio with
  | high =>
    have ht : j.transfers c = [j.whole] := by
      rw [Job.transfers, hp, ← j.transfer_eq]
    rw [ht]
    refine ⟨fun _ => rfl, fun hl => absurd (hp.symm.trans hl) (by simp), ?_, by simp⟩
    intro d hd
    rw [List.mem_singleton.mp hd]
    rfl
  | low =>
    have ht : j.transfers c = pieces c j.type j.source j.dest j.length := by rw [Job.transfers, hp]
    rw [ht]
    have hmoves := @pieces_moves c j.type j.source j.dest j.length hj.1 hj.2
    rw [j.transfer_eq] at hmoves
    exact ⟨fun hh => absurd (hp.symm.trans hh) (by simp), fun _ d hd => (mem_pieces hc hd).2,
      fun d hd => (mem_pieces hc hd).1, hmoves⟩

namespace Engine

variable {c : Nat} {e : Engine} {t : Ticket}

/-- What has been started for a request is the beginning of what it needs. -/
theorem Core.prefix (h : Core c e) (ht : t ∈ tickets e.log) : dmas e.log t.id <+: t.job.transfers c := by
  have hm : t ∈ ticketsOf t.job.prio e.log := mem_ticketsOf.mpr ⟨ht, rfl⟩
  cases h.mem_iff.mp hm with
  | inl hs => exact ⟨[], by rw [h.served _ t hs, List.append_nil]⟩
  | inr hr =>
    cases hr with
    | inl hc => exact ⟨e.todo t.job.prio, h.current _ t hc⟩
    | inr hq =>
      rw [h.queued _ t hq]
      exact List.nil_prefix

theorem Core.dmas_of_done (h : Core c e) (ht : t ∈ tickets e.log) (hd : t.id ∈ dones e.log) :
    dmas e.log t.id = t.job.transfers c := by
  obtain ⟨p, u, hu, hi⟩ := (h.done_iff _).mp hd
  have hm := mem_ticketsOf.mp (h.mem_iff.mpr (.inl hu))
  have he := ticket_ext hm.1 ht hi
  rw [← he]
  exact h.served p u hu

/-- No request completes twice. -/
theorem Core.nodup_dones (h : Core c e) : (dones e.log).Nodup := by
  rw [h.completed.nodup_iff, List.map_append, List.nodup_append]
  have hn : ∀ p, ((e.served p).map (·.id)).Nodup := by
    intro p
    have hs := ticketsOf_sorted p e.log
    rw [h.order p, List.append_assoc] at hs
    exact List.pairwise_map.mpr ((List.pairwise_append.mp hs).1.imp Nat.ne_of_lt)
  refine ⟨hn .high, hn .low, ?_⟩
  intro a ha b hb hab
  obtain ⟨u, hu, rfl⟩ := List.mem_map.mp ha
  obtain ⟨v, hv, rfl⟩ := List.mem_map.mp hb
  have hmu := mem_ticketsOf.mp (h.mem_iff.mpr (.inl hu))
  have hmv := mem_ticketsOf.mp (h.mem_iff.mpr (.inl hv))
  have he := ticket_ext hmu.1 hmv.1 hab
  subst he
  exact absurd (hmu.2.symm.trans hmv.2) nofun

end Engine

variable {c : Nat} {ρ : Run} {e : Engine} {P : Job → Prop}

theorem tickets_prop (h : Reached P c ρ) {t : Ticket} (ht : t ∈ tickets ρ.log) : P t.job := by
  have hposts : ∀ j ∈ posts ρ.log, P j := by
    clear ht
    have hcalls : ∀ (ids : Nat → Nat) (l : List Call), posts (l.map (Call.event ids)) = [] := by
      intro ids l
      induction l with
      | nil => rfl
      | cons x l ih => cases x <;> exact ih
    induction h with
    | boot s _ _ => exact fun j hj => absurd hj List.not_mem_nil
    | post _ ha ih =>
      intro j hj
      rw [Run.post, posts_append, List.mem_append] at hj
      cases hj with
      | inl hm => exact ih j hm
      | inr hm =>
        rw [← List.singleton_append, posts_append, hcalls, List.append_nil, posts_post,
          List.mem_singleton] at hm
        rw [hm]
        exact ha.job
    | interrupt _ _ ih =>
      intro j hj
      rw [Run.interrupt, posts_append, ← List.singleton_append, posts_append, hcalls] at hj
      exact ih j (by simpa using hj)
  obtain ⟨i, hi, rfl⟩ := List.mem_mapIdx.mp ht
  exact hposts _ (List.getElem_mem hi)

theorem Shows.iterate (h : Shows c ρ e) (n : Nat)
    (hn : ∀ k < n, ((Engine.interrupt c)^[k] e).inFlight ≠ none) :
    Shows c (Run.interrupt^[n] ρ) ((Engine.interrupt c)^[n] e) ∧
      ∀ k < n, (Run.interrupt^[k] ρ).Outstanding := by
  induction n generalizing ρ e with
  | zero => exact ⟨h, fun k hk => absurd hk (Nat.not_lt_zero k)⟩
  | succ n ih =>
    have ho : ρ.Outstanding := h.outstanding_iff.mpr (hn 0 (Nat.zero_lt_succ n))
    obtain ⟨h₁, h₂⟩ := ih (h.interrupt ho) fun k hk => hn (k + 1) (Nat.succ_lt_succ hk)
    refine ⟨h₁, ?_⟩
    intro k hk
    cases k with
    | zero => exact ho
    | succ k => exact h₂ k (Nat.lt_of_succ_lt_succ hk)

/-- Every byte of every request is transferred once. What has been started for a request is
the beginning of what delivers it; it completes at most once, and only with all of it
started. Posts complete nothing; an interrupt completes the request whose transfer it ends
if that was the last one, and no other. Interrupts alone complete all that is posted. -/
theorem reached_transfers (h : Reached Job.Fits c ρ) :
    (∀ t ∈ tickets ρ.log, t.job.Delivers c (t.job.transfers c) ∧
      dmas ρ.log t.id <+: t.job.transfers c ∧ (dones ρ.log).count t.id ≤ 1 ∧
      (t.id ∈ dones ρ.log → dmas ρ.log t.id = t.job.transfers c)) ∧
    (∀ r j, Postable Job.Fits ρ r j → dones (ρ.post r j).log = dones ρ.log) ∧
    (ρ.Outstanding → ∃ t ∈ tickets ρ.log, (starts ρ.log).getLast? = some t.id ∧
      dones ρ.interrupt.log = dones ρ.log ++
        if dmas ρ.log t.id = t.job.transfers c then [t.id] else []) ∧
    ∃ n, (∀ k < n, (Run.interrupt^[k] ρ).Outstanding) ∧
      ∀ t ∈ tickets (Run.interrupt^[n] ρ).log, t.id ∈ dones (Run.interrupt^[n] ρ).log := by
  obtain ⟨e, he⟩ := h.shows
  have hcore := he.steady.core
  refine ⟨?_, ?_, ?_, ?_⟩
  · intro t ht
    have hfits := tickets_prop h ht
    rw [he.log] at ht ⊢
    exact ⟨Job.delivers he.pos hfits, hcore.prefix ht, List.nodup_iff_count_le_one.mp hcore.nodup_dones _,
      hcore.dmas_of_done ht⟩
  · intro r j ha
    rw [(he.post ha).log, (he.steady.post j).2, he.log]
  · intro ho
    obtain ⟨p, hp⟩ := Option.ne_none_iff_exists'.mp (he.outstanding_iff.mp ho)
    obtain ⟨t, ht⟩ := Engine.exists_current hp
    have hlast : e.todo p = [] ↔ dmas e.log t.id = t.job.transfers c := by
      rw [← hcore.current p t ht]
      simp
    rw [(he.interrupt ho).log, (he.steady.interrupt hp ht).2.2, he.log]
    simp only [hlast]
    exact ⟨t, hcore.mem_current ht, he.steady.last p t hp ht, rfl⟩
  · obtain ⟨hidle, hbusy⟩ := he.steady.drain
    obtain ⟨hs, ho⟩ := he.iterate _ hbusy
    refine ⟨_, ho, fun t ht => ?_⟩
    rw [hs.log] at ht ⊢
    exact hs.steady.all_done hidle ht

section Trial

/-- A memory without requests. -/
def blank : St where
  mem := fun _ => ⟨0, 0, 0, 0, 0, 0, 0⟩
  queueHi := 0
  tailHi := 0
  queueLo := 0
  tailLo := 0
  pendingHi := 0
  pendingLo := 0
  hasCallbackHi := false
  hasCallbackLo := false
  chunkSize := 0
  dmaLog := []
  callbackCount := 0
  calls := []

/-- Six bytes to ARAM in chunks of four, and five bytes the other way that cut in. -/
def slowJob : Job := ⟨1, 0, PORT_ARQ_PRIORITY_LOW, 0x1000, 0x200, 6⟩
def fastJob : Job := ⟨2, 1, PORT_ARQ_PRIORITY_HIGH, 0x300, 0x2000, 5⟩

/-- Both posted, and the first chunk ended. -/
def mixedRun : Run := (((Run.boot blank 4).post 32 slowJob).post 64 fastJob).interrupt

theorem reached_mixedRun {P : Job → Prop} (h₁ : P slowJob) (h₂ : P fastJob) : Reached P 4 mixedRun := by
  have hboot : Reached P 4 (Run.boot blank 4) := .boot blank (by decide) (by decide)
  have hslow : Postable P (Run.boot blank 4) 32 slowJob :=
    ⟨by decide, not_busy_of_empty (by decide) (by decide) rfl rfl,
      ⟨by decide, by decide, by decide, by decide, .inl rfl⟩, h₁⟩
  have hfast : Postable P ((Run.boot blank 4).post 32 slowJob) 64 fastJob :=
    ⟨by decide, not_busy_of_empty (by decide) (by decide) (by decide) (by decide),
      ⟨by decide, by decide, by decide, by decide, .inr rfl⟩, h₂⟩
  have hout : (((Run.boot blank 4).post 32 slowJob).post 64 fastJob).Outstanding := by
    show _ < _
    decide +kernel
  exact ((hboot.post hslow).post hfast).interrupt hout

/-- The high-priority transfer is outstanding between the two chunks, and its end completes
that request. -/
theorem mixed_transfers : mixedRun.Outstanding ∧ dmas mixedRun.log 0 = [⟨0, 0x1000, 0x200, 4⟩] ∧
    dmas mixedRun.log 1 = [⟨1, 0x2000, 0x300, 5⟩] ∧
    ∃ t ∈ tickets mixedRun.log, (starts mixedRun.log).getLast? = some t.id ∧
      dones mixedRun.interrupt.log = dones mixedRun.log ++
        if dmas mixedRun.log t.id = t.job.transfers 4 then [t.id] else [] := by
  have hout : mixedRun.Outstanding := by
    show _ < _
    decide +kernel
  have h := reached_transfers (reached_mixedRun (P := Job.Fits) (by decide) (by decide))
  exact ⟨hout, by decide +kernel, by decide +kernel, h.2.2.1 hout⟩

end Trial

end SdkPort.ARQ
