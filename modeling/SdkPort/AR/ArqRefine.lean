import SdkPort.AR.EngineServe

/-!
# The request queue is the engine

The linked request structures, the pending pointers and the callback flags represent
an engine, and every function of the source does to it what the engine does.
-/
namespace SdkPort.ARQ

open Function (update update_self update_of_ne)
open Fifo (Line Reach line_single)
open Gc (u32)

def St.headOf (s : St) : Prio → Nat
  | .high => s.queueHi
  | .low => s.queueLo

def St.tailOf (s : St) : Prio → Nat
  | .high => s.tailHi
  | .low => s.tailLo

def St.pendingOf (s : St) : Prio → Nat
  | .high => s.pendingHi
  | .low => s.pendingLo

/-- The structure holds the arguments of the request. -/
structure Request.Asks (r : Request) (j : Job) : Prop where
  type : r.type = j.type
  source : r.source = j.source
  dest : r.dest = j.dest
  length : r.length = j.length

/-- The structure at an address holds a waiting request. -/
structure Holds (mem : Nat → Request) (ids : Nat → Nat) (p : Prio) (r : Nat) (t : Ticket) : Prop where
  id : ids r = t.id
  prio : t.job.prio = p
  asks : (mem r).Asks t.job
  length_lt : t.job.length < 2 ^ 32

/-- The state stands for the engine; `q` are the addresses of the waiting requests, and
`base` is the log before the calls of this step. -/
structure Rep (c : Nat) (ids : Nat → Nat) (base : List Event) (s : St) (e : Engine)
    (q : Prio → List Nat) : Prop where
  chunk : s.chunkSize = c
  line : ∀ p, Line 0 (fun r => (s.mem r).next) (s.headOf p) (s.tailOf p) (q p)
  queue : ∀ p, List.Forall₂ (Holds s.mem ids p) (q p) (e.queue p)
  vacant : ∀ p, e.current p = none → s.pendingOf p = 0
  held : ∀ p t, e.current p = some t → s.pendingOf p ≠ 0 ∧ ids (s.pendingOf p) = t.id
  flagHi : s.hasCallbackHi = true ↔ e.current .high ≠ none
  flagLo : s.hasCallbackLo = true ↔ e.current .low ≠ none ∧ e.todo .low = []
  todo : e.todo .low ≠ [] → (s.mem s.pendingLo).length < 2 ^ 32 ∧
    e.todo .low = pieces c (s.mem s.pendingLo).type (s.mem s.pendingLo).source
      (s.mem s.pendingLo).dest (s.mem s.pendingLo).length
  nodup : (q .high ++ q .low).Nodup
  apart : ∀ p p', s.pendingOf p ≠ 0 → s.pendingOf p ∉ q p'
  distinct : s.pendingHi ≠ 0 → s.pendingHi ≠ s.pendingLo
  log : e.log = base ++ s.calls.map (Call.event ids)

variable {c : Nat} {ids : Nat → Nat} {base : List Event} {s s' : St} {e : Engine} {q : Prio → List Nat}
  {p : Prio} {t : Ticket} {r : Nat} {j : Job}

namespace Rep

theorem pending_iff (h : Rep c ids base s e q) (p : Prio) : s.pendingOf p = 0 ↔ e.current p = none := by
  constructor
  · intro h0
    cases hc : e.current p with
    | none => rfl
    | some t => exact absurd h0 (h.held p t hc).1
  · exact h.vacant p

theorem head_iff (h : Rep c ids base s e q) (p : Prio) : s.headOf p = 0 ↔ e.queue p = [] := by
  rw [(h.line p).head_eq_nil, ← List.length_eq_zero_iff, (h.queue p).length_eq,
    List.length_eq_zero_iff]

/-- The first waiting request of a priority. -/
theorem head_cons (h : Rep c ids base s e q) {l : List Ticket} (hq : e.queue p = t :: l) :
    ∃ r v, q p = r :: v ∧ s.headOf p = r ∧ r ≠ 0 ∧ Holds s.mem ids p r t ∧
      List.Forall₂ (Holds s.mem ids p) v l ∧ Line 0 (fun x => (s.mem x).next) (s.mem r).next (s.tailOf p) v := by
  have hf := h.queue p
  have hl := h.line p
  rw [hq] at hf
  cases hqp : q p with
  | nil =>
    rw [hqp] at hf
    cases hf
  | cons r v =>
    rw [hqp] at hf hl
    obtain ⟨hh, hf⟩ := List.forall₂_cons.mp hf
    exact ⟨r, v, rfl, hl.1, hl.2.1, hh, hf, hl.2.2.2⟩

/-- A structure that leaves the front of its queue is in no queue any more. -/
theorem head_gone (h : Rep c ids base s e q) {v : List Nat} (hqp : q p = r :: v) :
    (∀ p', r ∉ update q p v p') ∧ (update q p v .high ++ update q p v .low).Nodup := by
  have hnd := h.nodup
  cases p with
  | high =>
    rw [hqp, List.cons_append, List.nodup_cons, List.mem_append, not_or] at hnd
    refine ⟨fun p' => ?_, hnd.2⟩
    cases p' with
    | high => exact hnd.1.1
    | low => exact hnd.1.2
  | low =>
    rw [hqp, List.nodup_middle, List.nodup_cons, List.mem_append, not_or] at hnd
    refine ⟨fun p' => ?_, hnd.2⟩
    cases p' with
    | high => exact hnd.1.1
    | low => exact hnd.1.2

/-- Another pending structure stays out of the queue that lost its first one. -/
theorem apart_tail (h : Rep c ids base s e q) {v : List Nat} (hqp : q p = r :: v) (p' : Prio)
    (hp : s.pendingOf p' ≠ 0) (k : Prio) : s.pendingOf p' ∉ update q p v k := by
  intro hm
  apply h.apart p' k hp
  by_cases hk : k = p
  · subst hk
    rw [update_self] at hm
    rw [hqp]
    exact List.mem_cons_of_mem _ hm
  · rwa [update_of_ne hk] at hm

/-- A structure that is not busy is in no queue and not pending. -/
theorem free (h : Rep c ids base s e q) (hb : ¬ s.Busy r) :
    (∀ p, r ∉ q p) ∧ ∀ p, r ≠ s.pendingOf p := by
  simp only [St.Busy, not_or] at hb
  obtain ⟨h₁, h₂, h₃, h₄⟩ := hb
  constructor
  · intro p hm
    cases p with
    | high => exact h₃ ((h.line .high).reach_iff.mpr hm)
    | low => exact h₄ ((h.line .low).reach_iff.mpr hm)
  · intro p
    cases p with
    | high => exact h₁
    | low => exact h₂

theorem popHi (h : Rep c ids base s e q) (hc : e.current .high = none) :
    ∃ q', Rep c ids base (portARQPopTaskQueueHi s) (e.serveHigh c) q' := by
  cases hq : e.queue .high with
  | nil =>
    have h0 : s.queueHi = 0 := (h.head_iff .high).mpr hq
    have hs : portARQPopTaskQueueHi s = s := by simp [portARQPopTaskQueueHi, h0]
    rw [hs, Engine.serveHigh_self hc hq]
    exact ⟨q, h⟩
  | cons t l =>
    obtain ⟨r, v, hqp, hr', hr0, hh, hf, hl⟩ := h.head_cons hq
    replace hr' : s.queueHi = r := hr'
    have hs : portARQPopTaskQueueHi s = { portARStartDMA s r (transfer t.job.type t.job.source t.job.dest t.job.length) with
        hasCallbackHi := true, pendingHi := r, queueHi := (s.mem r).next } := by
      simp only [portARQPopTaskQueueHi, hr', ne_eq, hr0, not_false_iff, if_true, hh.asks.type,
        hh.asks.source, hh.asks.dest, hh.asks.length]
    have htr : t.job.transfers c = [transfer t.job.type t.job.source t.job.dest t.job.length] := by
      rw [Job.transfers, hh.prio]
    have htake := Engine.take_eq (c := c) hc hq
    have he : e.serveHigh c = { e with
        queue := update e.queue .high l, current := update e.current .high (some t)
        todo := update (update e.todo .high (t.job.transfers c)) .high []
        log := e.log ++ [.dma t.id (transfer t.job.type t.job.source t.job.dest t.job.length)] } := by
      have hc' : (e.take c .high).current .high = some t := by simp [htake]
      have hd' : (e.take c .high).todo .high =
          [transfer t.job.type t.job.source t.job.dest t.job.length] := by simp [htake, htr]
      rw [Engine.serveHigh, Engine.start_eq hc' hd', htake]
    rw [hs, he]
    obtain ⟨hgone, hnd⟩ := h.head_gone hqp
    refine ⟨update q .high v, h.chunk, ?_, ?_, ?_, ?_, ?_, ?_, ?_, ?_, ?_, ?_, ?_⟩
    · intro p
      cases p with
      | high => exact hl
      | low => exact h.line .low
    · intro p
      cases p with
      | high => exact hf
      | low => exact h.queue .low
    · intro p hn
      cases p with
      | high => simp at hn
      | low => exact h.vacant .low hn
    · intro p t' ht'
      cases p with
      | high =>
        simp only [update_self, Option.some.injEq] at ht'
        exact ⟨hr0, ht' ▸ hh.id⟩
      | low => exact h.held .low t' ht'
    · simp
    · simpa [portARStartDMA] using h.flagLo
    · simpa [portARStartDMA] using h.todo
    · exact hnd
    · intro p p' hp
      cases p with
      | high => exact hgone p'
      | low => exact h.apart_tail hqp .low hp p'
    · intro _ he'
      have hp : s.pendingOf .low ≠ 0 := fun h0 => hr0 (he'.trans h0)
      apply h.apart .low .high hp
      rw [hqp]
      exact List.mem_cons.mpr (.inl he'.symm)
    · simp [portARStartDMA, h.log, Call.event, hh.id]

theorem takeLo (h : Rep c ids base s e q) :
    ∃ q', Rep c ids base (takeQueueLo s) (e.take c .low) q' := by
  by_cases hself : e.current .low ≠ none ∨ e.queue .low = []
  · have hs : takeQueueLo s = s := by
      rw [takeQueueLo, if_neg]
      intro ⟨h₁, h₂⟩
      cases hself with
      | inl hc => exact hc ((h.pending_iff .low).mp h₁)
      | inr hq => exact h₂ ((h.head_iff .low).mpr hq)
    rw [hs, Engine.take_self hself]
    exact ⟨q, h⟩
  · simp only [not_or, not_not] at hself
    obtain ⟨hc, hq⟩ := hself
    obtain ⟨t, l, hq⟩ := List.exists_cons_of_ne_nil hq
    obtain ⟨r, v, hqp, hr', hr0, hh, hf, hl⟩ := h.head_cons hq
    replace hr' : s.queueLo = r := hr'
    have hp0 : s.pendingLo = 0 := h.vacant .low hc
    have hs : takeQueueLo s = { s with pendingLo := r, queueLo := (s.mem r).next } := by
      rw [takeQueueLo, hr', if_pos ⟨hp0, hr0⟩]
    rw [hs, Engine.take_eq hc hq]
    obtain ⟨hgone, hnd⟩ := h.head_gone hqp
    have htr : t.job.transfers c = pieces c t.job.type t.job.source t.job.dest t.job.length := by
      rw [Job.transfers, hh.prio]
    refine ⟨update q .low v, h.chunk, ?_, ?_, ?_, ?_, ?_, ?_, ?_, ?_, ?_, ?_, h.log⟩
    · intro p
      cases p with
      | high => exact h.line .high
      | low => exact hl
    · intro p
      cases p with
      | high => exact h.queue .high
      | low => exact hf
    · intro p hn
      cases p with
      | high => exact h.vacant .high hn
      | low => simp at hn
    · intro p t' ht'
      cases p with
      | high => exact h.held .high t' ht'
      | low =>
        simp only [update_self, Option.some.injEq] at ht'
        exact ⟨hr0, ht' ▸ hh.id⟩
    · simpa using h.flagHi
    · have hfl : ¬ s.hasCallbackLo = true := fun hf => (h.flagLo.mp hf).1 hc
      simp [hfl, t.job.transfers_ne_nil c]
    · intro _
      simp only [update_self, htr, hh.asks.type, hh.asks.source, hh.asks.dest, hh.asks.length]
      exact ⟨hh.length_lt, trivial⟩
    · exact hnd
    · intro p p' hp
      cases p with
      | high => exact h.apart_tail hqp .high hp p'
      | low => exact hgone p'
    · intro hp he'
      apply h.apart .high .low hp
      rw [hqp]
      exact List.mem_cons.mpr (.inl he')

/-- What the structures hold only depends on the words of waiting requests. -/
theorem holds_congr {mem mem' : Nat → Request} {l : List Nat} {k : List Ticket}
    (h : List.Forall₂ (Holds mem ids p) l k) (hm : ∀ r ∈ l, (mem' r) = { mem r with next := (mem' r).next }) :
    List.Forall₂ (Holds mem' ids p) l k := by
  induction h with
  | nil => exact .nil
  | cons hr _ ih =>
    refine .cons ⟨hr.id, hr.prio, ?_, hr.length_lt⟩ (ih fun r hr => hm r (List.mem_cons_of_mem _ hr))
    rw [hm _ List.mem_cons_self]
    exact ⟨hr.asks.type, hr.asks.source, hr.asks.dest, hr.asks.length⟩

theorem startLo (h : Rep c ids base s e q) (hc : 1 ≤ c)
    (htodo : e.current .low ≠ none → e.todo .low ≠ []) :
    Rep c ids base (startChunkLo s) (e.start .low) q := by
  cases hcur : e.current .low with
  | none =>
    have hp : s.pendingLo = 0 := h.vacant .low hcur
    have hs : startChunkLo s = s := by simp [startChunkLo, hp]
    rw [hs, Engine.start_self hcur]
    exact h
  | some t =>
    obtain ⟨hp0, hid⟩ := h.held .low t hcur
    have hne := htodo (by simp [hcur])
    obtain ⟨hlt, hpc⟩ := h.todo hne
    generalize hr : s.pendingLo = r at hpc hlt
    have hp0' : r ≠ 0 := by
      rw [← hr]
      exact hp0
    have hq : ∀ p', r ∉ q p' := by
      intro p'
      rw [← hr]
      exact h.apart .low p' hp0
    have hrid : ids r = t.id := by
      rw [← hr]
      exact hid
    -- the word that links the structure stays
    have hline : ∀ p, Line 0 (fun x => (update s.mem r ((s.mem r).advance c) x).next)
        (s.headOf p) (s.tailOf p) (q p) := by
      intro p
      refine (h.line p).congr fun x hx => ?_
      by_cases hxr : x = r
      · rw [hxr, update_self]
        rfl
      · rw [update_of_ne hxr]
    have hqueue : ∀ p, List.Forall₂ (Holds (update s.mem r ((s.mem r).advance c)) ids p) (q p)
        (e.queue p) := by
      intro p
      refine holds_congr (h.queue p) fun x hx => ?_
      have hxr : x ≠ r := fun he => hq p (he ▸ hx)
      rw [update_of_ne hxr]
    by_cases hlast : (s.mem r).length ≤ c
    · have hpl : e.todo .low = [transfer (s.mem r).type (s.mem r).source (s.mem r).dest (s.mem r).length] := by
        rw [hpc, pieces, dif_pos (.inr hlast)]
      rw [Engine.start_eq hcur hpl]
      simp only [startChunkLo, hr, ne_eq, hp0', not_false_iff, if_true, h.chunk, hlast]
      refine ⟨h.chunk, hline, hqueue, h.vacant, h.held, h.flagHi, ?_, ?_, h.nodup, h.apart,
        h.distinct, ?_⟩
      · simp [St.reqSet, hcur]
      · simp
      · simp [St.reqSet, portARStartDMA, h.log, Call.event, hrid]
    · have hpl : e.todo .low = transfer (s.mem r).type (s.mem r).source (s.mem r).dest c ::
          pieces c (s.mem r).type (u32 ((s.mem r).source + c)) (u32 ((s.mem r).dest + c))
            ((s.mem r).length - c) := by
        rw [hpc, pieces, dif_neg (by omega)]
      rw [Engine.start_eq hcur hpl]
      simp only [startChunkLo, hr, ne_eq, hp0', not_false_iff, if_true, h.chunk, hlast, if_false]
      have hlen : u32 ((s.mem r).length + 2 ^ 32 - c) = (s.mem r).length - c := by
        rw [u32]
        omega
      refine ⟨h.chunk, hline, hqueue, h.vacant, h.held, h.flagHi, ?_, ?_, h.nodup, h.apart,
        h.distinct, ?_⟩
      · have hfl : ¬ s.hasCallbackLo = true := fun hf => hne (h.flagLo.mp hf).2
        simp [St.reqSet, portARStartDMA, hfl, pieces_ne_nil]
      · intro _
        simp only [St.reqSet, portARStartDMA, hr, update_self, Request.advance, hlen]
        exact ⟨by omega, trivial⟩
      · simp [St.reqSet, portARStartDMA, h.log, Call.event, hrid]

theorem finish (h : Rep c ids base s e q) (hw : e.todo .high = []) :
    Rep c ids base (finishPending s) e.finish q := by
  by_cases hf : s.hasCallbackHi = true
  · have hc := h.flagHi.mp hf
    obtain ⟨t, ht⟩ := Option.ne_none_iff_exists'.mp hc
    obtain ⟨hp0, hid⟩ := h.held .high t ht
    have he : e.finish = e.complete .high := by
      simp [Engine.finish, Engine.inFlight_high hc, hw]
    rw [he, Engine.complete_eq ht, finishPending, if_pos hf]
    have hid' : ids s.pendingHi = t.id := hid
    refine ⟨h.chunk, h.line, h.queue, ?_, ?_, ?_, ?_, h.todo, h.nodup, ?_, ?_, ?_⟩
    · intro p hn
      cases p with
      | high => rfl
      | low => exact h.vacant .low (by simpa using hn)
    · intro p t' ht'
      cases p with
      | high => simp at ht'
      | low => exact h.held .low t' (by simpa using ht')
    · simp
    · simpa using h.flagLo
    · intro p p' hp
      cases p with
      | high => exact absurd rfl hp
      | low => exact h.apart .low p' hp
    · exact fun hp => absurd rfl hp
    · simp [h.log, Call.event, hid']
  · have hc : e.current .high = none := by
      by_contra hc
      exact hf (h.flagHi.mpr hc)
    by_cases hf' : s.hasCallbackLo = true
    · obtain ⟨hcl, htl⟩ := h.flagLo.mp hf'
      obtain ⟨t, ht⟩ := Option.ne_none_iff_exists'.mp hcl
      obtain ⟨hp0, hid⟩ := h.held .low t ht
      have he : e.finish = e.complete .low := by
        simp [Engine.finish, Engine.inFlight_low hc hcl, htl]
      rw [he, Engine.complete_eq ht, finishPending, if_neg hf, if_pos hf']
      have hid' : ids s.pendingLo = t.id := hid
      refine ⟨h.chunk, h.line, h.queue, ?_, ?_, ?_, ?_, fun hne => absurd htl hne, h.nodup, ?_, ?_, ?_⟩
      · intro p hn
        cases p with
        | high => exact h.vacant .high (by simpa using hn)
        | low => rfl
      · intro p t' ht'
        cases p with
        | high => exact h.held .high t' (by simpa using ht')
        | low => simp at ht'
      · simpa using h.flagHi
      · simp
      · intro p p' hp
        cases p with
        | high => exact h.apart .high p' hp
        | low => exact absurd rfl hp
      · exact fun hp => absurd hp (by simpa [St.pendingOf] using (h.pending_iff .high).mpr hc)
      · simp [h.log, Call.event, hid']
    · have he : e.finish = e := by
        unfold Engine.finish
        cases hfl : e.inFlight with
        | none => rfl
        | some p =>
          cases p with
          | high => exact absurd hc (Engine.inFlight_eq_high.mp hfl)
          | low =>
            have hne : e.todo .low ≠ [] := fun hn => hf' (h.flagLo.mpr ⟨(Engine.inFlight_eq_low.mp hfl).2, hn⟩)
            simp [hne]
      rw [he, finishPending, if_neg hf, if_neg hf']
      exact h

/-- Serving the queues. -/
theorem serve (h : Rep c ids base s e q) (hc : 1 ≤ c) (hr : Engine.Ready c e) :
    ∃ q', Rep c ids base (serviceQueues s) (e.serve c) q' := by
  obtain ⟨q₁, h₁⟩ := h.popHi hr.high
  unfold serviceQueues Engine.serve
  by_cases hn : (e.serveHigh c).current .high = none
  · have hz : (portARQPopTaskQueueHi s).pendingHi = 0 := h₁.vacant .high hn
    have hq : e.queue .high = [] := by
      by_contra hq
      exact (hr.serveHigh hq).2.1 hn
    have hself := Engine.serveHigh_self (c := c) hr.high hq
    obtain ⟨q₂, h₂⟩ := h₁.takeLo
    refine ⟨q₂, ?_⟩
    simp only [hz, hn, if_true]
    refine h₂.startLo hc ?_
    rw [hself]
    exact hr.take_low
  · have hz : (portARQPopTaskQueueHi s).pendingHi ≠ 0 := fun h0 => hn ((h₁.pending_iff .high).mp h0)
    refine ⟨q₁, ?_⟩
    simp only [hz, hn, if_false]
    exact h₁

/-- The calls of a step are accounted for, and an event that changes nothing follows. -/
theorem rebase (h : Rep c ids base s e q) (v : List Event) :
    Rep c ids (e.log ++ v) { s with calls := [] } { e with log := e.log ++ v } q :=
  ⟨h.chunk, h.line, h.queue, h.vacant, h.held, h.flagHi, h.flagLo, h.todo, h.nodup, h.apart,
    h.distinct, (List.append_nil _).symm⟩

/-- A free structure is filled in and gets a new number. -/
theorem fill (h : Rep c ids base s e q) (hcalls : s.calls = []) (hq : ∀ p, r ∉ q p)
    (hp : ∀ p, r ≠ s.pendingOf p) (x : Request) (n : Nat) :
    Rep c (update ids r n) base (s.reqSet r fun _ => x) e q := by
  have hne : ∀ {p y}, y ∈ q p → y ≠ r := fun hy he => hq _ (he ▸ hy)
  refine ⟨h.chunk, ?_, ?_, h.vacant, ?_, h.flagHi, h.flagLo, ?_, h.nodup, h.apart, h.distinct, ?_⟩
  · intro p
    refine (h.line p).congr fun y hy => ?_
    simp only [St.reqSet, update_of_ne (hne hy)]
  · intro p
    have hf := h.queue p
    have hall : ∀ y ∈ q p, y ≠ r := fun y hy => hne hy
    generalize q p = l at hf hall
    generalize e.queue p = k at hf
    induction hf with
    | nil => exact .nil
    | cons hh _ ih =>
      have hy := hall _ List.mem_cons_self
      refine .cons ⟨?_, hh.prio, ?_, hh.length_lt⟩ (ih fun y hy => hall y (List.mem_cons_of_mem _ hy))
      · rw [update_of_ne hy]
        exact hh.id
      · simp only [St.reqSet, update_of_ne hy]
        exact hh.asks
  · intro p t ht
    refine ⟨(h.held p t ht).1, ?_⟩
    exact (update_of_ne (hp p).symm ..).trans (h.held p t ht).2
  · simp only [St.reqSet, update_of_ne (show s.pendingLo ≠ r from (hp .low).symm)]
    exact h.todo
  · simpa [St.reqSet, hcalls] using h.log

end Rep

/-- A structure is linked behind the tail of the queue of its priority. -/
structure Pushed (p : Prio) (r : Nat) (s s' : St) : Prop where
  mem : s'.mem = if s.headOf p = 0 then s.mem
    else update s.mem (s.tailOf p) { s.mem (s.tailOf p) with next := r }
  head : ∀ k, s'.headOf k = if k = p ∧ s.headOf p = 0 then r else s.headOf k
  tail : ∀ k, s'.tailOf k = if k = p then r else s.tailOf k
  pending : s'.pendingOf = s.pendingOf
  flags : s'.hasCallbackHi = s.hasCallbackHi ∧ s'.hasCallbackLo = s.hasCallbackLo
  chunk : s'.chunkSize = s.chunkSize
  calls : s'.calls = s.calls

theorem enqueueHi_pushed (s : St) (r : Nat) : Pushed .high r s (enqueueHi s r) := by
  unfold enqueueHi
  by_cases h0 : s.queueHi = 0
  · have h0' : s.headOf .high = 0 := h0
    simp only [h0, ne_eq, not_true, if_false]
    refine ⟨by rw [if_pos h0'], ?_, ?_, rfl, ⟨rfl, rfl⟩, rfl, rfl⟩
    · intro k
      cases k <;> simp [St.headOf, h0]
    · intro k
      cases k <;> simp [St.tailOf]
  · have h0' : s.headOf .high ≠ 0 := h0
    simp only [h0, ne_eq, not_false_iff, if_true]
    refine ⟨by rw [if_neg h0']; rfl, ?_, ?_, rfl, ⟨rfl, rfl⟩, rfl, rfl⟩
    · intro k
      cases k <;> simp [St.headOf, St.reqSet, h0]
    · intro k
      cases k <;> simp [St.tailOf, St.reqSet]

theorem enqueueLo_pushed (s : St) (r : Nat) : Pushed .low r s (enqueueLo s r) := by
  unfold enqueueLo
  by_cases h0 : s.queueLo = 0
  · have h0' : s.headOf .low = 0 := h0
    simp only [h0, ne_eq, not_true, if_false]
    refine ⟨by rw [if_pos h0'], ?_, ?_, rfl, ⟨rfl, rfl⟩, rfl, rfl⟩
    · intro k
      cases k <;> simp [St.headOf, h0]
    · intro k
      cases k <;> simp [St.tailOf]
  · have h0' : s.headOf .low ≠ 0 := h0
    simp only [h0, ne_eq, not_false_iff, if_true]
    refine ⟨by rw [if_neg h0']; rfl, ?_, ?_, rfl, ⟨rfl, rfl⟩, rfl, rfl⟩
    · intro k
      cases k <;> simp [St.headOf, St.reqSet, h0]
    · intro k
      cases k <;> simp [St.tailOf, St.reqSet]

namespace Pushed

/-- Only links change. -/
theorem words (h : Pushed p r s s') (x : Nat) : s'.mem x = { s.mem x with next := (s'.mem x).next } := by
  rw [h.mem]
  split
  · rfl
  · by_cases hx : x = s.tailOf p
    · rw [hx, update_self]
    · rw [update_of_ne hx]

end Pushed

theorem nodup_of_rep (h : Rep c ids base s e q) (p : Prio) : (q p).Nodup := by
  cases p with
  | high => exact (List.nodup_append.mp h.nodup).1
  | low => exact (List.nodup_append.mp h.nodup).2.1

/-- No structure is in two queues. -/
theorem eq_of_mem_queues (h : Rep c ids base s e q) {p p' : Prio} {x : Nat} (hx : x ∈ q p)
    (hx' : x ∈ q p') : p = p' := by
  have hd := (List.nodup_append.mp h.nodup).2.2
  cases p <;> cases p'
  · rfl
  · exact absurd rfl (hd x hx x hx')
  · exact absurd rfl (hd x hx' x hx)
  · rfl

/-- The lines after a push, linked by way of the tail. -/
theorem Rep.push_line (h : Rep c ids base s e q) (hp : Pushed p r s s') (hn : (s.mem r).next = 0)
    (hr : r ≠ 0) (hq : ∀ k, r ∉ q k) (k : Prio) :
    Line 0 (fun x => (s'.mem x).next) (s'.headOf k) (s'.tailOf k) (update q p (q p ++ [r]) k) := by
  rw [hp.head, hp.tail]
  by_cases hk : k = p
  · subst hk
    simp only [true_and, if_true, update_self]
    by_cases h0 : s.headOf k = 0
    · have hnil := (h.line k).head_eq_nil.mp h0
      rw [if_pos h0, hnil, hp.mem, if_pos h0]
      exact line_single hr hn
    · have hne : q k ≠ [] := fun he => h0 ((h.line _).head_eq_nil.mpr he)
      have htail := (h.line _).tail_mem hne
      have hrt : r ≠ s.tailOf k := fun he => hq _ (he ▸ htail)
      rw [if_neg h0, hp.mem, if_neg h0]
      refine (h.line _).push hne (nodup_of_rep h _) hr (hq _) ?_ ?_ ?_
      · simp
      · rw [update_of_ne hrt, hn]
      · intro y _ hy
        rw [update_of_ne hy]
  · simp only [hk, false_and, if_false, update_of_ne, ne_eq, not_false_iff]
    refine (h.line k).congr fun y hy => ?_
    rw [hp.mem]
    split
    · rfl
    · rename_i h0
      have hne : q p ≠ [] := fun he => h0 ((h.line _).head_eq_nil.mpr he)
      have hyt : y ≠ s.tailOf p := by
        intro he
        exact hk (eq_of_mem_queues h hy (he ▸ (h.line _).tail_mem hne))
      rw [update_of_ne hyt]

theorem nodup_push (hd : (q .high ++ q .low).Nodup) (hq : ∀ k, r ∉ q k) (p : Prio) :
    (update q p (q p ++ [r]) .high ++ update q p (q p ++ [r]) .low).Nodup := by
  have hx : (q .high ++ q .low ++ [r]).Nodup := by
    refine List.nodup_append.mpr ⟨hd, List.nodup_singleton r, ?_⟩
    intro a ha b hb he
    rw [List.mem_singleton] at hb
    subst hb
    subst he
    exact (List.mem_append.mp ha).elim (hq .high) (hq .low)
  cases p with
  | high =>
    simp only [update_self, update_of_ne (show Prio.low ≠ .high by decide)]
    exact (List.Perm.nodup_iff (by
      rw [List.append_assoc, List.append_assoc]
      exact (List.perm_append_comm).append_left _)).mp hx
  | low =>
    simp only [update_self, update_of_ne (show Prio.high ≠ .low by decide)]
    rwa [← List.append_assoc]

theorem mem_push {k : Prio} {y : Nat} (hy : y ∈ update q p (q p ++ [r]) k) : y ∈ q k ∨ y = r := by
  by_cases hk : k = p
  · rw [hk, update_self] at hy
    rw [hk]
    simpa using hy
  · rw [update_of_ne hk] at hy
    exact .inl hy

theorem Rep.push (h : Rep c ids base s e q) (hp : Pushed p r s s') (hh : Holds s.mem ids p r t)
    (hn : (s.mem r).next = 0) (hr : r ≠ 0) (hq : ∀ k, r ∉ q k) (hpend : ∀ k, r ≠ s.pendingOf k) :
    Rep c ids base s' (e.push t) (update q p (q p ++ [r])) := by
  have hprio := hh.prio
  subst hprio
  have hpl : s'.pendingLo = s.pendingLo := congrFun hp.pending .low
  have hph : s'.pendingHi = s.pendingHi := congrFun hp.pending .high
  refine ⟨hp.chunk.trans h.chunk, h.push_line hp hn hr hq, ?_, ?_, ?_, ?_, ?_, ?_,
    nodup_push h.nodup hq _, ?_, ?_, ?_⟩
  · intro k
    have hf := Rep.holds_congr (h.queue k) fun y _ => hp.words y
    by_cases hk : k = t.job.prio
    · subst hk
      have hh' : Holds s'.mem ids t.job.prio r t := by
        have hw := hp.words r
        refine ⟨hh.id, rfl, ?_, hh.length_lt⟩
        rw [hw]
        exact ⟨hh.asks.type, hh.asks.source, hh.asks.dest, hh.asks.length⟩
      simp only [Engine.push, update_self]
      exact List.rel_append hf (.cons hh' .nil)
    · simp only [Engine.push, update_of_ne hk]
      exact hf
  · intro k hk
    rw [hp.pending]
    exact h.vacant k hk
  · intro k t' hk
    rw [hp.pending]
    exact h.held k t' hk
  · rw [hp.flags.1]
    exact h.flagHi
  · rw [hp.flags.2]
    exact h.flagLo
  · intro hne
    rw [hpl, hp.words]
    exact h.todo hne
  · intro k k' hk hm
    rw [hp.pending] at hk hm
    cases mem_push hm with
    | inl hy => exact h.apart k k' hk hy
    | inr he => exact hpend k he.symm
  · intro hz he
    rw [hph] at hz he
    rw [hpl] at he
    exact h.distinct hz he
  · rw [hp.calls]
    exact h.log

end SdkPort.ARQ
