import SdkPort.DVD.QueueRuns

/-!
# Links left behind

Membership in a queue is told from a block's own links. A block that was popped has its
links cleared; one that was dequeued, or dropped when the queues were cleared, keeps the
links it had.
-/
namespace SdkPort.DVD

open Function (update update_self update_of_ne)
open Linked (Rings)

/-- What happened: the queues were cleared, or a call returned. -/
inductive QueueEvent where
  | cleared
  | called (c : QueueCall) (r : Nat)

/-- Where a block is: it was never pushed, it waits, or it was taken out, with its links
cleared or not. -/
inductive Fate where
  | fresh
  | waiting
  | popped
  | left
  deriving DecidableEq

def Fate.after (b : Nat) (f : Fate) : QueueEvent → Fate
  | .cleared => if f = .waiting then .left else f
  | .called (.push _ blockAddr) _ => if blockAddr = b then .waiting else f
  | .called .pop r => if r = b then .popped else f
  | .called (.dequeue blockAddr) r => if blockAddr = b ∧ r = 1 then .left else f
  | .called .check _ | .called (.isBlockIn _) _ => f

def fate (log : List QueueEvent) (b : Nat) : Fate := log.foldl (Fate.after b) .fresh

/-- Blocks are pushed while they do not wait, and dequeued while they wait or when a pop was
the last to take them out. -/
def QueueCall.Clean (block : Nat → Prop) (log : List QueueEvent) : QueueCall → Prop
  | push _ blockAddr => block blockAddr ∧ fate log blockAddr ≠ .waiting
  | dequeue blockAddr => block blockAddr ∧ (fate log blockAddr = .waiting ∨ fate log blockAddr = .popped)
  | pop | check | isBlockIn _ => True

/-- The states clean calls lead to, with what happened before. -/
inductive CleanRun (block : Nat → Prop) : QueueState → List QueueEvent → Prop
  | start {st st' : QueueState} : Placed st block → portDVDClearWaitingQueue st = some st' → CleanRun block st' []
  | clear {st st' : QueueState} {log : List QueueEvent} : CleanRun block st log →
      portDVDClearWaitingQueue st = some st' → CleanRun block st' (log ++ [.cleared])
  | call {st st' : QueueState} {log : List QueueEvent} {c : QueueCall} {r : Nat} : CleanRun block st log →
      c.Clean block log → c.exec st = some (r, st') → CleanRun block st' (log ++ [.called c r])

/-- Memory holds these lists. -/
def HoldsLists (st : QueueState) (block : Nat → Prop) (L : Fin 4 → List Nat) : Prop :=
  ∃ next prev, Waits st block L next prev

/-- A dequeue takes a block out that is in a queue, and only then returns 1; else it returns
0 and changes nothing. -/
def Truthful (st : QueueState) (block : Nat → Prop) (L : Fin 4 → List Nat) (b : Nat) : Prop :=
  portDVDIsBlockInWaitingQueue st b = some 1 ∧
      (∃ st', portDVDDequeueWaitingQueue st b = some (1, st') ∧ HoldsLists st' block fun i => (L i).erase b) ∨
    portDVDIsBlockInWaitingQueue st b = some 0 ∧ portDVDDequeueWaitingQueue st b = some (0, st)

/-- What a block's fate says about it and its links. -/
def Stands (st : QueueState) (L : Fin 4 → List Nat) (b : Nat) : Fate → Prop
  | .fresh => ∀ i, b ∉ L i
  | .waiting => ∃ i, b ∈ L i
  | .popped => (∀ i, b ∉ L i) ∧ st.load b = some 0 ∧ st.load (b + 4) = some 0
  | .left => (∀ i, b ∉ L i) ∧ st.load b ≠ some 0 ∧ st.load (b + 4) ≠ some 0

variable {st st' : QueueState} {block : Nat → Prop} {next prev next' prev' : Nat → Nat} {L L' : Fin 4 → List Nat}
  {a b r : Nat} {f : Fate} {log : List QueueEvent}

section Stands

theorem Stands.waiting_iff (h : Stands st L b f) : f = .waiting ↔ ∃ i, b ∈ L i := by
  cases f with
  | waiting => exact iff_of_true rfl h
  | fresh => exact iff_of_false (by simp) fun ⟨i, hi⟩ => h i hi
  | popped => exact iff_of_false (by simp) fun ⟨i, hi⟩ => h.1 i hi
  | left => exact iff_of_false (by simp) fun ⟨i, hi⟩ => h.1 i hi

/-- A block keeps its fate while neither its membership nor its links change. -/
theorem Stands.congr (h : Stands st L b f) (hm : ∀ i, b ∈ L' i ↔ b ∈ L i)
    (hl : (∀ i, b ∉ L i) → st'.load b = st.load b ∧ st'.load (b + 4) = st.load (b + 4)) : Stands st' L' b f := by
  have hnot : (∀ i, b ∉ L i) → ∀ i, b ∉ L' i := fun hn i hi => hn i ((hm i).mp hi)
  cases f with
  | fresh => exact hnot h
  | waiting =>
    obtain ⟨i, hi⟩ := h
    exact ⟨i, (hm i).mpr hi⟩
  | popped =>
    obtain ⟨hn, h₁, h₂⟩ := h
    obtain ⟨e₁, e₂⟩ := hl hn
    exact ⟨hnot hn, by rw [e₁, h₁], by rw [e₂, h₂]⟩
  | left =>
    obtain ⟨hn, h₁, h₂⟩ := h
    obtain ⟨e₁, e₂⟩ := hl hn
    exact ⟨hnot hn, by rwa [e₁], by rwa [e₂]⟩

/-- Links of a block that is out of the lists, before and after a call. -/
theorem Waits.links (h : Waits st block L next prev) (h' : Waits st' block L' next' prev') (hb : block b)
    (hout : Out st L b → next' b = next b ∧ prev' b = prev b) (hn : ∀ i, b ∉ L i) :
    st'.load b = st.load b ∧ st'.load (b + 4) = st.load (b + 4) := by
  obtain ⟨e₁, e₂⟩ := hout fun i => ⟨h.sentinel_ne hb, hn i⟩
  rw [h'.shows.next b (.inl hb), h'.shows.prev b (.inl hb), h.shows.next b (.inl hb), h.shows.prev b (.inl hb), e₁, e₂]
  exact ⟨rfl, rfl⟩

end Stands

section Steps

theorem mem_update (i j : Fin 4) (l : List Nat) (hl : b ∈ l ↔ b ∈ L i) : b ∈ update L i l j ↔ b ∈ L j := by
  by_cases hj : j = i
  · rw [hj, update_self, hl]
  · rw [update_of_ne hj]

/-- The fates of all blocks after an event. -/
def Told (st : QueueState) (block : Nat → Prop) (L : Fin 4 → List Nat) (log : List QueueEvent) : Prop :=
  ∀ b, block b → Stands st L b (fate log b)

theorem fate_snoc (log : List QueueEvent) (e : QueueEvent) (b : Nat) : fate (log ++ [e]) b = (fate log b).after b e := by
  rw [fate, List.foldl_append]
  rfl

theorem Told.push {i : Fin 4} (h : Told st block L log) (hw : Waits st block L next prev) (ha : block a)
    (hf : fate log a ≠ .waiting) : ∃ st' next' prev', portDVDPushWaitingQueue st i a = some st' ∧
      Waits st' block (update L i (L i ++ [a])) next' prev' ∧
        Told st' block (update L i (L i ++ [a])) (log ++ [.called (.push i a) r]) := by
  have hfresh : ∀ j, a ∉ L j := fun j hj => hf ((h a ha).waiting_iff.mpr ⟨j, hj⟩)
  obtain ⟨st', next', prev', hpush, hw', hframe⟩ := hw.push (i := i) ha hfresh
  refine ⟨st', next', prev', hpush, hw', ?_⟩
  intro b hb
  rw [fate_snoc, Fate.after]
  by_cases hab : a = b
  · rw [if_pos hab, ← hab]
    exact ⟨i, by simp⟩
  · rw [if_neg hab]
    apply (h b hb).congr
    · intro j
      exact mem_update i j _ (by simp [Ne.symm hab])
    · exact hw.links hw' hb (hframe b (Ne.symm hab))

theorem Told.pop {i : Fin 4} {l : List Nat} (h : Told st block L log) (hw : Waits st block L next prev)
    (hL : L i = a :: l) : ∃ st' next' prev', popWaitingQueuePrio st i = some (a, st') ∧
      Waits st' block (update L i l) next' prev' ∧ Told st' block (update L i l) (log ++ [.called .pop a]) := by
  obtain ⟨st', next', prev', hpop, hw', hn, hp, hframe⟩ := hw.popPrio hL
  have hd := (hw.rings.dll i).nodup
  rw [hL, List.nodup_cons] at hd
  have ha : a ∈ L i := by simp [hL]
  refine ⟨st', next', prev', hpop, hw', ?_⟩
  intro b hb
  rw [fate_snoc, Fate.after]
  by_cases hab : a = b
  · subst hab
    rw [if_pos rfl]
    refine ⟨?_, ?_, ?_⟩
    · intro j hj
      by_cases hji : j = i
      · rw [hji, update_self] at hj
        exact hd.1 hj
      · rw [update_of_ne hji] at hj
        exact hji (hw.rings.disjoint j i a hj ha)
    · rw [hw'.shows.next a (.inl hb), hn]
    · rw [hw'.shows.prev a (.inl hb), hp]
  · rw [if_neg hab]
    apply (h b hb).congr
    · intro j
      exact mem_update i j _ (by simp [hL, Ne.symm hab])
    · exact hw.links hw' hb (hframe b)

theorem Told.dequeue {i : Fin 4} (h : Told st block L log) (hw : Waits st block L next prev) (ha : a ∈ L i) :
    ∃ st' next' prev', portDVDDequeueWaitingQueue st a = some (1, st') ∧
      Waits st' block (update L i ((L i).erase a)) next' prev' ∧
      Told st' block (update L i ((L i).erase a)) (log ++ [.called (.dequeue a) 1]) := by
  obtain ⟨st', next', prev', hde, hw', hn, hp, hframe⟩ := hw.dequeue ha
  have hd := (hw.rings.dll i).nodup
  refine ⟨st', next', prev', hde, hw', ?_⟩
  intro b hb
  rw [fate_snoc, Fate.after]
  by_cases hab : a = b
  · subst hab
    rw [if_pos ⟨rfl, rfl⟩]
    refine ⟨?_, ?_, ?_⟩
    · intro j hj
      by_cases hji : j = i
      · rw [hji, update_self] at hj
        exact hd.not_mem_erase hj
      · rw [update_of_ne hji] at hj
        exact hji (hw.rings.disjoint j i a hj ha)
    · rw [hw'.shows.next a (.inl hb)]
      exact fun h0 => hn (Option.some_inj.mp h0)
    · rw [hw'.shows.prev a (.inl hb)]
      exact fun h0 => hp (Option.some_inj.mp h0)
  · rw [if_neg fun he => hab he.1]
    apply (h b hb).congr
    · intro j
      exact mem_update i j _ (List.mem_erase_of_ne (Ne.symm hab))
    · exact hw.links hw' hb (hframe b)

/-- Nothing is done for a block whose links are cleared. -/
theorem dequeue_popped (h : Stands st L b .popped) : portDVDDequeueWaitingQueue st b = some (0, st) := by
  have hprev : st.load (b + PORT_DVD_BLOCK_PREV) = some 0 := h.2.2
  have hnext : st.load (b + PORT_DVD_BLOCK_NEXT) = some 0 := h.2.1
  rw [portDVDDequeueWaitingQueue, hprev, hnext]
  rfl

/-- Links that are not cleared are never answered by 0. -/
theorem dequeue_left (h : Stands st L b .left) : portDVDDequeueWaitingQueue st b ≠ some (0, st') := by
  have hprev : st.load (b + PORT_DVD_BLOCK_PREV) ≠ some 0 := h.2.2
  have hnext : st.load (b + PORT_DVD_BLOCK_NEXT) ≠ some 0 := h.2.1
  rw [portDVDDequeueWaitingQueue]
  cases hp : st.load (b + PORT_DVD_BLOCK_PREV) with
  | none => simp
  | some prev =>
    cases hn : st.load (b + PORT_DVD_BLOCK_NEXT) with
    | none => simp
    | some next =>
      rw [hp] at hprev
      rw [hn] at hnext
      have hlinks : ¬(prev = 0 ∨ next = 0) := by
        rintro (h0 | h0)
        · exact hprev (congrArg some h0)
        · exact hnext (congrArg some h0)
      simp only [Option.bind_eq_bind, Option.bind_some, if_neg hlinks]
      intro he
      obtain ⟨_, _, he⟩ := Option.bind_eq_some_iff.mp he
      obtain ⟨_, _, he⟩ := Option.bind_eq_some_iff.mp he
      cases he

theorem Told.clear (h : Told st block L log) (hw : Waits st block L next prev) :
    ∃ st' next' prev', portDVDClearWaitingQueue st = some st' ∧ Waits st' block (fun _ => []) next' prev' ∧
      Told st' block (fun _ => []) (log ++ [.cleared]) := by
  obtain ⟨st', next', prev', hclear, hw', hkeep⟩ := clear_waits hw.shows.placed
  refine ⟨st', next', prev', hclear, hw', ?_⟩
  intro b hb
  have hs := h b hb
  have hp := hw.shows.placed
  obtain ⟨h₁, h₂⟩ := hkeep b hb
  rw [fate_snoc, Fate.after]
  by_cases hf : fate log b = .waiting
  · rw [if_pos hf]
    obtain ⟨i, hi⟩ := hs.waiting_iff.mp hf
    have hn := hp.node_pos (hw.own_node (hw.rings.next_own (.inr hi)))
    have hv := hp.node_pos (hw.own_node (hw.rings.prev_own (.inr hi)))
    refine ⟨by simp, ?_, ?_⟩
    · rw [h₁, hw.shows.next b (.inl hb)]
      simp only [ne_eq, Option.some.injEq]
      omega
    · rw [h₂, hw.shows.prev b (.inl hb)]
      simp only [ne_eq, Option.some.injEq]
      omega
  · rw [if_neg hf]
    have hout : ∀ i, b ∉ L i := fun i hi => hf (hs.waiting_iff.mpr ⟨i, hi⟩)
    exact hs.congr (fun i => iff_of_false List.not_mem_nil (hout i)) fun _ => ⟨h₁, h₂⟩

/-- A clean call leaves lists in memory and every block where its fate says. -/
theorem Told.call {c : QueueCall} {r : Nat} (h : Told st block L log) (hw : Waits st block L next prev)
    (hc : c.Clean block log) (hr : c.exec st = some (r, st')) :
    ∃ L' next' prev', Waits st' block L' next' prev' ∧ Told st' block L' (log ++ [.called c r]) := by
  cases c with
  | push prio a =>
    obtain ⟨st₁, next', prev', hpush, hw', h'⟩ := h.push (r := r) (i := prio) hw hc.1 hc.2
    rw [QueueCall.exec, hpush] at hr
    cases hr
    exact ⟨_, next', prev', hw', h'⟩
  | pop =>
    rw [QueueCall.exec, portDVDPopWaitingQueue, hw.firstWaiting_eq, Option.bind_eq_bind, Option.bind_some] at hr
    cases hu : urgent L with
    | none =>
      rw [hu] at hr
      cases hr
      refine ⟨L, next, prev, hw, fun b hb => ?_⟩
      have hpos := hw.shows.placed.pos b hb
      rw [fate_snoc, Fate.after, if_neg (by omega)]
      exact h b hb
    | some i =>
      have hne : L i ≠ [] := by simpa using List.find?_some hu
      obtain ⟨a, l, hL⟩ := List.exists_cons_of_ne_nil hne
      obtain ⟨st₁, next', prev', hpop, hw', h'⟩ := h.pop hw hL
      rw [hu] at hr
      have hres : popWaitingQueuePrio st i = some (r, st') := hr
      rw [hpop] at hres
      cases hres
      exact ⟨_, next', prev', hw', h'⟩
  | dequeue a =>
    have hstand := h a hc.1
    cases hc.2 with
    | inl hf =>
      obtain ⟨i, hi⟩ := hstand.waiting_iff.mp hf
      obtain ⟨st₁, next', prev', hde, hw', h'⟩ := h.dequeue hw hi
      rw [QueueCall.exec, hde] at hr
      cases hr
      exact ⟨_, next', prev', hw', h'⟩
    | inr hf =>
      rw [hf] at hstand
      rw [QueueCall.exec, dequeue_popped hstand] at hr
      cases hr
      refine ⟨L, next, prev, hw, fun b hb => ?_⟩
      rw [fate_snoc, Fate.after, if_neg (by simp)]
      exact h b hb
  | check =>
    rw [QueueCall.exec, portDVDCheckWaitingQueue, hw.firstWaiting_eq] at hr
    cases hr
    exact ⟨L, next, prev, hw, fun b hb => by rw [fate_snoc]; exact h b hb⟩
  | isBlockIn a =>
    rw [QueueCall.exec, hw.isBlockIn] at hr
    cases hr
    exact ⟨L, next, prev, hw, fun b hb => by rw [fate_snoc]; exact h b hb⟩

end Steps

section Run

/-- So does a clean run. -/
theorem CleanRun.told (h : CleanRun block st log) :
    ∃ L next prev, Waits st block L next prev ∧ Told st block L log := by
  induction h with
  | start hp hclear =>
    obtain ⟨st', next, prev, hclear', hw, -⟩ := clear_waits hp
    cases hclear.symm.trans hclear'
    exact ⟨_, next, prev, hw, fun b hb i => List.not_mem_nil⟩
  | clear h hclear ih =>
    obtain ⟨L, next, prev, hw, htold⟩ := ih
    obtain ⟨st', next', prev', hclear', hw', htold'⟩ := htold.clear hw
    cases hclear.symm.trans hclear'
    exact ⟨_, next', prev', hw', htold'⟩
  | call h hc hr ih =>
    obtain ⟨L, next, prev, hw, htold⟩ := ih
    exact htold.call hw hc hr

end Run

/-- In a clean run, a dequeue of a block that was pushed is truthful exactly if the block
waits or a pop was the last to take it out. -/
theorem cleanRun_truthful (h : CleanRun block st log) :
    ∃ L, HoldsLists st block L ∧ ∀ b, block b → fate log b ≠ .fresh →
      (Truthful st block L b ↔ fate log b = .waiting ∨ fate log b = .popped) := by
  obtain ⟨L, next, prev, hw, htold⟩ := h.told
  refine ⟨L, ⟨next, prev, hw⟩, ?_⟩
  intro b hb hpushed
  have hstand := htold b hb
  have hin := hw.isBlockIn (b := b)
  cases hf : fate log b with
  | fresh => exact absurd hf hpushed
  | waiting =>
    obtain ⟨i, hi⟩ := hstand.waiting_iff.mp hf
    obtain ⟨st', next', prev', hde, hw', -⟩ := hw.dequeue hi
    rw [if_pos ⟨i, hi⟩] at hin
    refine iff_of_true (.inl ⟨hin, st', hde, next', prev', ?_⟩) (.inl rfl)
    rw [hw.erase_eq hi]
    exact hw'
  | popped =>
    rw [hf] at hstand
    rw [if_neg fun ⟨i, hi⟩ => hstand.1 i hi] at hin
    exact iff_of_true (.inr ⟨hin, dequeue_popped hstand⟩) (.inr rfl)
  | left =>
    rw [hf] at hstand
    rw [if_neg fun ⟨i, hi⟩ => hstand.1 i hi] at hin
    refine iff_of_false ?_ (by simp)
    intro ht
    cases ht with
    | inl ht =>
      rw [hin] at ht
      exact absurd ht.1 (by simp)
    | inr ht => exact dequeue_left hstand ht.2

section Trial

/-- The state a call leaves that does not fail. -/
def QueueCall.after (st : QueueState) (c : QueueCall) : QueueState := ((c.exec st).getD (0, st)).2

theorem QueueCall.exec_after {c : QueueCall} (h : (c.exec st).map Prod.fst = some r) :
    c.exec st = some (r, QueueCall.after st c) := by
  obtain ⟨x, hx, rfl⟩ := Option.map_eq_some_iff.mp h
  rw [QueueCall.after, hx]
  rfl

def trialCleared : QueueState := (portDVDClearWaitingQueue trialQueue).getD trialQueue

theorem trialCleared_eq : portDVDClearWaitingQueue trialQueue = some trialCleared := by
  obtain ⟨st', _, _, hclear, -⟩ := clear_waits trialQueue_placed
  rw [trialCleared, hclear]
  rfl

def trialBoth : QueueState := QueueCall.after (QueueCall.after trialCleared (.push 2 0x1040)) (.push 2 0x1080)

/-- Two blocks are pushed; the first one is dequeued, the second one popped. -/
def trialLeft : QueueState := QueueCall.after (QueueCall.after trialBoth (.dequeue 0x1040)) .pop

def trialLog : List QueueEvent :=
  [.called (.push 2 0x1040) 0, .called (.push 2 0x1080) 0, .called (.dequeue 0x1040) 1, .called .pop 0x1080]

theorem trialLeft_run : CleanRun trialPool trialLeft trialLog := by
  have h₀ := CleanRun.start trialQueue_placed trialCleared_eq
  have h₁ := h₀.call (c := .push 2 0x1040) ⟨.inl rfl, by decide⟩ (QueueCall.exec_after (r := 0) (by decide +kernel))
  have h₂ := h₁.call (c := .push 2 0x1080) ⟨.inr rfl, by decide⟩ (QueueCall.exec_after (r := 0) (by decide +kernel))
  have h₃ := h₂.call (c := .dequeue 0x1040) ⟨.inl rfl, .inl (by decide)⟩
    (QueueCall.exec_after (r := 1) (by decide +kernel))
  exact h₃.call (c := .pop) trivial (QueueCall.exec_after (r := 0x1080) (by decide +kernel))

/-- The block that was popped is told apart from the one that was dequeued. -/
theorem trialLeft_truthful : ∃ L, HoldsLists trialLeft trialPool L ∧ ∀ b, trialPool b → fate trialLog b ≠ .fresh →
    (Truthful trialLeft trialPool L b ↔ fate trialLog b = .waiting ∨ fate trialLog b = .popped) :=
  cleanRun_truthful trialLeft_run

/-- A second dequeue reports success, and leads the queue to a block that was popped; the next pop follows the
null link of that block. -/
theorem second_dequeue : CleanRun trialPool trialLeft trialLog ∧ fate trialLog 0x1040 = .left ∧
    portDVDIsBlockInWaitingQueue trialLeft 0x1040 = some 0 ∧
    (portDVDDequeueWaitingQueue trialLeft 0x1040).map Prod.fst = some 1 ∧
    ((portDVDDequeueWaitingQueue trialLeft 0x1040).bind fun x => portDVDPopWaitingQueue x.2) = none :=
  ⟨trialLeft_run, by decide, by decide +kernel, by decide +kernel,
    Option.isNone_iff_eq_none.mp (by decide +kernel)⟩

end Trial

end SdkPort.DVD
