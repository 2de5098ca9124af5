import SdkPort.Card.CardRead

/-!
# The control block of a card

`card_bios.c`, `CARDMount.c`: who works on a card takes its control block first and puts a result
into it at the end. In between the block says that it is busy, and whoever else wants it, or wants to
mount or unmount the card, is sent away.
-/
namespace SdkPort.Card

/-- Calls for the block. Clients are told apart by numbers. -/
inductive BlockCall where
  | get (client : Nat)
  | put (client : Nat) (result : Int)
  | mountAsync (workArea : Nat) (detachCallback attachCallback : Option Callback)
  | unmount
  deriving DecidableEq

def execBlock (chan : Int) (s : Slot) : BlockCall → Option (Int × Slot)
  | .get _ => some (cardGetControlBlock chan s)
  | .put _ result => some (result, cardPutControlBlock s result)
  | .mountAsync workArea detachCallback attachCallback =>
    CARDMountAsync chan workArea detachCallback attachCallback s
  | .unmount => some (CARDUnmount chan s)

/-- Calls and their answers, the latest first. -/
abbrev BlockLog := List (BlockCall × Int)

/-- The client that got the block and has not put it back. -/
def holder : BlockLog → Option Nat
  | [] => none
  | (.get client, result) :: log => if result = CARD_RESULT_READY then some client else holder log
  | (.put _ _, _) :: _ => none
  | (.mountAsync _ _ _, _) :: log => holder log
  | (.unmount, _) :: log => holder log

/-- Only the holder puts a result, and the result is final. -/
def Fair (log : BlockLog) : BlockCall → Prop
  | .put client result => holder log = some client ∧ result ≠ CARD_RESULT_BUSY
  | _ => True

/-- What a holder does to a card leaves its claim in place. -/
structure Claimed (s s' : Slot) : Prop where
  attached : s'.card.attached = s.card.attached
  result : s'.card.result = s.card.result
  disk_id : s'.card.disk_id = s.card.disk_id

/-- Calls of any clients in any order, with the work of the holders between them. -/
inductive BlockRun (chan : Int) (s₀ : Slot) : Slot → BlockLog → Prop
  | start : BlockRun chan s₀ s₀ []
  | call {s s' : Slot} {log : BlockLog} {c : BlockCall} {result : Int} (h : BlockRun chan s₀ s log) (hf : Fair log c)
      (he : execBlock chan s c = some (result, s')) : BlockRun chan s₀ s' ((c, result) :: log)
  | work {s s' : Slot} {log : BlockLog} {client : Nat} (h : BlockRun chan s₀ s log) (hh : holder log = some client)
      (hk : Claimed s s') : BlockRun chan s₀ s' log

variable {chan : Int} {s₀ s s' : Slot} {log : BlockLog} {client : Nat} {c : BlockCall} {result : Int}

structure Taken (s : Slot) : Prop where
  attached : s.card.attached = true
  busy : s.card.result = CARD_RESULT_BUSY
  disk_id : s.card.disk_id ≠ 0

/-- Nobody but the holder gets past a block that is taken. -/
theorem Taken.refused (h : Taken s) (hc : ∀ client result, c ≠ .put client result) :
    ∃ r < 0, execBlock chan s c = some (r, s) := by
  have hget : ∃ r < 0, cardGetControlBlock chan s = (r, s) := by
    rw [cardGetControlBlock]
    by_cases hr : chan < 0 ∨ 2 ≤ chan
    · exact ⟨CARD_RESULT_FATAL_ERROR, by decide, if_pos hr⟩
    · rw [if_neg hr, if_neg h.disk_id, if_neg (not_not.mpr h.attached), if_pos h.busy]
      exact ⟨CARD_RESULT_BUSY, by decide, rfl⟩
  obtain ⟨r, hr, hget⟩ := hget
  cases c with
  | get client => exact ⟨r, hr, congrArg some hget⟩
  | put client result => exact absurd rfl (hc client result)
  | mountAsync workArea detachCallback attachCallback =>
    rw [execBlock, CARDMountAsync]
    split
    · exact ⟨CARD_RESULT_FATAL_ERROR, by decide, rfl⟩
    · split
      · exact ⟨CARD_RESULT_NOCARD, by decide, rfl⟩
      · rw [if_pos h.busy]
        exact ⟨CARD_RESULT_BUSY, by decide, rfl⟩
  | unmount =>
    rw [execBlock, CARDUnmount, hget]
    dsimp only
    rw [if_pos hr]
    exact ⟨r, hr, rfl⟩

theorem Taken.of_get (h : cardGetControlBlock chan s = (CARD_RESULT_READY, s')) : Taken s' := by
  rw [cardGetControlBlock] at h
  split at h
  · cases h
  · split at h
    · cases h
    · rename_i hd
      split at h
      · cases h
      · rename_i ha
        split at h
        · cases h
        · cases h
          exact ⟨not_not.mp ha, rfl, hd⟩

theorem Taken.put (h : Taken s) (hc : 0 ≤ chan ∧ chan < 2) (hr : result ≠ CARD_RESULT_BUSY) (next : Nat) :
    ∃ s', execBlock chan (cardPutControlBlock s result) (.get next) = some (CARD_RESULT_READY, s') := by
  have hrange : ¬ (chan < 0 ∨ 2 ≤ chan) := by omega
  rw [cardPutControlBlock, if_pos h.attached, execBlock, cardGetControlBlock, if_neg hrange, if_neg h.disk_id,
    if_neg (not_not.mpr h.attached), if_neg hr]
  exact ⟨_, rfl⟩

theorem Taken.work (h : Taken s) (hk : Claimed s s') : Taken s' :=
  ⟨hk.attached.trans h.attached, hk.result.trans h.busy, hk.disk_id ▸ h.disk_id⟩

theorem BlockRun.taken (h : BlockRun chan s₀ s log) (hh : holder log = some client) : Taken s := by
  induction h generalizing client with
  | start => cases hh
  | work _ hl hk ih => exact (ih hl).work hk
  | @call s s' log c result h hf he ih =>
    cases c with
    | get next =>
      rw [holder] at hh
      by_cases hr : result = CARD_RESULT_READY
      · subst hr
        exact Taken.of_get (Option.some.inj he)
      · rw [if_neg hr] at hh
        obtain ⟨r, _, hs⟩ : ∃ r < 0, execBlock chan s (.get next) = some (r, s) := (ih hh).refused (by simp)
        cases hs.symm.trans he
        exact ih hh
    | put => cases hh
    | mountAsync workArea detachCallback attachCallback =>
      obtain ⟨r, _, hs⟩ :
          ∃ r < 0, execBlock chan s (.mountAsync workArea detachCallback attachCallback) = some (r, s) :=
        (ih hh).refused (by simp)
      cases hs.symm.trans he
      exact ih hh
    | unmount =>
      obtain ⟨r, _, hs⟩ : ∃ r < 0, execBlock chan s .unmount = some (r, s) := (ih hh).refused (by simp)
      cases hs.symm.trans he
      exact ih hh

theorem BlockRun.free_of_get (h : BlockRun chan s₀ s log)
    (he : execBlock chan s (.get client) = some (CARD_RESULT_READY, s')) : holder log = none := by
  cases hh : holder log with
  | none => rfl
  | some other =>
    obtain ⟨r, hr, hs⟩ : ∃ r < 0, execBlock chan s (.get client) = some (r, s) := (h.taken hh).refused (by simp)
    cases hs.symm.trans he
    exact absurd hr (by decide)

/-- Every client that got the block found it free. -/
theorem BlockRun.free (h : BlockRun chan s₀ s log) {later earlier : BlockLog}
    (hl : log = later ++ (.get client, CARD_RESULT_READY) :: earlier) : holder earlier = none := by
  induction h generalizing later with
  | start => simp at hl
  | work _ _ _ ih => exact ih hl
  | @call s s' log c result h hf he ih =>
    cases later with
    | nil =>
      obtain ⟨hc, rfl⟩ := List.cons.inj hl
      obtain ⟨rfl, rfl⟩ := Prod.mk.inj hc
      exact h.free_of_get he
    | cons x later => exact ih (List.cons.inj hl).2

theorem BlockRun.released (h : BlockRun chan s₀ s log) (hc : 0 ≤ chan ∧ chan < 2) {answer : Int} {earlier : BlockLog}
    (hl : log = (.put client result, answer) :: earlier) (next : Nat) :
    ∃ s', execBlock chan s (.get next) = some (CARD_RESULT_READY, s') := by
  cases h with
  | start => cases hl
  | work _ hh _ =>
    rw [hl] at hh
    cases hh
  | call h hf he =>
    obtain ⟨hcall, rfl⟩ := List.cons.inj hl
    obtain ⟨rfl, rfl⟩ := Prod.mk.inj hcall
    cases he
    exact (h.taken hf.1).put hc hf.2 next

/-- A lock: one holder at a time, whom nobody disturbs, and free again after it. -/
structure Exclusive (chan : Int) (s : Slot) (log : BlockLog) : Prop where
  refused : ∀ client, holder log = some client → ∀ c, (∀ other result, c ≠ .put other result) →
    ∃ r < 0, execBlock chan s c = some (r, s)
  free : ∀ later client earlier, log = later ++ (.get client, CARD_RESULT_READY) :: earlier → holder earlier = none
  released : ∀ client result answer earlier, log = (.put client result, answer) :: earlier → ∀ next,
    ∃ s', execBlock chan s (.get next) = some (CARD_RESULT_READY, s')

/-- However clients, mounts and unmounts follow each other, the control block is a lock. -/
theorem controlBlock_exclusive (hc : 0 ≤ chan ∧ chan < 2) (h : BlockRun chan s₀ s log) : Exclusive chan s log where
  refused _ hh _ hput := (h.taken hh).refused hput
  free _ _ _ hl := h.free hl
  released _ _ _ _ hl next := h.released hc hl next

/-- The second client is sent away while the first one has the block. -/
theorem trialSlot_exclusive : ∃ s, Exclusive 0 s [(.get 2, CARD_RESULT_READY), (.put 1 CARD_RESULT_IOERROR,
    CARD_RESULT_IOERROR), (.get 2, CARD_RESULT_BUSY), (.get 1, CARD_RESULT_READY)] := by
  have h₀ : BlockRun 0 (trialSlot 0) (trialSlot 0) [] := .start
  have h₁ := h₀.call (c := .get 1) trivial rfl
  have h₂ := h₁.call (c := .get 2) trivial rfl
  have h₃ := h₂.call (c := .put 1 CARD_RESULT_IOERROR) ⟨rfl, by decide⟩ rfl
  have h₄ := h₃.call (c := .get 2) trivial rfl
  exact ⟨_, controlBlock_exclusive (by decide) h₄⟩

end SdkPort.Card
