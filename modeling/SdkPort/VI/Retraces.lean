import SdkPort.VI.ViRuns

/-!
# Retraces and callbacks

Which callbacks a run of the interface calls, and what a dump of the state page tells about
those that are set.
-/
namespace SdkPort.VI

open Gc (u32)
open State State.SdkState
open Refine (specAll)

variable {seen seen' : List Nat} {cb cb' : Nat} {v v' : Vi}

/-! ### Retraces -/

theorem value_retrace (v : Vi) (call : ViCall) : (exec v call).2.sdk.value GC_SDK_OFF_VI_RETRACE_COUNT =
    if call = .VIWaitForRetrace then u32 (v.sdk.value GC_SDK_OFF_VI_RETRACE_COUNT + 1)
    else v.sdk.value GC_SDK_OFF_VI_RETRACE_COUNT := by
  cases call with
  | VIWaitForRetrace =>
    simp (disch := decide) only [exec, VIWaitForRetrace, value_count_other, if_true]
    exact value_storeMirror_self (Nat.mod_lt _ (by decide))
  | callbackReturns =>
    simp only [exec, callbackReturns]
    split <;> simp (disch := decide) only [value_storeMirror_other, value_count_other, reduceCtorEq, if_false]
  | _ =>
    simp (disch := decide) only [exec, VISetPostRetraceCallback, VISetPreRetraceCallback, VIFlush, VIInit, VISetBlack,
      VIConfigure, VIConfigurePan, VIGetDTVStatus, VIGetTvFormat, VIGetNextField, VIGetRetraceCount, exchange,
      viRestoreInterrupts, viDisableInterrupts, SdkState.OSDisableInterrupts, SdkState.OSEnableInterrupts,
      SdkState.OSRestoreInterrupts, value_refresh, value_storeMirror_other, value_add_other, value_count_other,
      value_countMapped_other, reduceCtorEq, if_false]

theorem value_called (v : Vi) (call : ViCall) : (exec v call).2.sdk.value GC_SDK_OFF_VI_POST_CB_CALLS =
    if call = .callbackReturns ∧ v.host.running ≠ [] then u32 (v.sdk.value GC_SDK_OFF_VI_POST_CB_CALLS + 1)
    else v.sdk.value GC_SDK_OFF_VI_POST_CB_CALLS := by
  cases call with
  | callbackReturns =>
    simp only [exec, callbackReturns]
    split
    · rename_i h
      simp only [h, ne_eq, not_true, and_false, if_false]
    · rename_i h
      simp (disch := decide) only [h, value_storeMirror_other, ne_eq, reduceCtorEq, not_false_eq_true, and_self, if_true]
      exact value_add_self 1
  | _ =>
    simp (disch := decide) only [exec, VISetPostRetraceCallback, VISetPreRetraceCallback, VIFlush, VIInit, VISetBlack,
      VIWaitForRetrace, VIConfigure, VIConfigurePan, VIGetDTVStatus, VIGetTvFormat, VIGetNextField, VIGetRetraceCount,
      exchange, viRestoreInterrupts, viDisableInterrupts, SdkState.OSDisableInterrupts, SdkState.OSEnableInterrupts,
      SdkState.OSRestoreInterrupts, value_refresh, value_storeMirror_other, value_add_other, value_count_other,
      value_countMapped_other, reduceCtorEq, false_and, if_false]

/-- The callbacks to be called: each retrace calls the one set last, with its own count. -/
def retraces (post count : Nat) : List ViCall → List (Nat × Nat)
  | [] => []
  | .VISetPostRetraceCallback cb :: calls => retraces cb count calls
  | .VIWaitForRetrace :: calls =>
    (if post = 0 then [] else [(post, u32 (count + 1))]) ++ retraces post (u32 (count + 1)) calls
  | _ :: calls => retraces post count calls

theorem called_step (v : Vi) (call : ViCall) (calls : List ViCall) :
    (exec v call).2.host.called ++ retraces (exec v call).2.host.postFn
        ((exec v call).2.sdk.value GC_SDK_OFF_VI_RETRACE_COUNT) calls =
      v.host.called ++ retraces v.host.postFn (v.sdk.value GC_SDK_OFF_VI_RETRACE_COUNT) (call :: calls) := by
  rw [host_exec, value_retrace]
  cases call with
  | VIWaitForRetrace =>
    simp only [Host.step, Host.enter, if_true, retraces]
    split <;> simp
  | _ => simp only [Host.step, reduceCtorEq, if_false, retraces]

theorem returned_step (v : Vi) (call : ViCall) :
    u32 ((exec v call).2.sdk.value GC_SDK_OFF_VI_POST_CB_CALLS + (exec v call).2.host.running.length +
        v.host.called.length) =
      u32 (v.sdk.value GC_SDK_OFF_VI_POST_CB_CALLS + v.host.running.length + (exec v call).2.host.called.length) := by
  rw [host_exec, value_called]
  cases call with
  | VIWaitForRetrace =>
    simp only [Host.step, Host.enter, reduceCtorEq, false_and, if_false]
    split
    · rfl
    · simp only [List.length_cons, List.length_append, List.length_nil]
      congr 1
      omega
  | callbackReturns =>
    simp only [Host.step, true_and]
    cases hr : v.host.running with
    | nil => simp
    | cons rc running =>
      simp only [ne_eq, reduceCtorEq, not_false_eq_true, if_true, List.tail_cons, List.length_cons, u32]
      omega
  | _ => simp only [Host.step, reduceCtorEq, false_and, if_false]

/-- Every retrace calls the callback that is set at that moment, once and with its own count, also when
callbacks wait for further retraces; the counters in the state page are those of the history. -/
theorem retraces_call_back (v : Vi) (calls : List ViCall) :
    (specAll exec v calls).2.host.called =
        v.host.called ++ retraces v.host.postFn (v.sdk.value GC_SDK_OFF_VI_RETRACE_COUNT) calls ∧
      (specAll exec v calls).2.sdk.value GC_SDK_OFF_VI_RETRACE_COUNT =
        u32 (v.sdk.value GC_SDK_OFF_VI_RETRACE_COUNT + calls.count .VIWaitForRetrace) ∧
      u32 ((specAll exec v calls).2.sdk.value GC_SDK_OFF_VI_POST_CB_CALLS +
          (specAll exec v calls).2.host.running.length + v.host.called.length) =
        u32 (v.sdk.value GC_SDK_OFF_VI_POST_CB_CALLS + v.host.running.length +
          (specAll exec v calls).2.host.called.length) := by
  induction calls generalizing v with
  | nil =>
    refine ⟨(List.append_nil _).symm, ?_, rfl⟩
    exact (Nat.mod_eq_of_lt (value_lt _ _)).symm
  | cons call calls ih =>
    obtain ⟨hcalled, hcount, hreturned⟩ := ih (exec v call).2
    refine ⟨?_, ?_, ?_⟩
    · rw [specAll, hcalled, called_step]
    · rw [specAll, hcount, value_retrace, List.count_cons]
      unfold u32
      split
      · rename_i h
        rw [if_pos (by rw [h]; rfl)]
        omega
      · rename_i h
        rw [if_neg (by simpa using h)]
        rfl
    · have hs := returned_step v call
      simp only [specAll]
      unfold u32 at hs hreturned ⊢
      omega

/-! ### Tokens -/

/-- The token a callback has once it was met. -/
def tokenOf (seen : List Nat) (cb : Nat) : Nat :=
  if cb = 0 then 0
  else if 0x80000000 ≤ cb ∧ cb < 0x81800000 then cb
  else ((Intern.number seen cb).map (· + 1)).getD LOSSY

/-- The token of a callback is final. -/
def Final (seen : List Nat) (cb : Nat) : Prop :=
  cb = 0 ∨ (0x80000000 ≤ cb ∧ cb < 0x81800000) ∨ Intern.Settled 16 seen cb

/-- What is stored for a callback is its token in the table it leaves, for good. -/
theorem viCbTokenize_spec (seen : List Nat) (cb : Nat) :
    (viCbTokenize seen cb).1 = tokenOf (viCbTokenize seen cb).2 cb ∧ Final (viCbTokenize seen cb).2 cb := by
  unfold viCbTokenize
  by_cases h₀ : cb = 0
  · simp [h₀, tokenOf, Final]
  by_cases h₁ : 0x80000000 ≤ cb ∧ cb < 0x81800000
  · rw [if_neg h₀, if_pos h₁]
    exact ⟨by rw [tokenOf, if_neg h₀, if_pos h₁], Or.inr (Or.inl h₁)⟩
  rw [if_neg h₀, if_neg h₁]
  simp only [tokenOf, if_neg h₀, if_neg h₁]
  by_cases hm : cb ∈ seen
  · rw [if_pos hm]
    exact ⟨by simp [Intern.number, hm], Or.inr (Or.inr (Or.inl hm))⟩
  rw [if_neg hm]
  by_cases hl : seen.length < 16
  · rw [if_pos hl]
    refine ⟨?_, Or.inr (Or.inr (Or.inl (by simp)))⟩
    have hi : (seen ++ [cb]).idxOf cb = seen.length := by
      rw [List.idxOf_append_of_notMem hm]
      simp
    simp [Intern.number, hi]
  · rw [if_neg hl]
    exact ⟨by simp [Intern.number, hm], Or.inr (Or.inr (Or.inr (Nat.le_of_not_lt hl)))⟩

theorem tokenOf_final (hf : Final seen cb) (hp : seen <+: seen') (h : seen'.length ≤ 16) :
    tokenOf seen' cb = tokenOf seen cb ∧ Final seen' cb := by
  rcases hf with rfl | hm | hs
  · exact ⟨rfl, Or.inl rfl⟩
  · have h₀ : cb ≠ 0 := by omega
    exact ⟨by rw [tokenOf, tokenOf, if_neg h₀, if_pos hm, if_neg h₀, if_pos hm], Or.inr (Or.inl hm)⟩
  · exact ⟨by rw [tokenOf, tokenOf, Intern.number_settled hs hp h], Or.inr (Or.inr (hs.mono hp))⟩

/-- Tokens tell callbacks apart, but for the lossy one. -/
theorem tokenOf_inj (h : seen.length ≤ 16) (he : tokenOf seen cb = tokenOf seen cb') (hl : tokenOf seen cb ≠ LOSSY) :
    cb = cb' := by
  have hnum : ∀ x, ((Intern.number seen x).map (· + 1)).getD LOSSY = LOSSY ∨
      ∃ n, Intern.number seen x = some n ∧ ((Intern.number seen x).map (· + 1)).getD LOSSY = n + 1 ∧ n < 16 := by
    intro x
    cases hx : Intern.number seen x with
    | none => exact Or.inl rfl
    | some n => exact Or.inr ⟨n, rfl, rfl, Nat.lt_of_lt_of_le (Intern.number_lt hx) h⟩
  unfold tokenOf LOSSY at *
  rcases hnum cb with hc | ⟨n, hn, hc, hlt⟩ <;> rcases hnum cb' with hc' | ⟨n', hn', hc', hlt'⟩ <;>
    rw [hc] at he hl <;> rw [hc'] at he
  · grind
  · grind
  · grind
  · by_cases hnn : n = n'
    · have := Intern.number_inj hn (hnn ▸ hn')
      exact this
    · grind

/-! ### What a dump tells -/

inductive Slot where
  | post | pre
  deriving DecidableEq

/-- The callback that is set. -/
def Vi.callback (v : Vi) : Slot → Nat
  | .post => v.host.postFn
  | .pre => v.host.preFn

/-- The word for it in the state page. -/
def Vi.word (v : Vi) : Slot → Nat
  | .post => v.sdk.value GC_SDK_OFF_VI_POST_CB_PTR
  | .pre => v.sdk.value GC_SDK_OFF_VI_PRE_CB_PTR

/-- The words are the tokens of the callbacks, for good. -/
structure Tokens (v : Vi) : Prop where
  room : v.host.seen.length ≤ 16
  word : ∀ slot, v.word slot = tokenOf v.host.seen (v.callback slot)
  final : ∀ slot, Final v.host.seen (v.callback slot)

/-- The callback a call sets. -/
def set? : ViCall → Option (Slot × Nat)
  | .VISetPostRetraceCallback cb => some (.post, cb)
  | .VISetPreRetraceCallback cb => some (.pre, cb)
  | _ => none

theorem value_exchange_ptr {s : SdkState} {ptr setCalls token : Nat} (ht : token < 2 ^ 32)
    (h₁ : GC_SDK_OFF_OS_INTS_ENABLED + 4 ≤ ptr) (h₂ : GC_SDK_OFF_OS_RESTORE_CALLS + 4 ≤ ptr)
    (h₃ : GC_SDK_OFF_VI_RESTORE_CALLS + 4 ≤ ptr) (h₄ : ptr + 4 ≤ setCalls) :
    (exchange s ptr setCalls token).value ptr = token := by
  rw [exchange, viRestoreInterrupts, SdkState.OSRestoreInterrupts, value_storeMirror_other (Or.inl h₁),
    value_countMapped_other (Or.inl h₂), value_count_other (Or.inl h₃), value_countMapped_other (Or.inr h₄)]
  exact value_storeMirror_self ht

theorem word_plain (v : Vi) (call : ViCall) (slot : Slot) (h : set? call = none) :
    (exec v call).2.word slot = v.word slot := by
  cases call with
  | VISetPostRetraceCallback cb => cases h
  | VISetPreRetraceCallback cb => cases h
  | callbackReturns =>
    cases slot <;> simp only [exec, callbackReturns, Vi.word] <;> split <;>
      simp (disch := decide) only [value_storeMirror_other, value_count_other]
  | _ =>
    cases slot <;>
    simp (disch := decide) only [exec, Vi.word, VIFlush, VIInit, VISetBlack, VIWaitForRetrace,
      VIConfigure, VIConfigurePan, VIGetDTVStatus, VIGetTvFormat, VIGetNextField, VIGetRetraceCount,
      viRestoreInterrupts, viDisableInterrupts, SdkState.OSDisableInterrupts, SdkState.OSEnableInterrupts,
      SdkState.OSRestoreInterrupts, value_refresh, value_storeMirror_other, value_add_other, value_count_other,
      value_countMapped_other]

/-- A setter stores the callback and its token in its own place. -/
theorem exec_set (v : Vi) (call : ViCall) (slot : Slot) (cb : Nat) (hr : v.host.seen.length ≤ 16)
    (h : set? call = some (slot, cb)) :
    (exec v call).2.host.seen = (viCbTokenize v.host.seen cb).2 ∧
      (∀ s, (exec v call).2.callback s = if s = slot then cb else v.callback s) ∧
      ∀ s, (exec v call).2.word s = if s = slot then (viCbTokenize v.host.seen cb).1 else v.word s := by
  have ht := viCbTokenize_lt hr cb
  cases call with
  | VISetPostRetraceCallback cb' =>
    cases h
    simp only [exec, VISetPostRetraceCallback]
    refine ⟨trivial, fun s => ?_, fun s => ?_⟩
    · cases s <;> simp only [Vi.callback, reduceCtorEq, if_true, if_false]
    · cases s
      · simp only [Vi.word, if_true]
        exact value_exchange_ptr ht (by decide) (by decide) (by decide) (by decide)
      · simp (disch := decide) only [Vi.word, reduceCtorEq, if_false, exchange, viRestoreInterrupts, viDisableInterrupts,
          SdkState.OSDisableInterrupts, SdkState.OSRestoreInterrupts, value_storeMirror_other, value_count_other,
          value_countMapped_other]
  | VISetPreRetraceCallback cb' =>
    cases h
    simp only [exec, VISetPreRetraceCallback]
    refine ⟨trivial, fun s => ?_, fun s => ?_⟩
    · cases s <;> simp only [Vi.callback, reduceCtorEq, if_true, if_false]
    · cases s
      · simp (disch := decide) only [Vi.word, reduceCtorEq, if_false, exchange, viRestoreInterrupts, viDisableInterrupts,
          SdkState.OSDisableInterrupts, SdkState.OSRestoreInterrupts, value_storeMirror_other, value_count_other,
          value_countMapped_other]
      · simp only [Vi.word, if_true]
        exact value_exchange_ptr ht (by decide) (by decide) (by decide) (by decide)
  | _ => cases h

/-- The tokens after a callback was met. -/
theorem Tokens.met (h : Tokens v) (cb : Nat) (slot : Slot) :
    v.word slot = tokenOf (viCbTokenize v.host.seen cb).2 (v.callback slot) ∧
      Final (viCbTokenize v.host.seen cb).2 (v.callback slot) := by
  have hf := tokenOf_final (h.final slot) (seen_grows _ cb) (seen_length h.room cb)
  exact ⟨(h.word slot).trans hf.1.symm, hf.2⟩

theorem seen_plain (h : Host) (rc : Nat) (call : ViCall) (hp : set? call = none) :
    (h.step rc call).seen = h.seen ∧ (h.step rc call).postFn = h.postFn ∧ (h.step rc call).preFn = h.preFn := by
  cases call with
  | VISetPostRetraceCallback cb => cases hp
  | VISetPreRetraceCallback cb => cases hp
  | VIWaitForRetrace =>
    simp only [Host.step, Host.enter]
    split <;> exact ⟨rfl, rfl, rfl⟩
  | _ => exact ⟨rfl, rfl, rfl⟩

theorem Tokens.exec (h : Tokens v) (call : ViCall) :
    Tokens (exec v call).2 ∧ v.host.seen <+: (VI.exec v call).2.host.seen := by
  cases hs : set? call with
  | none =>
    have hp := seen_plain v.host (u32 (v.sdk.value GC_SDK_OFF_VI_RETRACE_COUNT + 1)) call hs
    rw [← host_exec] at hp
    have hcb : ∀ slot, (VI.exec v call).2.callback slot = v.callback slot := by
      intro slot
      cases slot
      · exact hp.2.1
      · exact hp.2.2
    refine ⟨⟨hp.1 ▸ h.room, fun slot => ?_, fun slot => ?_⟩, hp.1 ▸ List.prefix_rfl⟩
    · rw [word_plain v call slot hs, hp.1, hcb]
      exact h.word slot
    · rw [hp.1, hcb]
      exact h.final slot
  | some x =>
    obtain ⟨hseen, hcb, hword⟩ := exec_set v call x.1 x.2 h.room hs
    have hspec := viCbTokenize_spec v.host.seen x.2
    refine ⟨⟨hseen ▸ seen_length h.room x.2, fun slot => ?_, fun slot => ?_⟩, hseen ▸ seen_grows _ x.2⟩
    · rw [hword, hcb, hseen]
      split
      · exact hspec.1
      · exact (h.met x.2 slot).1
    · rw [hcb, hseen]
      split
      · exact hspec.2
      · exact (h.met x.2 slot).2

theorem Tokens.run (h : Tokens v) (calls : List ViCall) :
    Tokens (specAll VI.exec v calls).2 ∧ v.host.seen <+: (specAll VI.exec v calls).2.host.seen := by
  induction calls generalizing v with
  | nil => exact ⟨h, List.prefix_rfl⟩
  | cons call calls ih =>
    obtain ⟨h₁, hp⟩ := h.exec call
    obtain ⟨h₂, hp₂⟩ := ih h₁
    exact ⟨h₂, hp.trans hp₂⟩

/-- The callbacks set by a run, in order. -/
def settings (calls : List ViCall) : List Nat := (calls.filterMap set?).map Prod.snd

/-- Callbacks that are set or have a token were set, by the run or before. -/
theorem met_in_run (v : Vi) (calls : List ViCall) (hr : v.host.seen.length ≤ 16) (hn : v.host.seen.Nodup) :
    (specAll exec v calls).2.host.seen.Nodup ∧
      (∀ cb ∈ (specAll exec v calls).2.host.seen, cb ∈ v.host.seen ∨ cb ∈ settings calls) ∧
      ∀ slot, (specAll exec v calls).2.callback slot = v.callback slot ∨
        (specAll exec v calls).2.callback slot ∈ settings calls := by
  induction calls generalizing v with
  | nil => exact ⟨hn, fun cb hcb => Or.inl hcb, fun slot => Or.inl rfl⟩
  | cons call calls ih =>
    cases hs : set? call with
    | none =>
      have hp := seen_plain v.host (u32 (v.sdk.value GC_SDK_OFF_VI_RETRACE_COUNT + 1)) call hs
      rw [← host_exec] at hp
      have hcb : ∀ slot, (exec v call).2.callback slot = v.callback slot := by
        intro slot
        cases slot
        · exact hp.2.1
        · exact hp.2.2
      have hset : settings (call :: calls) = settings calls := by
        simp only [settings, List.filterMap_cons, hs]
      have := ih (exec v call).2 (hp.1 ▸ hr) (hp.1 ▸ hn)
      simpa only [specAll, hp.1, hcb, hset] using this
    | some x =>
      obtain ⟨hseen, hcb, -⟩ := exec_set v call x.1 x.2 hr hs
      have hset : settings (call :: calls) = x.2 :: settings calls := by
        simp only [settings, List.filterMap_cons, hs, List.map_cons]
      have hmem : (exec v call).2.host.seen.Nodup ∧ ∀ cb ∈ (exec v call).2.host.seen, cb ∈ v.host.seen ∨ cb = x.2 := by
        rw [hseen]
        rcases viCbTokenize_seen v.host.seen x.2 with he | he
        · rw [he]
          exact ⟨hn, fun cb h => Or.inl h⟩
        · rw [he]
          exact ⟨Intern.nodup_add hn, fun cb h => Intern.mem_add h⟩
      obtain ⟨hn', hm', hc'⟩ := ih (exec v call).2 (hseen ▸ seen_length hr x.2) hmem.1
      refine ⟨hn', fun cb h => ?_, fun slot => ?_⟩
      · rw [hset, List.mem_cons]
        rcases hm' cb h with h | h
        · exact (hmem.2 cb h).imp id Or.inl
        · exact Or.inr (Or.inr h)
      · rw [hset, List.mem_cons]
        rcases hc' slot with h | h
        · rw [hcb] at h
          split at h
          · exact Or.inr (Or.inl h)
          · exact Or.inl h
        · exact Or.inr (Or.inr h)

/-- Nothing was set yet. -/
structure Fresh (v : Vi) : Prop where
  seen : v.host.seen = []
  callback : ∀ slot, v.callback slot = 0
  word : ∀ slot, v.word slot = 0

theorem Fresh.tokens (h : Fresh v) : Tokens v where
  room := by simp [h.seen]
  word slot := by simp [h.word, h.callback, tokenOf]
  final slot := Or.inl (h.callback slot)

/-- A lossy token means a callback without a place among sixteen others. -/
theorem lossy_of_word (h : Tokens v) {slot : Slot} (hl : v.word slot = LOSSY) :
    v.callback slot ≠ 0 ∧ v.callback slot ∉ v.host.seen ∧ v.host.seen.length = 16 := by
  have hw := (h.word slot).symm.trans hl
  have hf := h.final slot
  have hr := h.room
  unfold tokenOf Intern.number at hw
  have hidx : v.callback slot ∈ v.host.seen → v.host.seen.idxOf (v.callback slot) < v.host.seen.length :=
    List.idxOf_lt_length_of_mem
  split at hw
  · cases hw
  split at hw
  · unfold LOSSY at hw
    omega
  split at hw
  · rename_i hm
    have := hidx hm
    simp only [LOSSY, Option.map_some, Option.getD_some] at hw
    omega
  · rename_i h₀ h₁ hm
    rcases hf with hf | hf | hf | hf
    · exact absurd hf h₀
    · exact absurd hf h₁
    · exact absurd hf hm
    · exact ⟨h₀, hm, by omega⟩

/-- The words for the callbacks in the state page identify them through a whole run: equal words at any
two moments, of either kind, are of the same callback, and a callback keeps its word. A word is
lossy only when seventeen different callbacks were set. -/
theorem dump_identifies_callbacks (v : Vi) (calls later : List ViCall) (h : Fresh v) (slot slot' : Slot) :
    ((specAll exec v calls).2.word slot ≠ LOSSY →
      ((specAll exec v calls).2.word slot = (specAll exec (specAll exec v calls).2 later).2.word slot' ↔
        (specAll exec v calls).2.callback slot = (specAll exec (specAll exec v calls).2 later).2.callback slot')) ∧
    ((specAll exec v calls).2.word slot = LOSSY →
      ∃ cbs : List Nat, cbs.Nodup ∧ cbs.length = 17 ∧ ∀ cb ∈ cbs, cb ∈ settings calls) := by
  obtain ⟨h₁, -⟩ := h.tokens.run calls
  obtain ⟨h₂, hp⟩ := h₁.run later
  obtain ⟨hn, hm, hc⟩ := met_in_run v calls (by simp [h.seen]) (by simp [h.seen])
  refine ⟨fun hl => ?_, fun hl => ?_⟩
  · have ht := (tokenOf_final (h₁.final slot) hp h₂.room).1.trans (h₁.word slot).symm
    rw [h₂.word slot', ← ht]
    refine ⟨fun he => tokenOf_inj h₂.room he (ht ▸ hl), fun he => by rw [he]⟩
  · obtain ⟨h₀, hns, hlen⟩ := lossy_of_word h₁ hl
    refine ⟨_ :: (specAll exec v calls).2.host.seen, List.nodup_cons.2 ⟨hns, hn⟩, by simp [hlen], ?_⟩
    rw [List.forall_mem_cons]
    refine ⟨?_, fun cb hcb => ?_⟩
    · rcases hc slot with he | he
      · exact absurd (he.trans (h.callback slot)) h₀
      · exact he
    · rcases hm cb hcb with he | he
      · simp [h.seen] at he
      · exact he

theorem dump_identifies_callbacks_trial :
    ((specAll exec trialMapped [.VISetPostRetraceCallback 4]).2.word .post ≠ LOSSY →
      ((specAll exec trialMapped [.VISetPostRetraceCallback 4]).2.word .post =
          (specAll exec (specAll exec trialMapped [.VISetPostRetraceCallback 4]).2 [.VISetPreRetraceCallback 4]).2.word .pre ↔
        (specAll exec trialMapped [.VISetPostRetraceCallback 4]).2.callback .post =
          (specAll exec (specAll exec trialMapped [.VISetPostRetraceCallback 4]).2
            [.VISetPreRetraceCallback 4]).2.callback .pre)) ∧
    ((specAll exec trialMapped [.VISetPostRetraceCallback 4]).2.word .post = LOSSY →
      ∃ cbs : List Nat, cbs.Nodup ∧ cbs.length = 17 ∧ ∀ cb ∈ cbs, cb ∈ settings [.VISetPostRetraceCallback 4]) :=
  dump_identifies_callbacks trialMapped _ _
    ⟨rfl, fun slot => by cases slot <;> rfl, fun slot => by cases slot <;> exact (trial_value _).2⟩ _ _

end SdkPort.VI
