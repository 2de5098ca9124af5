import SdkPort.VI.Vi
import SdkPort.Lib.Intern
import SdkPort.Lib.Refine

/-!
# Runs of the video interface

Calls in any order, also from inside a retrace callback. What they answer does not depend on where
the state page lies, and the callbacks called are those of the history.
-/
namespace SdkPort.VI

open Gc (u32)
open State State.SdkState
open Refine (specAll)

inductive ViCall where
  | VISetPostRetraceCallback (callback : Nat)
  | VISetPreRetraceCallback (callback : Nat)
  | VIFlush
  | VIWaitForRetrace
  | callbackReturns
  | VIGetDTVStatus
  | VIInit
  | VIGetTvFormat
  | VIGetNextField
  | VIGetRetraceCount
  | VISetBlack (black : Nat)
  | VIConfigure (rm : RenderMode)
  | VIConfigurePan (xOrg yOrg width height : BitVec 16)
  | OSDisableInterrupts
  | OSEnableInterrupts
  | OSRestoreInterrupts (level : Bool)
  deriving DecidableEq

/-- What a call returns, 0 where it returns nothing. -/
def exec (v : Vi) : ViCall → Nat × Vi
  | .VISetPostRetraceCallback callback => VISetPostRetraceCallback v callback
  | .VISetPreRetraceCallback callback => VISetPreRetraceCallback v callback
  | .VIFlush => (0, VIFlush v)
  | .VIWaitForRetrace => (0, VIWaitForRetrace v)
  | .callbackReturns => (0, callbackReturns v)
  | .VIGetDTVStatus => VIGetDTVStatus v
  | .VIInit => (0, VIInit v)
  | .VIGetTvFormat => VIGetTvFormat v
  | .VIGetNextField => VIGetNextField v
  | .VIGetRetraceCount => VIGetRetraceCount v
  | .VISetBlack black => (0, VISetBlack v black)
  | .VIConfigure rm => (0, VIConfigure v rm)
  | .VIConfigurePan xOrg yOrg width height => (0, VIConfigurePan v xOrg yOrg width height)
  | .OSDisableInterrupts => (v.sdk.OSDisableInterrupts.1.toNat, { v with sdk := v.sdk.OSDisableInterrupts.2 })
  | .OSEnableInterrupts => (v.sdk.OSEnableInterrupts.1.toNat, { v with sdk := v.sdk.OSEnableInterrupts.2 })
  | .OSRestoreInterrupts level =>
    ((v.sdk.OSRestoreInterrupts level).1.toNat, { v with sdk := (v.sdk.OSRestoreInterrupts level).2 })

variable {seen seen' : List Nat} {cb cb' : Nat} {v v' v₁ v₂ : Vi}

theorem viCbTokenize_seen (seen : List Nat) (cb : Nat) :
    (viCbTokenize seen cb).2 = seen ∨ (viCbTokenize seen cb).2 = Intern.add 16 seen cb := by
  by_cases h₀ : cb = 0
  · exact Or.inl (by rw [viCbTokenize, if_pos h₀])
  by_cases h₁ : 0x80000000 ≤ cb ∧ cb < 0x81800000
  · exact Or.inl (by rw [viCbTokenize, if_neg h₀, if_pos h₁])
  · right
    rw [viCbTokenize, if_neg h₀, if_neg h₁, Intern.add]
    by_cases hs : cb ∈ seen
    · rw [if_pos hs, if_pos hs]
    · rw [if_neg hs, if_neg hs]
      by_cases hf : seen.length < 16
      · rw [if_pos hf, if_pos hf]
      · rw [if_neg hf, if_neg hf]

theorem seen_grows (seen : List Nat) (cb : Nat) : seen <+: (viCbTokenize seen cb).2 := by
  rcases viCbTokenize_seen seen cb with h | h
  · exact h.symm ▸ List.prefix_rfl
  · rw [h]
    exact Intern.prefix_add 16 seen cb

theorem seen_length (h : seen.length ≤ 16) (cb : Nat) : (viCbTokenize seen cb).2.length ≤ 16 := by
  rcases viCbTokenize_seen seen cb with he | he
  · rw [he]
    exact h
  · rw [he]
    exact Intern.length_add h

/-! ### Wherever the page lies -/

variable {s₁ s₂ : SdkState} {off token : Nat}

theorem like_refresh (h : Like lost s₁ s₂) (off : Nat) : Like lost (refresh s₁ off).2 (refresh s₂ off).2 := by
  intro off' ho hl
  rw [value_refresh, value_refresh, h off' ho hl]

theorem like_disable (h : Like lost s₁ s₂) : s₁.OSDisableInterrupts.1 = s₂.OSDisableInterrupts.1 ∧
    Like lost s₁.OSDisableInterrupts.2 s₂.OSDisableInterrupts.2 := by
  refine ⟨?_, (h.countMapped (by decide) (by decide)).storeMirror (by decide) (by decide)⟩
  simp only [SdkState.OSDisableInterrupts, enabled, h GC_SDK_OFF_OS_INTS_ENABLED (by decide) (by decide)]

theorem like_restore (h : Like lost s₁ s₂) (level : Bool) :
    (s₁.OSRestoreInterrupts level).1 = (s₂.OSRestoreInterrupts level).1 ∧
      Like lost (s₁.OSRestoreInterrupts level).2 (s₂.OSRestoreInterrupts level).2 := by
  refine ⟨?_, (h.countMapped (by decide) (by decide)).storeMirror (by decide) (by cases level <;> decide)⟩
  simp only [SdkState.OSRestoreInterrupts, enabled, h GC_SDK_OFF_OS_INTS_ENABLED (by decide) (by decide)]

theorem like_viDisable (h : Like lost s₁ s₂) : (viDisableInterrupts s₁).1 = (viDisableInterrupts s₂).1 ∧
    Like lost (viDisableInterrupts s₁).2 (viDisableInterrupts s₂).2 :=
  like_disable (h.count (by decide) (by decide))

theorem like_viRestore (h : Like lost s₁ s₂) (level : Bool) :
    Like lost (viRestoreInterrupts s₁ level) (viRestoreInterrupts s₂ level) :=
  (like_restore (h.count (by decide) (by decide)) level).2

theorem like_exchange {ptr setCalls : Nat} (h : Like lost s₁ s₂) (hp : ptr % 4 = 0) (hs : setCalls % 4 = 0)
    (hm : setCalls ∈ lost) (ht : token < 2 ^ 32) :
    Like lost (exchange s₁ ptr setCalls token) (exchange s₂ ptr setCalls token) := by
  have hd := like_viDisable h
  rw [exchange, exchange, hd.1]
  exact like_viRestore ((hd.2.storeMirror hp ht).countMapped hs hm) _

theorem viCbTokenize_lt (h : seen.length ≤ 16) (cb : Nat) : (viCbTokenize seen cb).1 < 2 ^ 32 := by
  unfold viCbTokenize LOSSY
  split
  · simp
  split
  · simp only
    omega
  split
  · have := List.idxOf_lt_length_of_mem ‹cb ∈ seen›
    simp only
    omega
  split
  · simp only
    omega
  · simp

/-- The status as it is read. -/
def Vi.dtv (v : Vi) : Nat := v.sdk.loadU16Or GC_SDK_OFF_VI_DTV_STAT v.dtvStat

/-- The part that is not kept as words, after a call. The count is that of a retrace. -/
def Host.step (h : Host) (rc : Nat) : ViCall → Host
  | .VISetPostRetraceCallback cb => { h with postFn := cb, seen := (viCbTokenize h.seen cb).2 }
  | .VISetPreRetraceCallback cb => { h with preFn := cb, seen := (viCbTokenize h.seen cb).2 }
  | .VIWaitForRetrace => h.enter rc
  | .callbackReturns => { h with running := h.running.tail }
  | _ => h

theorem host_exec (v : Vi) (call : ViCall) :
    (exec v call).2.host = v.host.step (u32 (v.sdk.value GC_SDK_OFF_VI_RETRACE_COUNT + 1)) call := by
  cases call with
  | VIWaitForRetrace => simp (disch := decide) only [exec, VIWaitForRetrace, Host.step, value_count_other]
  | callbackReturns =>
    obtain ⟨sdk, stat, ⟨post, pre, seen, running, called⟩⟩ := v
    cases running <;> simp only [exec, callbackReturns, Host.step, List.tail_nil, List.tail_cons]
  | _ =>
    simp only [exec, Host.step, VISetPostRetraceCallback, VISetPreRetraceCallback, VIFlush, VIInit, VISetBlack,
      VIConfigure, VIConfigurePan, VIGetDTVStatus, VIGetTvFormat, VIGetNextField, VIGetRetraceCount]

/-- Two interfaces that read alike, whatever memory is behind them. -/
structure Alike (v₁ v₂ : Vi) : Prop where
  sdk : Like lost v₁.sdk v₂.sdk
  dtv : v₁.dtv = v₂.dtv
  host : v₁.host = v₂.host
  room : v₁.host.seen.length ≤ 16
  args : ∀ rc ∈ v₁.host.running, rc < 2 ^ 32

/-- A status that was read is the one in its global. -/
theorem loadU16Or_idem (s : SdkState) (off fallback : Nat) :
    s.loadU16Or off (s.loadU16Or off fallback) = s.loadU16Or off fallback := by
  unfold loadU16Or
  split <;> rfl

/-- No call stores into the status. -/
theorem dtv_exec (v : Vi) (call : ViCall) : (exec v call).2.dtv = v.dtv := by
  cases call with
  | callbackReturns =>
    simp only [exec, callbackReturns, Vi.dtv]
    split <;> simp (disch := decide) only [loadU16Or_storeMirror, loadU16Or_count]
  | _ =>
    simp (disch := decide) only [exec, Vi.dtv, VISetPostRetraceCallback, VISetPreRetraceCallback, VIFlush,
      VIWaitForRetrace, VIInit, VISetBlack, VIConfigure, VIConfigurePan, VIGetDTVStatus, VIGetTvFormat, VIGetNextField,
      VIGetRetraceCount, exchange, viRestoreInterrupts, viDisableInterrupts, SdkState.OSDisableInterrupts,
      SdkState.OSEnableInterrupts, SdkState.OSRestoreInterrupts, loadU16Or_refresh, loadU16Or_storeMirror,
      loadU16Or_add, loadU16Or_count, loadU16Or_countMapped, loadU16Or_idem]

theorem dispPosY_lt (rm : RenderMode) : dispPosY rm < 2 ^ 32 := by
  unfold dispPosY u32
  split <;> omega

theorem dispSizeY_lt {a b n : Nat} (h : n < 2 ^ 32) : dispSizeY a b n < 2 ^ 32 := by
  unfold dispSizeY u32
  split
  · exact h
  split <;> omega

theorem like_configure (h : Like lost v₁.sdk v₂.sdk) (rm : RenderMode) :
    Like lost (VIConfigure v₁ rm).sdk (VIConfigure v₂ rm).sdk := by
  have hd := (like_disable h).2
  simp only [VIConfigure]
  generalize v₁.sdk.OSDisableInterrupts.2 = s₁ at hd ⊢
  generalize v₂.sdk.OSDisableInterrupts.2 = s₂ at hd ⊢
  rw [hd GC_SDK_OFF_VI_NON_INTER (by decide) (by decide), hd GC_SDK_OFF_VI_CHANGE_MODE (by decide) (by decide)]
  refine (like_restore (Like.add ?_ (by decide) (by decide) 7) true).2
  have hc : (if s₂.value GC_SDK_OFF_VI_NON_INTER ≠ nonInterOf rm then 1
      else s₂.value GC_SDK_OFF_VI_CHANGE_MODE) < 2 ^ 32 := by
    split
    · decide
    · exact value_lt _ _
  have hn : nonInterOf rm < 2 ^ 32 := by
    unfold nonInterOf
    omega
  have hy := dispPosY_lt rm
  repeat' apply Like.storeMirror
  any_goals decide
  any_goals omega

theorem like_configurePan (h : Like lost v₁.sdk v₂.sdk) (xOrg yOrg width height : BitVec 16) :
    Like lost (VIConfigurePan v₁ xOrg yOrg width height).sdk (VIConfigurePan v₂ xOrg yOrg width height).sdk := by
  have hd := (like_disable h).2
  simp only [VIConfigurePan]
  generalize v₁.sdk.OSDisableInterrupts.2 = s₁ at hd ⊢
  generalize v₂.sdk.OSDisableInterrupts.2 = s₂ at hd ⊢
  have hp : Like lost
      ((((s₁.storeMirror GC_SDK_OFF_VI_PAN_POS_X xOrg.toNat).storeMirror GC_SDK_OFF_VI_PAN_POS_Y yOrg.toNat).storeMirror
        GC_SDK_OFF_VI_PAN_SIZE_X width.toNat).storeMirror GC_SDK_OFF_VI_PAN_SIZE_Y height.toNat)
      ((((s₂.storeMirror GC_SDK_OFF_VI_PAN_POS_X xOrg.toNat).storeMirror GC_SDK_OFF_VI_PAN_POS_Y yOrg.toNat).storeMirror
        GC_SDK_OFF_VI_PAN_SIZE_X width.toNat).storeMirror GC_SDK_OFF_VI_PAN_SIZE_Y height.toNat) := by
    repeat' apply Like.storeMirror
    any_goals decide
    any_goals omega
  rw [hp GC_SDK_OFF_VI_NON_INTER (by decide) (by decide), hp GC_SDK_OFF_VI_XFB_MODE (by decide) (by decide),
    hp GC_SDK_OFF_VI_PAN_SIZE_Y (by decide) (by decide)]
  exact (like_restore ((hp.storeMirror (by decide) (dispSizeY_lt (value_lt _ _))).add (by decide) (by decide) 5) true).2

theorem like_enable (h : Like lost s₁ s₂) : s₁.OSEnableInterrupts.1 = s₂.OSEnableInterrupts.1 ∧
    Like lost s₁.OSEnableInterrupts.2 s₂.OSEnableInterrupts.2 := by
  refine ⟨?_, h.storeMirror (by decide) (by decide)⟩
  simp only [SdkState.OSEnableInterrupts, enabled, h GC_SDK_OFF_OS_INTS_ENABLED (by decide) (by decide)]

/-- A getter of a word that counts its calls. -/
theorem like_getter {counter : Nat} (h : Like lost s₁ s₂) (hc : counter % 4 = 0) (hcl : counter ∉ lost)
    (ho : off % 4 = 0) (hl : off ∉ lost) :
    (refresh (s₁.count counter) off).1 = (refresh (s₂.count counter) off).1 ∧
      Like lost (refresh (s₁.count counter) off).2 (refresh (s₂.count counter) off).2 :=
  ⟨(h.count hc hcl) off ho hl, like_refresh (h.count hc hcl) off⟩

theorem like_exec (h : Alike v₁ v₂) (call : ViCall) : Like lost (exec v₁ call).2.sdk (exec v₂ call).2.sdk := by
  have hs := h.sdk
  have ht := fun cb => viCbTokenize_lt h.room cb
  cases call with
  | VISetPostRetraceCallback cb =>
    simp only [exec, VISetPostRetraceCallback, ← h.host]
    exact like_exchange hs (by decide) (by decide) (by decide) (ht cb)
  | VISetPreRetraceCallback cb =>
    simp only [exec, VISetPreRetraceCallback, ← h.host]
    exact like_exchange hs (by decide) (by decide) (by decide) (ht cb)
  | VIFlush => exact hs.count (by decide) (by decide)
  | VIWaitForRetrace =>
    have hw : Like lost (v₁.sdk.count GC_SDK_OFF_VI_WAIT_RETRACE_CALLS) (v₂.sdk.count GC_SDK_OFF_VI_WAIT_RETRACE_CALLS) :=
      hs.count (by decide) (by decide)
    simp only [exec, VIWaitForRetrace, hw GC_SDK_OFF_VI_RETRACE_COUNT (by decide) (by decide)]
    exact hw.storeMirror (by decide) (Nat.mod_lt _ (by decide))
  | callbackReturns =>
    have ha := h.args
    rw [h.host] at ha
    simp only [exec, callbackReturns, h.host]
    cases hr : v₂.host.running with
    | nil => exact hs
    | cons rc running =>
      rw [hr] at ha
      exact (hs.count (by decide) (by decide)).storeMirror (by decide) (ha rc List.mem_cons_self)
  | VIGetDTVStatus =>
    simp only [exec, VIGetDTVStatus, (like_viDisable hs).1]
    exact like_viRestore (like_viDisable hs).2 _
  | VIInit => exact hs.storeMirror (by decide) (by decide)
  | VIGetTvFormat => exact like_refresh hs _
  | VIGetNextField => exact (like_getter hs (by decide) (by decide) (by decide) (by decide)).2
  | VIGetRetraceCount => exact (like_getter hs (by decide) (by decide) (by decide) (by decide)).2
  | VISetBlack black =>
    exact (hs.count (by decide) (by decide)).storeMirror (by decide) (by split <;> decide)
  | VIConfigure rm => exact like_configure hs rm
  | VIConfigurePan x y w h => exact like_configurePan hs x y w h
  | OSDisableInterrupts => exact (like_disable hs).2
  | OSEnableInterrupts => exact (like_enable hs).2
  | OSRestoreInterrupts level => exact (like_restore hs level).2

theorem reply_exec (h : Alike v₁ v₂) (call : ViCall) : (exec v₁ call).1 = (exec v₂ call).1 := by
  have hs := h.sdk
  cases call with
  | VISetPostRetraceCallback cb => simp only [exec, VISetPostRetraceCallback, h.host]
  | VISetPreRetraceCallback cb => simp only [exec, VISetPreRetraceCallback, h.host]
  | VIGetDTVStatus =>
    have hd := h.dtv
    unfold Vi.dtv at hd
    simp (disch := decide) only [exec, VIGetDTVStatus, viDisableInterrupts, SdkState.OSDisableInterrupts,
      loadU16Or_storeMirror, loadU16Or_countMapped, loadU16Or_count, hd]
  | VIGetTvFormat => exact hs _ (by decide) (by decide)
  | VIGetNextField => exact (like_getter hs (by decide) (by decide) (by decide) (by decide)).1
  | VIGetRetraceCount => exact (like_getter hs (by decide) (by decide) (by decide) (by decide)).1
  | OSDisableInterrupts => simp only [exec, (like_disable hs).1]
  | OSEnableInterrupts => simp only [exec, (like_enable hs).1]
  | OSRestoreInterrupts level => simp only [exec, (like_restore hs level).1]
  | _ => simp only [exec]

theorem room_step (h : Host) (rc : Nat) (call : ViCall) (hr : h.seen.length ≤ 16) :
    (h.step rc call).seen.length ≤ 16 := by
  cases call with
  | VISetPostRetraceCallback cb => exact seen_length hr cb
  | VISetPreRetraceCallback cb => exact seen_length hr cb
  | VIWaitForRetrace =>
    simp only [Host.step, Host.enter]
    split <;> exact hr
  | _ => exact hr

theorem args_step (h : Host) (rc : Nat) (call : ViCall) (hrc : rc < 2 ^ 32) (hr : ∀ r ∈ h.running, r < 2 ^ 32) :
    ∀ r ∈ (h.step rc call).running, r < 2 ^ 32 := by
  cases call with
  | VIWaitForRetrace =>
    simp only [Host.step, Host.enter]
    split
    · exact hr
    · exact List.forall_mem_cons.2 ⟨hrc, hr⟩
  | callbackReturns => exact fun r hm => hr r (List.mem_of_mem_tail hm)
  | _ => exact hr

/-- Alike interfaces answer alike, and stay alike. -/
theorem alike_exec (v₁ v₂ : Vi) (call : ViCall) (h : Alike v₁ v₂) :
    (exec v₁ call).1 = (exec v₂ call).1 ∧ Alike (exec v₁ call).2 (exec v₂ call).2 := by
  have hrc := h.sdk GC_SDK_OFF_VI_RETRACE_COUNT (by decide) (by decide)
  refine ⟨reply_exec h call, ⟨like_exec h call, ?_, ?_, ?_, ?_⟩⟩
  · rw [dtv_exec, dtv_exec, h.dtv]
  · rw [host_exec, host_exec, h.host, hrc]
  · rw [host_exec]
    exact room_step _ _ call h.room
  · rw [host_exec]
    exact args_step _ _ call (Nat.mod_lt _ (by decide)) h.args

/-- Every sequence of calls gets the same answers, and calls the same callbacks with the same counts,
whether the state page is mapped, mapped in part or not at all. -/
theorem answers_wherever_the_page_lies (v₁ v₂ : Vi) (calls : List ViCall) (h : Alike v₁ v₂) :
    (specAll exec v₁ calls).1 = (specAll exec v₂ calls).1 ∧
      (specAll exec v₁ calls).2.host = (specAll exec v₂ calls).2.host ∧
      Like lost (specAll exec v₁ calls).2.sdk (specAll exec v₂ calls).2.sdk := by
  have hall := Refine.specAll_congr (fun t t' c hR => alike_exec t t' c hR) h calls
  exact ⟨hall.1, hall.2.host, hall.2.sdk⟩

/-- Nothing was called yet, and the state page is not mapped. -/
def trialVi : Vi := ⟨⟨⟨0, 0, fun _ => 0⟩, fun _ => 0⟩, 0, ⟨0, 0, [], [], []⟩⟩

/-- The same with the page mapped. -/
def trialMapped : Vi := ⟨⟨⟨GC_SDK_STATE_BASE, 0x2000, fun _ => 0⟩, fun _ => 0⟩, 0, ⟨0, 0, [], [], []⟩⟩

theorem trial_value (off : Nat) : trialVi.sdk.value off = 0 ∧ trialMapped.sdk.value off = 0 := by
  refine ⟨?_, ?_⟩ <;> rw [value, loadOr] <;> split
  · simp [trialVi, SdkState.load, Gc.GcMem.load, Gc.GcMem.word]
    split <;> rfl
  · rfl
  · simp [trialMapped, SdkState.load, Gc.GcMem.load, Gc.GcMem.word]
    split <;> rfl
  · rfl

theorem answers_wherever_the_page_lies_trial :
    (specAll exec trialVi [.VISetPostRetraceCallback 4, .VIWaitForRetrace, .VIGetRetraceCount]).1 =
        (specAll exec trialMapped [.VISetPostRetraceCallback 4, .VIWaitForRetrace, .VIGetRetraceCount]).1 ∧
      (specAll exec trialVi [.VISetPostRetraceCallback 4, .VIWaitForRetrace, .VIGetRetraceCount]).2.host =
        (specAll exec trialMapped [.VISetPostRetraceCallback 4, .VIWaitForRetrace, .VIGetRetraceCount]).2.host ∧
      Like lost (specAll exec trialVi [.VISetPostRetraceCallback 4, .VIWaitForRetrace, .VIGetRetraceCount]).2.sdk
        (specAll exec trialMapped [.VISetPostRetraceCallback 4, .VIWaitForRetrace, .VIGetRetraceCount]).2.sdk :=
  answers_wherever_the_page_lies _ _ _
    ⟨fun off _ _ => by rw [(trial_value off).1, (trial_value off).2], by decide, rfl, by decide, by simp [trialVi]⟩

end SdkPort.VI
