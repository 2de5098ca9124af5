import SdkPort.OS.Interrupts

/-!
# The video interface

`VI.c`: retrace callbacks, counters and the display mode. A retrace callback runs inside
`VIWaitForRetrace` and may call the interface again, so the retraces whose callback has not
returned are part of the state.
-/
namespace SdkPort.VI

open Gc (u32)
open State State.SdkState

abbrev GC_SDK_OFF_VI_DTV_STAT : Nat := 0x16E
abbrev GC_SDK_OFF_VI_DISABLE_CALLS : Nat := 0x180
abbrev GC_SDK_OFF_VI_RESTORE_CALLS : Nat := 0x184
abbrev GC_SDK_OFF_VI_FLUSH_CALLS : Nat := 0x188
abbrev GC_SDK_OFF_VI_WAIT_RETRACE_CALLS : Nat := 0x18C
abbrev GC_SDK_OFF_VI_GET_NEXT_FIELD_CALLS : Nat := 0x190
abbrev GC_SDK_OFF_VI_GET_RETRACE_COUNT_CALLS : Nat := 0x194
abbrev GC_SDK_OFF_VI_SET_BLACK_CALLS : Nat := 0x198
abbrev GC_SDK_OFF_VI_NEXT_FIELD : Nat := 0x19C
abbrev GC_SDK_OFF_VI_RETRACE_COUNT : Nat := 0x1A0
abbrev GC_SDK_OFF_VI_BLACK : Nat := 0x1A4
abbrev GC_SDK_OFF_VI_TV_FORMAT : Nat := 0x1A8
abbrev GC_SDK_OFF_VI_CHANGE_MODE : Nat := 0x1C0
abbrev GC_SDK_OFF_VI_DISP_POS_X : Nat := 0x1C4
abbrev GC_SDK_OFF_VI_DISP_POS_Y : Nat := 0x1C8
abbrev GC_SDK_OFF_VI_DISP_SIZE_X : Nat := 0x1CC
abbrev GC_SDK_OFF_VI_DISP_SIZE_Y : Nat := 0x1D0
abbrev GC_SDK_OFF_VI_FB_SIZE_X : Nat := 0x1D4
abbrev GC_SDK_OFF_VI_FB_SIZE_Y : Nat := 0x1D8
abbrev GC_SDK_OFF_VI_XFB_MODE : Nat := 0x1DC
abbrev GC_SDK_OFF_VI_HELPER_CALLS : Nat := 0x1E0
abbrev GC_SDK_OFF_VI_NON_INTER : Nat := 0x1E4
abbrev GC_SDK_OFF_VI_PAN_POS_X : Nat := 0x1F0
abbrev GC_SDK_OFF_VI_PAN_POS_Y : Nat := 0x1F4
abbrev GC_SDK_OFF_VI_PAN_SIZE_X : Nat := 0x1F8
abbrev GC_SDK_OFF_VI_PAN_SIZE_Y : Nat := 0x1FC
abbrev GC_SDK_OFF_VI_POST_CB_PTR : Nat := 0x200
abbrev GC_SDK_OFF_VI_POST_CB_SET_CALLS : Nat := 0x204
abbrev GC_SDK_OFF_VI_POST_CB_CALLS : Nat := 0x208
abbrev GC_SDK_OFF_VI_POST_CB_LAST_ARG : Nat := 0x20C
abbrev GC_SDK_OFF_VI_PRE_CB_PTR : Nat := 0x210
abbrev GC_SDK_OFF_VI_PRE_CB_SET_CALLS : Nat := 0x214

/-- The words without a global. -/
def lost : List Nat :=
  [GC_SDK_OFF_OS_DISABLE_CALLS, GC_SDK_OFF_OS_RESTORE_CALLS, GC_SDK_OFF_VI_POST_CB_SET_CALLS,
    GC_SDK_OFF_VI_PRE_CB_SET_CALLS]

/-- What is not kept as words. Function pointers are addresses; the null pointer is 0. -/
structure Host where
  /-- `gc_vi_post_cb_fn`. -/
  postFn : Nat
  /-- `gc_vi_pre_cb_fn`. -/
  preFn : Nat
  /-- The static table of `vi_cb_tokenize`, as far as it is filled. -/
  seen : List Nat
  /-- The retraces whose callback has not returned, the innermost first. -/
  running : List Nat
  /-- The callbacks called so far, with their arguments. -/
  called : List (Nat × Nat)

structure Vi where
  sdk : SdkState
  /-- `gc_vi_regs[VI_DTV_STAT]`. -/
  dtvStat : Nat
  host : Host

def LOSSY : Nat := 0xFFFFFFFF

/-- `vi_cb_tokenize`: the token, and the table. -/
def viCbTokenize (seen : List Nat) (cb : Nat) : Nat × List Nat :=
  if cb = 0 then (0, seen)
  else if 0x80000000 ≤ cb ∧ cb < 0x81800000 then (cb, seen)
  else if cb ∈ seen then (seen.idxOf cb + 1, seen)
  else if seen.length < 16 then (seen.length + 1, seen ++ [cb])
  else (LOSSY, seen)

def viDisableInterrupts (s : SdkState) : Bool × SdkState := (s.count GC_SDK_OFF_VI_DISABLE_CALLS).OSDisableInterrupts

def viRestoreInterrupts (s : SdkState) (level : Bool) : SdkState :=
  ((s.count GC_SDK_OFF_VI_RESTORE_CALLS).OSRestoreInterrupts level).2

/-- The exchange of a callback in the two setters: its token, and the count of its setter. -/
def exchange (s : SdkState) (ptr setCalls token : Nat) : SdkState :=
  viRestoreInterrupts ((((viDisableInterrupts s).2.storeMirror ptr token).countMapped setCalls)) (viDisableInterrupts s).1

def VISetPostRetraceCallback (v : Vi) (callback : Nat) : Nat × Vi :=
  let token := viCbTokenize v.host.seen callback
  (v.host.postFn,
    { v with
      sdk := exchange v.sdk GC_SDK_OFF_VI_POST_CB_PTR GC_SDK_OFF_VI_POST_CB_SET_CALLS token.1
      host := { v.host with postFn := callback, seen := token.2 } })

def VISetPreRetraceCallback (v : Vi) (callback : Nat) : Nat × Vi :=
  let token := viCbTokenize v.host.seen callback
  (v.host.preFn,
    { v with
      sdk := exchange v.sdk GC_SDK_OFF_VI_PRE_CB_PTR GC_SDK_OFF_VI_PRE_CB_SET_CALLS token.1
      host := { v.host with preFn := callback, seen := token.2 } })

def VIFlush (v : Vi) : Vi := { v with sdk := v.sdk.count GC_SDK_OFF_VI_FLUSH_CALLS }

/-- The call of the callback, if there is one, with the count of the retrace. -/
def Host.enter (h : Host) (rc : Nat) : Host :=
  if h.postFn = 0 then h else { h with running := rc :: h.running, called := h.called ++ [(h.postFn, rc)] }

/-- `VIWaitForRetrace` up to the call of the callback. -/
def VIWaitForRetrace (v : Vi) : Vi :=
  let s := v.sdk.count GC_SDK_OFF_VI_WAIT_RETRACE_CALLS
  let rc := u32 (s.value GC_SDK_OFF_VI_RETRACE_COUNT + 1)
  { v with sdk := s.storeMirror GC_SDK_OFF_VI_RETRACE_COUNT rc, host := v.host.enter rc }

/-- `VIWaitForRetrace` from the return of the callback. -/
def callbackReturns (v : Vi) : Vi :=
  match v.host.running with
  | [] => v
  | rc :: running =>
    { v with
      sdk := (v.sdk.count GC_SDK_OFF_VI_POST_CB_CALLS).storeMirror GC_SDK_OFF_VI_POST_CB_LAST_ARG rc
      host := { v.host with running := running } }

def VIGetDTVStatus (v : Vi) : Nat × Vi :=
  let s := (viDisableInterrupts v.sdk).2
  let r := s.loadU16Or GC_SDK_OFF_VI_DTV_STAT v.dtvStat
  (r % 2, { v with dtvStat := r, sdk := viRestoreInterrupts s (viDisableInterrupts v.sdk).1 })

def VIInit (v : Vi) : Vi := { v with sdk := v.sdk.storeMirror GC_SDK_OFF_VI_TV_FORMAT 0 }

def VIGetTvFormat (v : Vi) : Nat × Vi :=
  ((refresh v.sdk GC_SDK_OFF_VI_TV_FORMAT).1, { v with sdk := (refresh v.sdk GC_SDK_OFF_VI_TV_FORMAT).2 })

def VIGetNextField (v : Vi) : Nat × Vi :=
  let s := v.sdk.count GC_SDK_OFF_VI_GET_NEXT_FIELD_CALLS
  ((refresh s GC_SDK_OFF_VI_NEXT_FIELD).1, { v with sdk := (refresh s GC_SDK_OFF_VI_NEXT_FIELD).2 })

def VIGetRetraceCount (v : Vi) : Nat × Vi :=
  let s := v.sdk.count GC_SDK_OFF_VI_GET_RETRACE_COUNT_CALLS
  ((refresh s GC_SDK_OFF_VI_RETRACE_COUNT).1, { v with sdk := (refresh s GC_SDK_OFF_VI_RETRACE_COUNT).2 })

def VISetBlack (v : Vi) (black : Nat) : Vi :=
  { v with
    sdk := (v.sdk.count GC_SDK_OFF_VI_SET_BLACK_CALLS).storeMirror GC_SDK_OFF_VI_BLACK (if black ≠ 0 then 1 else 0) }

/-- The fields of `GXRenderModeObj` that are read. -/
structure RenderMode where
  viTVmode : BitVec 32
  fbWidth : BitVec 16
  xfbHeight : BitVec 16
  viXOrigin : BitVec 16
  viYOrigin : BitVec 16
  viWidth : BitVec 16
  xFBmode : BitVec 32
  deriving DecidableEq

def nonInterOf (rm : RenderMode) : Nat := rm.viTVmode.toNat % 4

def dispPosY (rm : RenderMode) : Nat :=
  if nonInterOf rm = 1 then u32 (rm.viYOrigin.toNat * 2) else rm.viYOrigin.toNat

/-- The words that `VIConfigure` stores, in the order of the source. -/
def VIConfigure (v : Vi) (rm : RenderMode) : Vi :=
  let s := v.sdk.OSDisableInterrupts.2
  let changeMode := if s.value GC_SDK_OFF_VI_NON_INTER ≠ nonInterOf rm then 1 else s.value GC_SDK_OFF_VI_CHANGE_MODE
  let s := s.storeMirror GC_SDK_OFF_VI_CHANGE_MODE changeMode
  let s := s.storeMirror GC_SDK_OFF_VI_NON_INTER (nonInterOf rm)
  let s := s.storeMirror GC_SDK_OFF_VI_DISP_POS_X rm.viXOrigin.toNat
  let s := s.storeMirror GC_SDK_OFF_VI_DISP_POS_Y (dispPosY rm)
  let s := s.storeMirror GC_SDK_OFF_VI_DISP_SIZE_X rm.viWidth.toNat
  let s := s.storeMirror GC_SDK_OFF_VI_FB_SIZE_X rm.fbWidth.toNat
  let s := s.storeMirror GC_SDK_OFF_VI_FB_SIZE_Y rm.xfbHeight.toNat
  let s := s.storeMirror GC_SDK_OFF_VI_XFB_MODE rm.xFBmode.toNat
  let s := s.add GC_SDK_OFF_VI_HELPER_CALLS 7
  { v with sdk := (s.OSRestoreInterrupts true).2 }

def dispSizeY (nonInter xfbMode panSizeY : Nat) : Nat :=
  if nonInter = 2 ∨ nonInter = 3 then panSizeY else if xfbMode = 1 then u32 (panSizeY * 2) else panSizeY

def VIConfigurePan (v : Vi) (xOrg yOrg width height : BitVec 16) : Vi :=
  let s := v.sdk.OSDisableInterrupts.2
  let s := s.storeMirror GC_SDK_OFF_VI_PAN_POS_X xOrg.toNat
  let s := s.storeMirror GC_SDK_OFF_VI_PAN_POS_Y yOrg.toNat
  let s := s.storeMirror GC_SDK_OFF_VI_PAN_SIZE_X width.toNat
  let s := s.storeMirror GC_SDK_OFF_VI_PAN_SIZE_Y height.toNat
  let s := s.storeMirror GC_SDK_OFF_VI_DISP_SIZE_Y
    (dispSizeY (s.value GC_SDK_OFF_VI_NON_INTER) (s.value GC_SDK_OFF_VI_XFB_MODE) (s.value GC_SDK_OFF_VI_PAN_SIZE_Y))
  let s := s.add GC_SDK_OFF_VI_HELPER_CALLS 5
  { v with sdk := (s.OSRestoreInterrupts true).2 }

end SdkPort.VI
