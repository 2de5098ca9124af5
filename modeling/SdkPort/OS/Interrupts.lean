import SdkPort.OS.SdkState

/-!
# The interrupt level

`OSInterrupts.c`: interrupts are enabled or not, and the calls of two of the functions are counted in
the state page.
-/
namespace SdkPort.State

open Gc (u32)

abbrev GC_SDK_OFF_OS_INTS_ENABLED : Nat := 0x40
abbrev GC_SDK_OFF_OS_DISABLE_CALLS : Nat := 0x44
abbrev GC_SDK_OFF_OS_RESTORE_CALLS : Nat := 0x48

namespace SdkState

/-- The level as the functions return it. -/
def enabled (s : SdkState) : Bool := s.value GC_SDK_OFF_OS_INTS_ENABLED ≠ 0

def OSDisableInterrupts (s : SdkState) : Bool × SdkState :=
  (s.enabled, (s.countMapped GC_SDK_OFF_OS_DISABLE_CALLS).storeMirror GC_SDK_OFF_OS_INTS_ENABLED 0)

def OSEnableInterrupts (s : SdkState) : Bool × SdkState :=
  (s.enabled, s.storeMirror GC_SDK_OFF_OS_INTS_ENABLED 1)

def OSRestoreInterrupts (s : SdkState) (level : Bool) : Bool × SdkState :=
  (s.enabled, (s.countMapped GC_SDK_OFF_OS_RESTORE_CALLS).storeMirror GC_SDK_OFF_OS_INTS_ENABLED
    (if level then 1 else 0))

end SdkState

end SdkPort.State
