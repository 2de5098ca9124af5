import SdkPort.PAD.Pad
import SdkPort.Lib.Pending

/-!
# Resets of controllers

`PADReset` takes a mask of channels and works on one of them. The others wait for later calls.
-/
namespace SdkPort.PAD

open State State.SdkState
open Refine (specAll)
open Function (update update_self update_of_ne)

variable {x y : BitVec 32} {i k : Nat} {p : Pad}

/-- The channels of a mask, from the highest bit on. -/
def channels (x : BitVec 32) : Finset Nat := (Finset.range 32).filter fun i => x.getMsbD i = true

/-- The channels that wait. -/
def Pad.waiting (p : Pad) : Finset Nat := channels (BitVec.ofNat 32 (p.sdk.value GC_SDK_OFF_PAD_RESETTING_BITS))

/-- What a call works on, if anything. -/
def served (chan : Nat) : Option Nat := if chan = 32 then none else some chan

end SdkPort.PAD
