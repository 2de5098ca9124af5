import Mathlib.Algebra.Order.Ring.Int
import Mathlib.Logic.Function.Basic

/-!
# The battery-backed RAM

`OSRtc.c`: a buffer of the SRAM is locked, edited, and written back from the least offset
that was committed since the last write succeeded. Whether the device takes a write is
decided from outside.
-/
namespace SdkPort.OSRtc

open Function (update)

def RTC_SRAM_SIZE : Nat := 64

/-- The size of `OSSram`, where `OSSramEx` begins. -/
def sramExOffset : Nat := 20

/-- A call of `WriteSram`: the offset of the commit, where the write began, and how it went. -/
structure Commit where
  offset : Nat
  start : Nat
  ok : Bool
  deriving DecidableEq, Repr

/-- The control block, the level of interrupts, `gc_sram_flags`, and the device with the
writes it was asked for. -/
structure Scb where
  sram : Nat → UInt8
  offset : Nat
  enabled : Bool
  locked : Bool
  sync : Bool
  interrupts : Bool
  flags : UInt8
  device : Nat → UInt8
  commits : List Commit

def OSDisableInterrupts (s : Scb) : Bool × Scb := (s.interrupts, { s with interrupts := false })

def OSRestoreInterrupts (s : Scb) (level : Bool) : Scb := { s with interrupts := level }

/-- A read that succeeds clears the buffer. -/
def ReadSram (s : Scb) (ok : Bool) : Bool × Scb := (ok, if ok then { s with sram := fun _ => 0 } else s)

/-- A write stores its bytes in the device, or fails and stores none. -/
def WriteSram (s : Scb) (offset size : Nat) (ok : Bool) : Bool × Scb :=
  (ok, if ok then { s with device := fun x => if offset ≤ x ∧ x < offset + size then s.sram x else s.device x } else s)

def OSInitSram (s : Scb) (ok : Bool) : Scb :=
  let s := { s with locked := false, enabled := false }
  let (sync, s) := ReadSram s ok
  { s with sync := sync, offset := RTC_SRAM_SIZE }

/-- The offset of the pointer that is returned, none for null. -/
def LockSram (s : Scb) (offset : Nat) : Option Nat × Scb :=
  let (enabled, s) := OSDisableInterrupts s
  if s.locked then (none, OSRestoreInterrupts s enabled)
  else (some offset, { s with enabled := enabled, locked := true })

/-- The offset of the flags in `OSSram`. -/
def sramFlags : Nat := 19

def OSLockSram (s : Scb) : Option Nat × Scb :=
  match LockSram s 0 with
  | (none, s) => (none, s)
  | (some p, s) => (some p, { s with sram := update s.sram (p + sramFlags) s.flags })

def OSLockSramEx (s : Scb) : Option Nat × Scb := LockSram s sramExOffset

/-- A word as a little-endian host reads it. -/
def hostWord (sram : Nat → UInt8) (i : Nat) : Nat := (sram i).toNat + (sram (i + 1)).toNat * 2 ^ 8

def putHostWord (sram : Nat → UInt8) (i v : Nat) : Nat → UInt8 :=
  update (update sram i (UInt8.ofNat v)) (i + 1) (UInt8.ofNat (v / 2 ^ 8))

/-- The sums over the words from the counter bias on. -/
def sumSram (sram : Nat → UInt8) : Nat → UInt8 :=
  let words := (List.range 4).map fun k => hostWord sram (12 + 2 * k)
  let checkSum := words.foldl (fun sum w => (sum + w) % 2 ^ 16) 0
  let checkSumInv := words.foldl (fun sum w => (sum + (0xFFFF - w)) % 2 ^ 16) 0
  putHostWord (putHostWord sram 0 checkSum) 2 checkSumInv

/-- The part of an unlock that commits. -/
def commitSram (s : Scb) (offset : Nat) (ok : Bool) : Scb :=
  let s := if offset = 0 then { s with sram := sumSram s.sram } else s
  let s := if offset < s.offset then { s with offset := offset } else s
  let (sync, s) := WriteSram s s.offset (RTC_SRAM_SIZE - s.offset) ok
  let s := { s with sync := sync, commits := s.commits ++ [Commit.mk offset s.offset ok] }
  if s.sync then { s with offset := RTC_SRAM_SIZE } else s

def UnlockSram (s : Scb) (commit : Bool) (offset : Nat) (ok : Bool) : Bool × Scb :=
  let s := if commit then commitSram s offset ok else s
  let s := { s with locked := false, flags := s.sram sramFlags }
  let s := OSRestoreInterrupts s s.enabled
  (s.sync, s)

def OSUnlockSram (s : Scb) (commit ok : Bool) : Bool × Scb := UnlockSram s commit 0 ok

def OSUnlockSramEx (s : Scb) (commit ok : Bool) : Bool × Scb := UnlockSram s commit sramExOffset ok

def OSSyncSram (s : Scb) : Bool := s.sync

end SdkPort.OSRtc
