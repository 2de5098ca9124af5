import SdkPort.DVD.CurrentDir
import SdkPort.Lib.ByteMem
import SdkPort.Lib.Refine
import SdkPort.OS.SdkState

/-!
# Files of a disc

`DVD.c`: entries of the table are opened by number or by path. Their bytes come from a table of
contents the host fills. The blocks of open files and the buffers reads fill belong to the caller
and lie beside the emulated memory; the address 0 is the null pointer.
-/
namespace SdkPort.DVD

open ByteMem (load store)
open Gc (GcMem u32)
open State (SdkState GC_SDK_STATE_BASE)
open State.SdkState
open Function (update update_self update_of_ne)

def GC_SDK_OFF_DVD_INITIALIZED : Nat := 0x300
def GC_SDK_OFF_DVD_DRIVE_STATUS : Nat := 0x304
def GC_SDK_OFF_DVD_OPEN_CALLS : Nat := 0x308
def GC_SDK_OFF_DVD_READ_CALLS : Nat := 0x30C
def GC_SDK_OFF_DVD_CLOSE_CALLS : Nat := 0x310
def GC_SDK_OFF_DVD_LAST_READ_LEN : Nat := 0x314
def GC_SDK_OFF_DVD_LAST_READ_OFF : Nat := 0x318

/-- `DVDFileInfo`, with the state of its command block. -/
structure FileInfo where
  state : Int
  startAddr : Nat
  length : Nat
  entrynum : Int
  deriving DecidableEq

/-- How many entries the table of contents has. -/
def TEST_FILES : Nat := 512

/-- The module, with the blocks and the buffers of its callers. -/
structure Dvd where
  fst : St
  mirror : Nat → BitVec 32
  files : Nat → Option (List UInt8)
  asyncBusySeen : Nat
  infos : Nat → FileInfo
  host : Nat → UInt8

namespace Dvd

def sdk (d : Dvd) : SdkState := ⟨d.fst.mem, d.mirror⟩

def setSdk (d : Dvd) (s : SdkState) : Dvd := { d with fst.mem := s.mem, mirror := s.mirror }

def setInfo (d : Dvd) (file : Nat) (info : FileInfo) : Dvd := { d with infos := update d.infos file info }

end Dvd

def DVDInit (d : Dvd) : Dvd :=
  d.setSdk ((d.sdk.storeMirror GC_SDK_OFF_DVD_INITIALIZED 1).storeMirror GC_SDK_OFF_DVD_DRIVE_STATUS 0)

def DVDGetDriveStatus (d : Dvd) : Nat × Dvd :=
  let r := d.sdk.refresh GC_SDK_OFF_DVD_DRIVE_STATUS
  (r.1, d.setSdk r.2)

/-- `gc_dvd_test_reset_files`. -/
def resetFiles (d : Dvd) : Dvd := { d with files := fun _ => none }

/-- What the host keeps of a file; no data is the null pointer, and it may refuse memory. -/
def kept (data : Option (List UInt8)) (malloc : Bool) : Option (List UInt8) :=
  if malloc then data.filter (· ≠ []) else none

/-- `gc_dvd_test_set_file`. -/
def setFile (d : Dvd) (entrynum : Int) (data : Option (List UInt8)) (malloc : Bool) : Dvd :=
  if entrynum < 0 ∨ (TEST_FILES : Int) ≤ entrynum then d
  else { d with files := update d.files entrynum.toNat (kept data malloc) }

/-- `gc_dvd_test_set_paths`. -/
def setPaths (d : Dvd) (paths : List (Option (List UInt8))) : Dvd :=
  { d with fst.testPaths := paths.take 512 }

def fstFilePos (s : St) (entry : Nat) : Nat := fstField s entry 4
def fstFileLen (s : St) (entry : Nat) : Nat := fstField s entry 8

def DVDFastOpen (d : Dvd) (entrynum : Int) (file : Nat) : Int × Dvd :=
  let max := d.fst.fstMaxEntryNum
  if file = 0 ∨ entrynum < 0 then (0, d)
  else if (TEST_FILES : Int) ≤ entrynum ∧ (max = 0 ∨ (max : Int) ≤ entrynum) then (0, d)
  else
    let entry := entrynum.toNat
    if max ≠ 0 then
      if (max : Int) ≤ entrynum then (0, d)
      else if fstEntryIsDir d.fst entry then (0, d)
      else (1, d.setInfo file ⟨0, fstFilePos d.fst entry, fstFileLen d.fst entry, entrynum⟩)
    else
      match d.files entry with
      | none => (0, d)
      | some data => (1, d.setInfo file ⟨0, entry, data.length, entrynum⟩)

def DVDOpen (d : Dvd) (path : List UInt8) (file : Nat) : Option (Int × Dvd) :=
  (DVDConvertPathToEntrynum d.fst path).map fun (entry, s) =>
    let d := { d with fst := s }
    DVDFastOpen (d.setSdk (d.sdk.count GC_SDK_OFF_DVD_OPEN_CALLS)) entry file

/-- What a read leaves in the page before anything is checked. -/
def countRead (d : Dvd) (len offset : BitVec 32) : Dvd :=
  d.setSdk (((d.sdk.count GC_SDK_OFF_DVD_READ_CALLS).storeMirror GC_SDK_OFF_DVD_LAST_READ_LEN
    len.toNat).storeMirror GC_SDK_OFF_DVD_LAST_READ_OFF offset.toNat)

def DVDRead (d : Dvd) (file addr : Nat) (len offset : BitVec 32) : Int × Dvd :=
  if file = 0 ∨ addr = 0 then (-1, d)
  else
    let d := countRead d len offset
    let entry := (d.infos file).entrynum
    if entry < 0 ∨ (TEST_FILES : Int) ≤ entry then (-1, d)
    else
      match d.files entry.toNat with
      | none => (-1, d)
      | some data =>
        if offset.toInt < 0 ∨ len.toInt < 0 then (-1, d)
        else if data.length < offset.toNat then (-1, d)
        else
          let n := if data.length < (offset + len).toNat then data.length - offset.toNat else len.toNat
          (n, { d with host := store d.host addr ((data.drop offset.toNat).take n) })

/-- The result, and what the callback is called with. -/
def DVDReadAsync (d : Dvd) (file addr : Nat) (len offset : BitVec 32) (cb : Bool) : (Int × Option Int) × Dvd :=
  if file = 0 ∨ addr = 0 then ((0, none), d)
  else
    let d := { d.setInfo file { d.infos file with state := 1 } with asyncBusySeen := 1 }
    let (n, d) := DVDRead d file addr len offset
    let d := d.setInfo file { d.infos file with state := 0 }
    ((if n < 0 then 0 else 1, if cb then some (if n < 0 then -1 else n) else none), d)

def DVDReadPrio (d : Dvd) (file addr : Nat) (len offset : BitVec 32) : Int × Dvd :=
  let (n, d) := DVDRead d file addr len offset
  (if n < 0 then -1 else 0, d)

def DVDReadAsyncPrio (d : Dvd) (file addr : Nat) (len offset : BitVec 32) (cb : Bool) : (Int × Option Int) × Dvd :=
  DVDReadAsync d file addr len offset cb

def DVDClose (d : Dvd) : Int × Dvd := (1, d.setSdk (d.sdk.count GC_SDK_OFF_DVD_CLOSE_CALLS))

def DVDGetCommandBlockStatus (d : Dvd) (block : Nat) : Int := if block = 0 then 0 else (d.infos block).state

def DVDCancel (d : Dvd) (block : Nat) : Int × Dvd :=
  if block = 0 then (-1, d)
  else
    let state := (d.infos block).state
    if state = 0 ∨ state = -1 ∨ state = 10 then (0, d)
    else (0, d.setInfo block { d.infos block with state := 10 })

/-! ### Calls -/

/-- The calls of programs, and of the host that fills the tables. -/
inductive DvdCall where
  | DVDInit
  | DVDGetDriveStatus
  | DVDFastOpen (entrynum : Int) (file : Nat)
  | DVDOpen (path : List UInt8) (file : Nat)
  | DVDRead (file addr : Nat) (len offset : BitVec 32)
  | DVDReadAsync (file addr : Nat) (len offset : BitVec 32) (cb : Bool)
  | DVDReadPrio (file addr : Nat) (len offset : BitVec 32)
  | DVDReadAsyncPrio (file addr : Nat) (len offset : BitVec 32) (cb : Bool)
  | DVDClose
  | DVDGetCommandBlockStatus (block : Nat)
  | DVDCancel (block : Nat)
  | DVDChangeDir (dirName : List UInt8)
  | longFileNames (flag : Nat)
  | resetFiles
  | setFile (entrynum : Int) (data : Option (List UInt8)) (malloc : Bool)
  | setPaths (paths : List (Option (List UInt8)))
  deriving DecidableEq

/-- A result, and a callback's. -/
abbrev Reply := Int × Option Int

def plain (r : Int × Dvd) : Option (Reply × Dvd) := some ((r.1, none), r.2)

def execDvd (d : Dvd) : DvdCall → Option (Reply × Dvd)
  | .DVDInit => plain (0, DVDInit d)
  | .DVDGetDriveStatus => plain ((DVDGetDriveStatus d).1, (DVDGetDriveStatus d).2)
  | .DVDFastOpen entrynum file => plain (DVDFastOpen d entrynum file)
  | .DVDOpen path file => (DVDOpen d path file).bind plain
  | .DVDRead file addr len offset => plain (DVDRead d file addr len offset)
  | .DVDReadAsync file addr len offset cb => some (DVDReadAsync d file addr len offset cb)
  | .DVDReadPrio file addr len offset => plain (DVDReadPrio d file addr len offset)
  | .DVDReadAsyncPrio file addr len offset cb => some (DVDReadAsyncPrio d file addr len offset cb)
  | .DVDClose => plain (DVDClose d)
  | .DVDGetCommandBlockStatus block => plain (DVDGetCommandBlockStatus d block, d)
  | .DVDCancel block => plain (DVDCancel d block)
  | .DVDChangeDir dirName =>
    (DVDChangeDir d.fst dirName).bind fun (b, s) => plain (if b then 1 else 0, { d with fst := s })
  | .longFileNames flag => plain (0, { d with fst.longFileNameFlag := flag })
  | .resetFiles => plain (0, resetFiles d)
  | .setFile entrynum data malloc => plain (0, setFile d entrynum data malloc)
  | .setPaths paths => plain (0, setPaths d paths)

end SdkPort.DVD
