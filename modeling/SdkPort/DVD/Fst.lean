import SdkPort.OS.GcMem

/-!
# The file-system table of a disc

`DVD.c`: entries of twelve bytes in emulated memory, in front of the string table with
their names. Paths are strings of bytes; the end of a list is the terminating zero.
-/
namespace SdkPort.DVD

open Gc (GcMem u32)

/-- The first byte of a GC address the boot code leaves the table's address at. -/
def GC_FST_LOCATION : Nat := 0x80000030

/-- The byte at an address, or nothing where no memory is mapped. -/
def dvdLoadU8 (m : GcMem) (addr : Nat) : Option UInt8 := (m.ptr addr 1).map m.buf

/-- The globals of the module and the memory. -/
structure St where
  mem : GcMem
  fstStartAddr : Nat
  fstStringStartAddr : Nat
  fstMaxEntryNum : Nat
  currentDirectory : Nat
  longFileNameFlag : Nat
  testPaths : List (Option (List UInt8))

def fstField (s : St) (entry off : Nat) : Nat := s.mem.load (u32 (s.fstStartAddr + entry * 12 + off))

def fstEntryIsDir (s : St) (entry : Nat) : Bool := fstField s entry 0 / 2 ^ 24 ≠ 0
def fstStringOff (s : St) (entry : Nat) : Nat := fstField s entry 0 % 2 ^ 24
def fstParentDir (s : St) (entry : Nat) : Nat := fstField s entry 4
def fstNextDir (s : St) (entry : Nat) : Nat := fstField s entry 8

def dvdFSInit (s : St) : St :=
  let loc := s.mem.load GC_FST_LOCATION
  if loc = 0 then
    { s with fstStartAddr := loc, fstStringStartAddr := 0, fstMaxEntryNum := 0, currentDirectory := 0 }
  else
    let max := s.mem.load (u32 (loc + 8))
    { s with fstStartAddr := loc, fstStringStartAddr := u32 (loc + max * 12), fstMaxEntryNum := max
             currentDirectory := 0 }

/-- Callers look for a table while there is none. -/
def ready (s : St) : St := if s.fstMaxEntryNum = 0 then dvdFSInit s else s

def tolower (c : UInt8) : UInt8 := if 65 ≤ c ∧ c ≤ 90 then c + 32 else c

/-- The name at an address is the next component of a path; the zero that ends the path
differs from every character of a name. -/
def isSameMem (m : GcMem) (path : List UInt8) (stringAddr : Nat) : Bool :=
  let ended := path.head? = none ∨ path.head? = some 47
  match dvdLoadU8 m stringAddr with
  | none => ended
  | some ch =>
    if ch = 0 then ended
    else
      match path with
      | [] => false
      | c :: path => tolower c = tolower ch ∧ isSameMem m path (u32 (stringAddr + 1))

/-- What a path begins with: nothing, a slash, a component of one or two dots, or a name. -/
inductive Front where
  | done (entry : Nat)
  | go (dir : Nat) (path : List UInt8)
  | name

def front (s : St) (dirLookAt : Nat) (path : List UInt8) : Front :=
  match path with
  | [] => .done dirLookAt
  | c :: path₁ =>
    if c = 47 then .go 0 path₁
    else if c = 46 then
      match path₁ with
      | [] => .done dirLookAt
      | c₁ :: path₂ =>
        if c₁ = 46 then
          match path₂ with
          | [] => .done (fstParentDir s dirLookAt)
          | c₂ :: path₃ => if c₂ = 47 then .go (fstParentDir s dirLookAt) path₃ else .name
        else if c₁ = 47 then .go dirLookAt path₂
        else .name
    else .name

/-- The check of a component against the 8.3 format, from a position on: whether it is
illegal, where the check stopped, and where the extension began. -/
def scanShort : List UInt8 → Nat → Option Nat → Bool → Bool × Nat × Option Nat
  | [], pos, extentionStart, illegal => (illegal, pos, extentionStart)
  | c :: path, pos, extentionStart, illegal =>
    if c = 47 then (illegal, pos, extentionStart)
    else if c = 46 then
      if 8 < pos ∨ extentionStart.isSome then (true, pos, extentionStart)
      else scanShort path (pos + 1) (some (pos + 1)) illegal
    else if c = 32 then scanShort path (pos + 1) extentionStart true
    else scanShort path (pos + 1) extentionStart illegal

/-- The end of a component. -/
def scanLong : List UInt8 → Nat → Nat
  | [], pos => pos
  | c :: path, pos => if c = 47 then pos else scanLong path (pos + 1)

/-- The length of the first component, or nothing if its format is illegal. -/
def scan (s : St) (path : List UInt8) : Option Nat :=
  if s.longFileNameFlag = 0 then
    let (illegal, ptr, extentionStart) := scanShort path 0 none false
    let tooLong : Bool := match extentionStart with
      | none => false
      | some start => 3 < ptr - start
    if illegal ∨ tooLong then none else some ptr
  else some (scanLong path 0)

/-- Steps enough to walk any table. -/
def fstFuel : Nat := 2 ^ 32

/-- The search among the entries of a directory. -/
def findEntry (s : St) (path : List UInt8) (isDir : Bool) (stop : Nat) : Nat → Nat → Option (Option Nat)
  | 0, _ => none
  | n + 1, i =>
    if ¬ i < stop then some none
    else if ¬ (¬ fstEntryIsDir s i ∧ isDir) ∧
        isSameMem s.mem path (u32 (s.fstStringStartAddr + fstStringOff s i)) then some (some i)
    else findEntry s path isDir stop n (if fstEntryIsDir s i then fstNextDir s i else u32 (i + 1))

/-- The walk down a path, one component at a time. -/
def walkPath (s : St) : Nat → Nat → List UInt8 → Option (Option Nat)
  | 0, _, _ => none
  | n + 1, dirLookAt, path =>
    match front s dirLookAt path with
    | .done entry => some (some entry)
    | .go dir path => walkPath s n dir path
    | .name =>
      match scan s path with
      | none => some none
      | some length =>
        let isDir := length < path.length
        match findEntry s path isDir (fstNextDir s dirLookAt) fstFuel (u32 (dirLookAt + 1)) with
        | none => none
        | some none => some none
        | some (some i) => if isDir then walkPath s n i (path.drop (length + 1)) else some (some i)

/-- Conversion to `s32`. -/
def s32 (x : Nat) : Int := if u32 x < 2 ^ 31 then u32 x else u32 x - 2 ^ 32

def DVDConvertPathToEntrynum (s : St) (path : List UInt8) : Option (Int × St) :=
  let s := ready s
  if s.fstMaxEntryNum ≠ 0 then
    (walkPath s (path.length + 1) s.currentDirectory path).map fun
      | none => (-1, s)
      | some entry => (s32 entry, s)
  else
    match s.testPaths.findIdx? (· = some path) with
    | none => some (-1, s)
    | some i => some (i, s)

/-- The copy of a name, as far as there is room. -/
def myStrncpyMem (m : GcMem) (srcAddr : Nat) : Nat → List UInt8
  | 0 => []
  | i + 1 =>
    match dvdLoadU8 m srcAddr with
    | none => []
    | some ch => if ch = 0 then [] else ch :: myStrncpyMem m (u32 (srcAddr + 1)) i

/-- What is written for an entry: its ancestors first. -/
def entryToPathRec (s : St) (maxlen : Nat) : Nat → Nat → Option (List UInt8)
  | 0, _ => none
  | n + 1, entry =>
    if entry = 0 then some []
    else
      (entryToPathRec s maxlen n (fstParentDir s entry)).map fun path =>
        if path.length = maxlen then path
        else
          let path := path ++ [47]
          path ++ myStrncpyMem s.mem (u32 (s.fstStringStartAddr + fstStringOff s entry)) (maxlen - path.length)

/-- The result and, when something was written, the string in the buffer. -/
def DVDConvertEntrynumToPath (s : St) (entrynum : Int) (maxlen : Nat) : Option (Bool × Option (List UInt8)) :=
  if maxlen = 0 ∨ s.fstMaxEntryNum = 0 ∨ entrynum < 0 ∨ (s.fstMaxEntryNum : Int) ≤ entrynum then some (false, none)
  else
    (entryToPathRec s maxlen fstFuel entrynum.toNat).map fun path =>
      if path.length = maxlen then (false, some (path.take (maxlen - 1)))
      else if fstEntryIsDir s entrynum.toNat then
        if path.length = maxlen - 1 then (false, some path) else (true, some (path ++ [47]))
      else (true, some path)

def DVDGetCurrentDir (s : St) (maxlen : Nat) : Option ((Bool × Option (List UInt8)) × St) :=
  let s := ready s
  (DVDConvertEntrynumToPath s (s32 s.currentDirectory) maxlen).map (·, s)

def DVDChangeDir (s : St) (dirName : List UInt8) : Option (Bool × St) :=
  (DVDConvertPathToEntrynum (ready s) dirName).map fun (entry, s) =>
    if entry < 0 then (false, s)
    else if ¬ fstEntryIsDir s entry.toNat then (false, s)
    else (true, { s with currentDirectory := entry.toNat })

end SdkPort.DVD
