import SdkPort.OS.GcMem
import SdkPort.OS.ThreadMem

/-!
# The heap allocator

`OSAlloc.c`: an array of heap descriptors at the start of the arena, and in each heap a
free list in order of address and a list of allocated cells, both doubly linked through
cell headers in emulated memory. The array and the bounds of the arena are recorded in
the state page if that is mapped, and in globals. Loops over lists take fuel.
-/
namespace SdkPort.OSAlloc

open Gc (u32 GcMem)
open OSThread (toS32 toU32)

/-- Loops that go on for more cells than memory holds, and signed overflow. -/
inductive Fault where
  | fuel | overflow
  deriving DecidableEq, Repr

structure Mach where
  mem : GcMem
  osCurrHeap : Int
  heapArray : Nat
  numHeaps : Int
  arenaStart : Nat
  arenaEnd : Nat

abbrev M := StateT Mach (Except Fault)

def fault (e : Fault) : M α := fun _ => .error e

def loadU32be (addr : Nat) : M Nat := fun s => .ok (s.mem.load addr, s)
def storeU32be (addr v : Nat) : M Unit := fun s => .ok ((), { s with mem := s.mem.store addr v })
def loadI32be (addr : Nat) : M Int := do pure (toS32 (← loadU32be addr))

def GC_SDK_STATE_BASE : Nat := 0x817FE000
def GC_SDK_OFF_OS_CURR_HEAP : Nat := 0x20
def GC_SDK_OFF_OSALLOC_HEAP_ARRAY : Nat := 0x24
def GC_SDK_OFF_OSALLOC_NUM_HEAPS : Nat := 0x28
def GC_SDK_OFF_OSALLOC_ARENA_START : Nat := 0x2C
def GC_SDK_OFF_OSALLOC_ARENA_END : Nat := 0x30

/-- A word of the state page, or the global if the page is not mapped there. -/
def stateLoadU32 (off : Nat) (fallback : Mach → Nat) : M Nat := fun s =>
  .ok (if (s.mem.ptr (GC_SDK_STATE_BASE + off) 4).isSome then s.mem.load (GC_SDK_STATE_BASE + off)
    else fallback s, s)

def stateLoadI32 (off : Nat) (fallback : Mach → Int) : M Int := fun s =>
  .ok (if (s.mem.ptr (GC_SDK_STATE_BASE + off) 4).isSome then
    toS32 (s.mem.load (GC_SDK_STATE_BASE + off)) else fallback s, s)

def stateStoreU32 (off v : Nat) : M Unit := storeU32be (GC_SDK_STATE_BASE + off) v
def stateStoreI32 (off : Nat) (v : Int) : M Unit := stateStoreU32 off (toU32 v)

def setGlobal (f : Mach → Mach) : M Unit := fun s => .ok ((), f s)

def HEAPDESC_SIZE : Nat := 12
def ALIGNMENT : Nat := 32

def roundUp (x a : Nat) : Nat := u32 (x + (a - 1)) &&& (2 ^ 32 - a)
def roundDown (x a : Nat) : Nat := x &&& (2 ^ 32 - a)

/-- More cells than fit in 32 bits of addresses. -/
def cellFuel : Nat := 2 ^ 27

/-- Prepend a cell to a list. -/
def portDLAddFront (list cell : Nat) : M Nat := do
  storeU32be (u32 (cell + 4)) list
  storeU32be cell 0
  if list ≠ 0 then storeU32be list cell
  pure cell

/-- Remove a cell from a list. -/
def portDLExtract (list cell : Nat) : M Nat := do
  let cellNext ← loadU32be (u32 (cell + 4))
  let cellPrev ← loadU32be cell
  if cellNext ≠ 0 then storeU32be cellNext cellPrev
  if cellPrev = 0 then pure cellNext
  else
    storeU32be (u32 (cellPrev + 4)) cellNext
    pure list

/-- The search of `port_DLInsert` for the neighbours of a cell. -/
def insertScan (cell : Nat) : Nat → Nat → Nat → M (Nat × Nat)
  | 0, _, _ => fault .fuel
  | n + 1, prev, next => do
    if next = 0 then pure (prev, next)
    else if cell ≤ next then pure (prev, next)
    else insertScan cell n next (← loadU32be (u32 (next + 4)))

/-- The merge of a cell with its successor, if they touch: once for the inserted cell and
once for its predecessor. -/
def coalesce (cell next : Nat) : M Unit := do
  let cellSize ← loadU32be (u32 (cell + 8))
  if u32 (cell + cellSize) = next then
    let nextSize ← loadU32be (u32 (next + 8))
    storeU32be (u32 (cell + 8)) (u32 (cellSize + nextSize))
    let after ← loadU32be (u32 (next + 4))
    storeU32be (u32 (cell + 4)) after
    if after ≠ 0 then storeU32be after cell

/-- Insert a cell into an address-sorted free list with coalescing. -/
def portDLInsert (list cell : Nat) : M Nat := do
  let (prev, next) ← insertScan cell cellFuel 0 list
  storeU32be (u32 (cell + 4)) next
  storeU32be cell prev
  if next ≠ 0 then
    storeU32be next cell
    coalesce cell next
  if prev ≠ 0 then
    storeU32be (u32 (prev + 4)) cell
    coalesce prev cell
    pure list
  else pure cell

/-- The address of a heap descriptor. -/
def heapDesc (heapArray : Nat) (heap : Int) : Nat := u32 (heapArray + toU32 heap * HEAPDESC_SIZE)

/-- The loop of `OSInitAlloc` over the descriptors from `heap` on. -/
def clearHeaps (arenaLo : Nat) : Nat → Nat → M Unit
  | 0, _ => pure ()
  | k + 1, heap => do
    let hd := heapDesc arenaLo heap
    storeU32be hd 0xFFFFFFFF
    storeU32be (u32 (hd + 4)) 0
    storeU32be (u32 (hd + 8)) 0
    clearHeaps arenaLo k (heap + 1)

def OSInitAlloc (arenaStart arenaEnd : Nat) (maxHeaps : Int) : M Nat := do
  let arraySize := u32 (toU32 maxHeaps * HEAPDESC_SIZE)
  setGlobal ({ · with heapArray := arenaStart })
  setGlobal ({ · with numHeaps := maxHeaps })
  stateStoreU32 GC_SDK_OFF_OSALLOC_HEAP_ARRAY arenaStart
  stateStoreI32 GC_SDK_OFF_OSALLOC_NUM_HEAPS maxHeaps
  clearHeaps arenaStart maxHeaps.toNat 0
  setGlobal ({ · with osCurrHeap := -1 })
  stateStoreI32 GC_SDK_OFF_OS_CURR_HEAP (-1)
  let newLo := roundUp (u32 (arenaStart + arraySize)) ALIGNMENT
  setGlobal ({ · with arenaStart := newLo })
  setGlobal ({ · with arenaEnd := roundDown arenaEnd ALIGNMENT })
  stateStoreU32 GC_SDK_OFF_OSALLOC_ARENA_START newLo
  stateStoreU32 GC_SDK_OFF_OSALLOC_ARENA_END (roundDown arenaEnd ALIGNMENT)
  pure newLo

def getHeapArray : M Nat := stateLoadU32 GC_SDK_OFF_OSALLOC_HEAP_ARRAY (·.heapArray)
def getNumHeaps : M Int := stateLoadI32 GC_SDK_OFF_OSALLOC_NUM_HEAPS (·.numHeaps)

/-- The loop of `OSCreateHeap` over the descriptors from `heap` on. -/
def createScan (s e heapArray : Nat) : Nat → Nat → M Int
  | 0, _ => pure (-1)
  | k + 1, heap => do
    let hd := heapDesc heapArray heap
    let hdSize ← loadI32be hd
    if hdSize < 0 then
      let newSize := u32 (e + 2 ^ 32 - s)
      storeU32be hd newSize
      storeU32be s 0
      storeU32be (u32 (s + 4)) 0
      storeU32be (u32 (s + 8)) newSize
      storeU32be (u32 (s + 12)) 0
      storeU32be (u32 (hd + 4)) s
      storeU32be (u32 (hd + 8)) 0
      pure heap
    else createScan s e heapArray k (heap + 1)

def OSCreateHeap (start stop : Nat) : M Int := do
  let s := roundUp start ALIGNMENT
  let e := roundDown stop ALIGNMENT
  let heapArray ← getHeapArray
  let numHeaps ← getNumHeaps
  createScan s e heapArray numHeaps.toNat 0

/-- The descriptor of a heap that exists, found the same way by all operations on one heap. -/
def openHeap (heap : Int) : M (Option Nat) := do
  let heapArray ← getHeapArray
  let numHeaps ← getNumHeaps
  if heapArray = 0 ∨ heap < 0 ∨ heap ≥ numHeaps then pure none
  else
    let hd := heapDesc heapArray heap
    if (← loadI32be hd) < 0 then pure none
    else pure (some hd)

/-- The first-fit search of `OSAllocFromHeap`. -/
def fitScan (req : Nat) : Nat → Nat → M Nat
  | 0, _ => fault .fuel
  | n + 1, cell => do
    if cell = 0 then pure 0
    else if toS32 req ≤ (← loadI32be (u32 (cell + 8))) then pure cell
    else fitScan req n (← loadU32be (u32 (cell + 4)))

/-- Taking a cell off the free list whole. -/
def takeWhole (hd cell : Nat) : M Unit := do
  let cellPrev ← loadU32be cell
  let cellNext ← loadU32be (u32 (cell + 4))
  if cellNext ≠ 0 then storeU32be cellNext cellPrev
  if cellPrev = 0 then storeU32be (u32 (hd + 4)) cellNext
  else storeU32be (u32 (cellPrev + 4)) cellNext

/-- Putting the rest of a split cell in its place on the free list. -/
def splitCell (hd cell req leftover : Nat) : M Unit := do
  let cellPrev ← loadU32be cell
  let cellNext ← loadU32be (u32 (cell + 4))
  storeU32be (u32 (cell + 8)) req
  let newCell := u32 (cell + req)
  storeU32be (u32 (newCell + 8)) leftover
  storeU32be newCell cellPrev
  storeU32be (u32 (newCell + 4)) cellNext
  storeU32be (u32 (newCell + 12)) 0
  if cellNext ≠ 0 then storeU32be cellNext newCell
  if cellPrev ≠ 0 then storeU32be (u32 (cellPrev + 4)) newCell
  else storeU32be (u32 (hd + 4)) newCell

def OSAllocFromHeap (heap : Int) (size : Nat) : M Nat := do
  if toS32 size ≤ 0 then pure 0
  else
    match ← openHeap heap with
    | none => pure 0
    | some hd =>
      let req := roundUp (u32 (size + 0x20)) ALIGNMENT
      let cell ← fitScan req cellFuel (← loadU32be (u32 (hd + 4)))
      if cell = 0 then pure 0
      else
        let cellSize ← loadU32be (u32 (cell + 8))
        let leftover := u32 (cellSize + 2 ^ 32 - req)
        if leftover < 0x40 then takeWhole hd cell
        else splitCell hd cell req leftover
        let allocHead ← portDLAddFront (← loadU32be (u32 (hd + 8))) cell
        storeU32be (u32 (cell + 12)) hd
        storeU32be (u32 (hd + 8)) allocHead
        pure (u32 (cell + 0x20))

def OSFreeToHeap (heap : Int) (ptr : Nat) : M Unit := do
  if ptr = 0 then pure ()
  else
    match ← openHeap heap with
    | none => pure ()
    | some hd =>
      let cell := u32 (ptr + 2 ^ 32 - 0x20)
      let newAlloc ← portDLExtract (← loadU32be (u32 (hd + 8))) cell
      storeU32be (u32 (hd + 8)) newAlloc
      storeU32be (u32 (cell + 12)) 0
      let newFree ← portDLInsert (← loadU32be (u32 (hd + 4))) cell
      storeU32be (u32 (hd + 4)) newFree

def OSDestroyHeap (heap : Int) : M Unit := do
  let heapArray ← getHeapArray
  let numHeaps ← getNumHeaps
  if heapArray = 0 ∨ heap < 0 ∨ heap ≥ numHeaps then pure ()
  else storeU32be (heapDesc heapArray heap) 0xFFFFFFFF

/-- Signed 32-bit addition. -/
def addS32 (a b : Int) : M Int :=
  if -2 ^ 31 ≤ a + b ∧ a + b < 2 ^ 31 then pure (a + b) else fault .overflow

def OSAddToHeap (heap : Int) (start stop : Nat) : M Unit := do
  match ← openHeap heap with
  | none => pure ()
  | some hd =>
    let s := roundUp start ALIGNMENT
    let e := roundDown stop ALIGNMENT
    let cellSize := u32 (e + 2 ^ 32 - s)
    storeU32be (u32 (s + 8)) cellSize
    storeU32be (u32 (s + 12)) 0
    let size ← addS32 (← loadI32be hd) (toS32 cellSize)
    storeU32be hd (toU32 size)
    let newFree ← portDLInsert (← loadU32be (u32 (hd + 4))) s
    storeU32be (u32 (hd + 4)) newFree

/-- The checks of `OSCheckHeap` on one cell and its successor; the size if they pass. -/
def checkCell (arenaStart arenaEnd cell : Nat) : M (Option Int) := do
  if cell < arenaStart ∨ cell ≥ arenaEnd then pure none
  else if cell &&& (ALIGNMENT - 1) ≠ 0 then pure none
  else
    let cellNext ← loadU32be (u32 (cell + 4))
    if cellNext ≠ 0 ∧ (← loadU32be cellNext) ≠ cell then pure none
    else
      let cellSize ← loadI32be (u32 (cell + 8))
      if cellSize < 0x40 then pure none
      else if toU32 cellSize &&& (ALIGNMENT - 1) ≠ 0 then pure none
      else pure (some cellSize)

/-- The walk over the allocated list: the total so far, or nothing for -1. -/
def checkAllocated (arenaStart arenaEnd : Nat) (hdSize : Int) : Nat → Nat → Int → M (Option Int)
  | 0, _, _ => fault .fuel
  | n + 1, cell, total => do
    if cell = 0 then pure (some total)
    else
      match ← checkCell arenaStart arenaEnd cell with
      | none => pure none
      | some cellSize =>
        let total := total + cellSize
        if total ≤ 0 ∨ total > hdSize then pure none
        else checkAllocated arenaStart arenaEnd hdSize n (← loadU32be (u32 (cell + 4))) total

/-- The walk over the free list: the total and the free bytes so far. -/
def checkFree (arenaStart arenaEnd : Nat) (hdSize : Int) :
    Nat → Nat → Int → Int → M (Option (Int × Int))
  | 0, _, _, _ => fault .fuel
  | n + 1, cell, total, freeBytes => do
    if cell = 0 then pure (some (total, freeBytes))
    else
      match ← checkCell arenaStart arenaEnd cell with
      | none => pure none
      | some cellSize =>
        let cellNext ← loadU32be (u32 (cell + 4))
        if cellNext ≠ 0 ∧ u32 (cell + toU32 cellSize) ≥ cellNext then pure none
        else
          let total := total + cellSize
          let freeBytes := freeBytes + cellSize - 0x20
          if total ≤ 0 ∨ total > hdSize then pure none
          else checkFree arenaStart arenaEnd hdSize n cellNext total freeBytes

/-- The test that the first cell of a list has no predecessor. -/
def headOk (head : Nat) : M Bool := do
  if head = 0 then pure true
  else
    let prev ← loadU32be head
    pure (prev = 0)

def OSCheckHeap (heap : Int) : M Int := do
  let arenaStart ← stateLoadU32 GC_SDK_OFF_OSALLOC_ARENA_START (·.arenaStart)
  let arenaEnd ← stateLoadU32 GC_SDK_OFF_OSALLOC_ARENA_END (·.arenaEnd)
  match ← openHeap heap with
  | none => pure (-1)
  | some hd =>
    let hdSize ← loadI32be hd
    let allocHead ← loadU32be (u32 (hd + 8))
    if ¬ (← headOk allocHead) then pure (-1)
    else
      match ← checkAllocated arenaStart arenaEnd hdSize cellFuel allocHead 0 with
      | none => pure (-1)
      | some total =>
        let freeHead ← loadU32be (u32 (hd + 4))
        if ¬ (← headOk freeHead) then pure (-1)
        else
          match ← checkFree arenaStart arenaEnd hdSize cellFuel freeHead total 0 with
          | none => pure (-1)
          | some (total, freeBytes) => pure (if total ≠ hdSize then -1 else freeBytes)

end SdkPort.OSAlloc
