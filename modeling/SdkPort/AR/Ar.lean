import SdkPort.OS.GcMem
import SdkPort.Lib.Refine

/-!
# The ARAM allocator

`ar.c`: blocks of ARAM are handed out one above another and given back in reverse. Only the
lengths are kept, as words of emulated memory.
-/
namespace SdkPort.AR

open Gc (u32 GcMem)
open Refine (runAll specAll Legal Simulates)

/-- `port_ARState`. -/
structure ArState where
  stackPointer : Nat
  freeBlocks : Nat
  blockLengthBase : Nat
  blockLengthIdx : Nat
  size : Nat
  initFlag : Bool

/-- The state beside the emulated memory. -/
structure Ar where
  st : ArState
  mem : GcMem

/-- `load_u32be`: there is no read through the null pointer. -/
def loadU32be (m : GcMem) (addr : Nat) : Option Nat := (m.ptr addr 4).map fun _ => m.load addr

def storeU32be (m : GcMem) (addr val : Nat) : Option GcMem := (m.ptr addr 4).map fun _ => m.store addr val

def portARInit (st : ArState) (blockLengthBase numEntries aramSize : Nat) : Nat × ArState :=
  if st.initFlag then (0x4000, st)
  else (0x4000, ⟨0x4000, numEntries, blockLengthBase, 0, aramSize, true⟩)

def portARAlloc (a : Ar) (length : Nat) : Option (Nat × Ar) := do
  let mem ← storeU32be a.mem (u32 (a.st.blockLengthBase + a.st.blockLengthIdx * 4)) length
  return (a.st.stackPointer,
    { st :=
        { a.st with
          stackPointer := u32 (a.st.stackPointer + length)
          blockLengthIdx := u32 (a.st.blockLengthIdx + 1)
          freeBlocks := u32 (a.st.freeBlocks + 2 ^ 32 - 1) }
      mem := mem })

/-- `port_ARFree`: the new top of the stack, and the length where one is asked for. -/
def portARFree (a : Ar) (wantsLength : Bool) : Option ((Nat × Option Nat) × Ar) := do
  let idx := u32 (a.st.blockLengthIdx + 2 ^ 32 - 1)
  let blockLen ← loadU32be a.mem (u32 (a.st.blockLengthBase + idx * 4))
  let top := u32 (a.st.stackPointer + 2 ^ 32 - blockLen)
  return ((top, if wantsLength then some blockLen else none),
    { a with
      st := { a.st with stackPointer := top, blockLengthIdx := idx, freeBlocks := u32 (a.st.freeBlocks + 1) } })

def portARCheckInit (st : ArState) : Bool := st.initFlag

def portARGetBaseAddress (_ : ArState) : Nat := 0x4000

def portARGetSize (st : ArState) : Nat := st.size

inductive ArCall where
  | init (blockLengthBase numEntries aramSize : Nat)
  | alloc (length : Nat)
  | free (wantsLength : Bool)
  | checkInit
  | getBaseAddress
  | getSize
  /-- The program stores a word of its own. -/
  | write (addr v : Nat)
  deriving DecidableEq

inductive Reply where
  | value (v : Nat)
  | freed (top : Nat) (length : Option Nat)
  | flag (b : Bool)
  | done
  deriving DecidableEq

def exec (a : Ar) : ArCall → Option (Reply × Ar)
  | .init base n size => some (.value (portARInit a.st base n size).1, { a with st := (portARInit a.st base n size).2 })
  | .alloc length => (portARAlloc a length).map fun x => (.value x.1, x.2)
  | .free wantsLength => (portARFree a wantsLength).map fun x => (.freed x.1.1 x.1.2, x.2)
  | .checkInit => some (.flag (portARCheckInit a.st), a)
  | .getBaseAddress => some (.value (portARGetBaseAddress a.st), a)
  | .getSize => some (.value (portARGetSize a.st), a)
  | .write addr v => some (.done, { a with mem := a.mem.store addr v })

/-! ### Blocks in use -/

/-- The address behind the latest block. Blocks are an address and a length, the latest first. -/
def top : List (Nat × Nat) → Nat
  | [] => 0x4000
  | (addr, length) :: _ => u32 (addr + length)

/-- The calls on the blocks in use. -/
def spec (size : Nat) (live : List (Nat × Nat)) : ArCall → Reply × List (Nat × Nat)
  | .init _ _ _ => (.value 0x4000, live)
  | .alloc length => (.value (top live), (top live, length) :: live)
  | .free wantsLength =>
    match live with
    | [] => (.done, [])
    | (addr, length) :: below => (.freed addr (if wantsLength then some length else none), below)
  | .checkInit => (.flag true, live)
  | .getBaseAddress => (.value 0x4000, live)
  | .getSize => (.value size, live)
  | .write _ _ => (.done, live)

/-- A block more than the table has entries is not asked for, none is given back that is not in
use, and the program leaves the table alone. -/
def Allowed (base numEntries : Nat) (live : List (Nat × Nat)) : ArCall → Prop
  | .alloc length => length < 2 ^ 32 ∧ live.length < numEntries
  | .free _ => live ≠ []
  | .write addr _ => addr + 4 ≤ base ∨ base + 4 * numEntries ≤ addr
  | _ => True

instance (base n : Nat) (live : List (Nat × Nat)) : (c : ArCall) → Decidable (Allowed base n live c)
  | .alloc _ => inferInstanceAs (Decidable (_ ∧ _))
  | .free _ => inferInstanceAs (Decidable (_ ≠ _))
  | .write _ _ => inferInstanceAs (Decidable (_ ∨ _))
  | .init _ _ _ | .checkInit | .getBaseAddress | .getSize => inferInstanceAs (Decidable True)

/-- Each block begins where the one below it ends, the lowest at 0x4000. -/
def Stacked : List (Nat × Nat) → Prop
  | [] => True
  | (addr, length) :: below => addr = top below ∧ length < 2 ^ 32 ∧ Stacked below

/-- The table has the length of every block in use. -/
def Noted (m : GcMem) (base : Nat) : List (Nat × Nat) → Prop
  | [] => True
  | (_, length) :: below => m.load (base + 4 * below.length) = length ∧ Noted m base below

/-- The state of the allocator for the blocks in use. -/
def stateOf (base numEntries size : Nat) (live : List (Nat × Nat)) : ArState :=
  ⟨top live, numEntries - live.length, base, live.length, size, true⟩

structure Holds (base numEntries size : Nat) (a : Ar) (live : List (Nat × Nat)) : Prop where
  maps : a.mem.Maps base (base + 4 * numEntries)
  fits : base + 4 * numEntries ≤ 2 ^ 32
  room : live.length ≤ numEntries
  stacked : Stacked live
  noted : Noted a.mem base live
  st : a.st = stateOf base numEntries size live

variable {base numEntries size addr length v : Nat} {live below : List (Nat × Nat)} {a : Ar} {m : GcMem}

@[simp] theorem top_cons (b : Nat × Nat) (below : List (Nat × Nat)) : top (b :: below) = u32 (b.1 + b.2) := rfl

theorem top_lt : (live : List (Nat × Nat)) → top live < 2 ^ 32
  | [] => by decide
  | (_, _) :: _ => Nat.mod_lt _ (by decide)

theorem Noted.store (h : Noted m base live) (ho : addr + 4 ≤ base ∨ base + 4 * live.length ≤ addr) :
    Noted (m.store addr v) base live := by
  induction live with
  | nil => trivial
  | cons b below ih =>
    obtain ⟨hb, hbelow⟩ := h
    rw [List.length_cons] at ho
    refine ⟨?_, ih hbelow (by omega)⟩
    rw [GcMem.load_store_other (by omega)]
    exact hb

/-- The entry for a block with some blocks below it. -/
theorem entry_maps (hm : m.Maps base (base + 4 * numEntries)) (hn : live.length < numEntries) :
    m.Maps (base + 4 * live.length) (base + 4 * live.length + 4) := by
  obtain ⟨h₁, h₂⟩ := hm
  exact ⟨by omega, by omega⟩

theorem entry_addr (hf : base + 4 * numEntries ≤ 2 ^ 32) (hn : live.length < numEntries) :
    u32 (base + live.length * 4) = base + 4 * live.length := by
  unfold u32
  omega

theorem portARAlloc_eq (hm : m.Maps base (base + 4 * numEntries)) (hf : base + 4 * numEntries ≤ 2 ^ 32)
    (hn : live.length < numEntries) :
    portARAlloc ⟨stateOf base numEntries size live, m⟩ length =
      some (top live, ⟨stateOf base numEntries size ((top live, length) :: live),
        m.store (base + 4 * live.length) length⟩) := by
  have hidx : u32 (live.length + 1) = live.length + 1 := by
    unfold u32
    omega
  have hfree : u32 (numEntries - live.length + 2 ^ 32 - 1) = numEntries - (live.length + 1) := by
    unfold u32
    omega
  simp only [portARAlloc, stateOf, storeU32be, entry_addr hf hn, GcMem.ptr_eq (entry_maps hm hn), hidx, hfree]
  rfl

theorem portARFree_eq (w : Bool) (hm : m.Maps base (base + 4 * numEntries)) (hf : base + 4 * numEntries ≤ 2 ^ 32)
    (hn : below.length < numEntries) (hl : length < 2 ^ 32) (hlen : m.load (base + 4 * below.length) = length) :
    portARFree ⟨stateOf base numEntries size ((top below, length) :: below), m⟩ w =
      some ((top below, if w then some length else none), ⟨stateOf base numEntries size below, m⟩) := by
  have hidx : u32 (below.length + 1 + 2 ^ 32 - 1) = below.length := by
    unfold u32
    omega
  have htop : u32 (u32 (top below + length) + 2 ^ 32 - length) = top below := by
    have := top_lt below
    unfold u32
    omega
  have hfree : u32 (numEntries - (below.length + 1) + 1) = numEntries - below.length := by
    unfold u32
    omega
  simp only [portARFree, stateOf, List.length_cons, hidx, entry_addr hf hn, loadU32be,
    GcMem.ptr_eq (entry_maps hm hn), Option.map_some, hlen, top_cons]
  simp only [Option.bind_eq_bind, Option.bind_some, htop, hfree]
  rfl

theorem simulates (base numEntries size : Nat) :
    Simulates exec (spec size) (Allowed base numEntries) (Holds base numEntries size) := by
  rintro ⟨st, m⟩ live c ⟨hmaps, hfits, hroom, hstacked, hnoted, rfl⟩ hc
  simp only at hmaps hnoted
  cases c with
  | init base' n' size' => exact ⟨_, rfl, ⟨hmaps, hfits, hroom, hstacked, hnoted, rfl⟩⟩
  | alloc length =>
    obtain ⟨hl, hn⟩ := hc
    refine ⟨_, by rw [exec, portARAlloc_eq hmaps hfits hn]; rfl,
      ⟨by simpa [GcMem.Maps] using hmaps, hfits, hn, ⟨rfl, hl, hstacked⟩, ⟨?_, ?_⟩, rfl⟩⟩
    · exact GcMem.load_store_self (entry_maps hmaps hn) hl
    · exact hnoted.store (Or.inr (Nat.le_refl _))
  | free w =>
    cases live with
    | nil => exact absurd rfl hc
    | cons b below =>
      obtain ⟨addr, length⟩ := b
      obtain ⟨rfl, hl, hbelow⟩ := hstacked
      obtain ⟨hlen, hnotedBelow⟩ := hnoted
      have hn : below.length < numEntries := hroom
      exact ⟨_, by rw [exec, portARFree_eq w hmaps hfits hn hl hlen]; rfl,
        ⟨hmaps, hfits, hn.le, hbelow, hnotedBelow, rfl⟩⟩
  | checkInit => exact ⟨_, rfl, ⟨hmaps, hfits, hroom, hstacked, hnoted, rfl⟩⟩
  | getBaseAddress => exact ⟨_, rfl, ⟨hmaps, hfits, hroom, hstacked, hnoted, rfl⟩⟩
  | getSize => exact ⟨_, rfl, ⟨hmaps, hfits, hroom, hstacked, hnoted, rfl⟩⟩
  | write addr v =>
    refine ⟨_, rfl, ⟨by simpa [GcMem.Maps] using hmaps, hfits, hroom, hstacked, ?_, rfl⟩⟩
    rcases hc with hc | hc
    · exact hnoted.store (Or.inl hc)
    · exact hnoted.store (Or.inr (by omega))

/-! ### The blocks do not meet -/

/-- The bytes from 0x4000 to the top, when the lengths do not wrap. -/
def total (live : List (Nat × Nat)) : Nat := (live.map Prod.snd).sum

theorem Stacked.top_eq (h : Stacked live) (hf : 0x4000 + total live < 2 ^ 32) : top live = 0x4000 + total live := by
  induction live with
  | nil => rfl
  | cons b below ih =>
    obtain ⟨haddr, _, hbelow⟩ := h
    simp only [total, List.map_cons, List.sum_cons] at hf ih ⊢
    rw [top_cons, haddr, ih hbelow (by omega), u32]
    omega

theorem Stacked.below_top (h : Stacked live) (hf : 0x4000 + total live < 2 ^ 32) :
    ∀ b ∈ live, b.1 + b.2 ≤ top live := by
  induction live with
  | nil => simp
  | cons b below ih =>
    have htop := h.top_eq hf
    obtain ⟨haddr, _, hbelow⟩ := h
    simp only [total, List.map_cons, List.sum_cons] at hf htop ih
    have hb := hbelow.top_eq (by simp only [total]; omega)
    simp only [total] at hb
    intro x hx
    rcases List.mem_cons.1 hx with rfl | hx
    · omega
    · have := ih hbelow (by omega) x hx
      omega

/-- A later block lies behind the earlier ones. -/
theorem Stacked.pairwise (h : Stacked live) (hf : 0x4000 + total live < 2 ^ 32) :
    live.Pairwise fun x y => y.1 + y.2 ≤ x.1 := by
  induction live with
  | nil => exact List.Pairwise.nil
  | cons b below ih =>
    obtain ⟨haddr, _, hbelow⟩ := h
    have hf' : 0x4000 + total below < 2 ^ 32 := by
      simp only [total, List.map_cons, List.sum_cons] at hf ⊢
      omega
    refine List.pairwise_cons.2 ⟨fun y hy => ?_, ih hbelow hf'⟩
    rw [haddr]
    exact hbelow.below_top hf' y hy

/-- The allocator answers every sequence of calls like a stack of blocks: a block is placed behind the
latest one, what is given back is the latest one with its own address and length, and blocks in
use do not meet. -/
theorem ar_refines_stack (st : ArState) (m : GcMem) (base numEntries size : Nat) (calls : List ArCall)
    (hi : st.initFlag = false) (hm : m.Maps base (base + 4 * numEntries)) (hf : base + 4 * numEntries ≤ 2 ^ 32)
    (hc : Legal (spec size) (Allowed base numEntries) [] calls) :
    ∃ a live, (specAll (spec size) [] calls).2 = live ∧
      runAll exec ⟨st, m⟩ (.init base numEntries size :: calls) =
        some (.value 0x4000 :: (specAll (spec size) [] calls).1, a) ∧
      a.st.stackPointer = top live ∧ a.st.freeBlocks + live.length = numEntries ∧ a.st.size = size ∧
      (0x4000 + total live < 2 ^ 32 → live.Pairwise fun x y => y.1 + y.2 ≤ x.1) := by
  have h₀ : Holds base numEntries size ⟨⟨0x4000, numEntries, base, 0, size, true⟩, m⟩ [] :=
    ⟨hm, hf, Nat.zero_le _, trivial, trivial, rfl⟩
  obtain ⟨a, hr, h⟩ := (simulates base numEntries size).runAll h₀ hc
  refine ⟨a, _, rfl, ?_, ?_, ?_, ?_, h.stacked.pairwise⟩
  · simp only [runAll, exec, portARInit, hi, Bool.false_eq_true, if_false, Option.bind_some, hr, Option.map_some]
  · rw [h.st, stateOf]
  · rw [h.st]
    exact Nat.sub_add_cancel h.room
  · rw [h.st, stateOf]

theorem ar_refines_stack_trial :
    ∃ a live, (specAll (spec 0x1000000) [] [.alloc 0x100, .alloc 0x40, .free true, .alloc 0x20]).2 = live ∧
      runAll exec ⟨⟨0, 0, 0, 0, 0, false⟩, ⟨0x1000, 0x100, fun _ => 0⟩⟩
          (.init 0x1000 4 0x1000000 :: [.alloc 0x100, .alloc 0x40, .free true, .alloc 0x20]) =
        some (.value 0x4000 ::
          (specAll (spec 0x1000000) [] [.alloc 0x100, .alloc 0x40, .free true, .alloc 0x20]).1, a) ∧
      a.st.stackPointer = top live ∧ a.st.freeBlocks + live.length = 4 ∧ a.st.size = 0x1000000 ∧
      (0x4000 + total live < 2 ^ 32 → live.Pairwise fun x y => y.1 + y.2 ≤ x.1) :=
  ar_refines_stack _ _ 0x1000 4 0x1000000 _ rfl ⟨by decide, by decide⟩ (by decide) (by decide)

end SdkPort.AR
