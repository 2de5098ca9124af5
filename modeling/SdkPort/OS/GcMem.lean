import Mathlib.Algebra.Order.Ring.Int
import Mathlib.Logic.Function.Basic

/-!
# Emulated memory

`gc_mem.c`: a buffer mapped at a base address. Words are stored big-endian; what is not
mapped reads as 0 and is not written. Addresses are 32-bit.
-/
namespace SdkPort.Gc

/-- Reduction to `uint32_t`. -/
def u32 (x : Nat) : Nat := x % 2 ^ 32

/-- The mapped buffer; a size of 0 stands for no buffer. -/
structure GcMem where
  base : Nat
  size : Nat
  buf : Nat → UInt8

namespace GcMem

/-- The offset of `len` mapped bytes at an address. -/
def ptr (m : GcMem) (addr len : Nat) : Option Nat :=
  if addr < m.base then none
  else if m.size < addr - m.base + len then none
  else some (addr - m.base)

/-- The bytes from `lo` to `hi` are mapped. -/
def Maps (m : GcMem) (lo hi : Nat) : Prop := m.base ≤ lo ∧ hi ≤ m.base + m.size

def byte (m : GcMem) (x : Nat) : UInt8 := m.buf (x - m.base)

/-- Four bytes, the most significant first. -/
def word (f : Nat → UInt8) : Nat :=
  (f 0).toNat * 2 ^ 24 + (f 1).toNat * 2 ^ 16 + (f 2).toNat * 2 ^ 8 + (f 3).toNat

def load (m : GcMem) (addr : Nat) : Nat :=
  match m.ptr addr 4 with
  | none => 0
  | some p => word fun i => m.buf (p + i)

def putWord (f : Nat → UInt8) (p v : Nat) : Nat → UInt8 := fun x =>
  if x = p then UInt8.ofNat (v / 2 ^ 24)
  else if x = p + 1 then UInt8.ofNat (v / 2 ^ 16)
  else if x = p + 2 then UInt8.ofNat (v / 2 ^ 8)
  else if x = p + 3 then UInt8.ofNat v
  else f x

def store (m : GcMem) (addr v : Nat) : GcMem :=
  match m.ptr addr 4 with
  | none => m
  | some p => { m with buf := putWord m.buf p v }

variable {m : GcMem} {a b v lo hi : Nat}

theorem ptr_of_maps {n : Nat} (h : m.Maps a (a + n)) : m.ptr a n = some (a - m.base) := by
  obtain ⟨h₁, h₂⟩ := h
  rw [ptr, if_neg (by omega), if_neg (by omega)]

theorem ptr_eq (h : m.Maps a (a + 4)) : m.ptr a 4 = some (a - m.base) := ptr_of_maps h

theorem maps_of_ptr (h : (m.ptr a 4).isSome) : m.Maps a (a + 4) := by
  unfold ptr at h
  split at h
  · cases h
  split at h
  · cases h
  · exact ⟨by omega, by omega⟩

@[simp] theorem store_base (m : GcMem) (a v : Nat) : (m.store a v).base = m.base := by
  unfold store
  split <;> rfl

@[simp] theorem store_size (m : GcMem) (a v : Nat) : (m.store a v).size = m.size := by
  unfold store
  split <;> rfl

@[simp] theorem store_ptr (m : GcMem) (a v b n : Nat) : (m.store a v).ptr b n = m.ptr b n := by
  simp [ptr]

theorem word_lt (f : Nat → UInt8) : word f < 2 ^ 32 := by
  have h₀ := (f 0).toNat_lt
  have h₁ := (f 1).toNat_lt
  have h₂ := (f 2).toNat_lt
  have h₃ := (f 3).toNat_lt
  unfold word
  omega

theorem load_lt (m : GcMem) (a : Nat) : m.load a < 2 ^ 32 := by
  unfold load
  split
  · omega
  · exact word_lt _

theorem word_putWord (f : Nat → UInt8) (p : Nat) (hv : v < 2 ^ 32) :
    word (fun i => putWord f p v (p + i)) = v := by
  simp [word, putWord]
  omega

theorem load_store_self (h : m.Maps a (a + 4)) (hv : v < 2 ^ 32) : (m.store a v).load a = v := by
  have hp := ptr_eq h
  rw [load, store_ptr, hp]
  simp only [store, hp]
  exact word_putWord _ _ hv

/-- The bytes of other addresses stay. -/
theorem byte_store (h : m.base ≤ b) (hb : b < a ∨ a + 4 ≤ b) : (m.store a v).byte b = m.byte b := by
  unfold byte
  rw [store_base]
  unfold store
  cases hp : m.ptr a 4 with
  | none => rfl
  | some p =>
    unfold ptr at hp
    split at hp
    · cases hp
    split at hp
    · cases hp
    · cases hp
      simp only [putWord]
      rw [if_neg (by omega), if_neg (by omega), if_neg (by omega), if_neg (by omega)]

/-- A word depends on its four bytes alone. -/
theorem load_congr {m' : GcMem} (hb : m'.base = m.base) (hs : m'.size = m.size)
    (h : ∀ x, a ≤ x → x < a + 4 → m.base ≤ x → m'.byte x = m.byte x) : m'.load a = m.load a := by
  have hp : m'.ptr a 4 = m.ptr a 4 := by
    simp [ptr, hb, hs]
  unfold load
  rw [hp]
  cases hpa : m.ptr a 4 with
  | none => rfl
  | some p =>
    unfold ptr at hpa
    split at hpa
    · cases hpa
    split at hpa
    · cases hpa
    · rename_i hlo _
      cases hpa
      have hbyte : ∀ i, i < 4 → m'.buf (a - m.base + i) = m.buf (a - m.base + i) := by
        intro i hi
        have := h (a + i) (by omega) (by omega) (by omega)
        simp only [byte, hb] at this
        rwa [show a + i - m.base = a - m.base + i by omega] at this
      simp only [word, hbyte 0 (by omega), hbyte 1 (by omega), hbyte 2 (by omega), hbyte 3 (by omega)]

theorem load_store_other (h : b + 4 ≤ a ∨ a + 4 ≤ b) : (m.store a v).load b = m.load b := by
  apply load_congr (store_base m a v) (store_size m a v)
  intro x h₁ h₂ h₃
  exact byte_store h₃ (by omega)

end GcMem

end SdkPort.Gc
