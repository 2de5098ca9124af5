import Mathlib.Data.List.GetD

/-!
# Memory as bytes

Reading and writing runs of bytes in a memory that maps addresses to bytes.
-/
namespace SdkPort.ByteMem

/-- The bytes at an address. -/
def load (m : Nat → UInt8) (a n : Nat) : List UInt8 := (List.range n).map fun i => m (a + i)

/-- Bytes put at an address. -/
def store (m : Nat → UInt8) (a : Nat) (l : List UInt8) : Nat → UInt8 := fun x =>
  if x < a then m x else l.getD (x - a) (m x)

variable {m m' : Nat → UInt8} {a b i j n x : Nat} {l r : List UInt8}

@[simp] theorem length_load (m : Nat → UInt8) (a n : Nat) : (load m a n).length = n := by
  simp [load]

theorem load_add (m : Nat → UInt8) (a i j : Nat) : load m a (i + j) = load m a i ++ load m (a + i) j := by
  simp [load, List.range_add, Nat.add_assoc]

theorem load_eq_iff : load m a n = load m' b n ↔ ∀ i, i < n → m (a + i) = m' (b + i) := by
  simp [load]

/-- A part of what was read. -/
theorem load_part (h : load m a n = load m' b n) (hi : i + j ≤ n) : load m (a + i) j = load m' (b + i) j := by
  apply load_eq_iff.mpr
  intro k hk
  have hik := load_eq_iff.mp h (i + k) (by omega)
  rwa [← Nat.add_assoc, ← Nat.add_assoc] at hik

theorem store_of_lt (h : x < a) : store m a l x = m x := if_pos h

theorem store_of_le (h : a + l.length ≤ x) : store m a l x = m x := by
  rw [store, if_neg (by omega), List.getD_eq_default _ _ (by omega)]

theorem store_at (h : i < l.length) : store m a l (a + i) = l[i] := by
  rw [store, if_neg (by omega), Nat.add_sub_cancel_left, List.getD_eq_getElem _ _ h]

@[simp] theorem store_nil (m : Nat → UInt8) (a : Nat) : store m a [] = m := by
  funext x
  by_cases h : x < a
  · exact store_of_lt h
  · exact store_of_le (by simpa using h)

/-- Writing back what was read changes nothing. -/
@[simp] theorem store_load_self (m : Nat → UInt8) (a n : Nat) : store m a (load m a n) = m := by
  funext x
  by_cases hlo : x < a
  · exact store_of_lt hlo
  · by_cases hhi : x < a + n
    · obtain ⟨i, rfl⟩ : ∃ i, x = a + i := ⟨x - a, by omega⟩
      have hi : i < (load m a n).length := by
        rw [length_load]
        omega
      rw [store_at hi]
      simp [load]
    · exact store_of_le (by rw [length_load]; omega)

theorem load_store_self (m : Nat → UInt8) (a : Nat) (l : List UInt8) : load (store m a l) a l.length = l := by
  apply List.ext_getElem
  · exact length_load _ _ _
  · intro i _ hi
    simp [load, store_at hi]

theorem load_store_of_disjoint (h : b + n ≤ a ∨ a + l.length ≤ b) : load (store m a l) b n = load m b n := by
  apply load_eq_iff.mpr
  intro i hi
  cases h with
  | inl h => exact store_of_lt (by omega)
  | inr h => exact store_of_le (by omega)

theorem store_append (m : Nat → UInt8) (a : Nat) (l r : List UInt8) :
    store m a (l ++ r) = store (store m a l) (a + l.length) r := by
  funext x
  by_cases hlo : x < a + l.length
  · rw [store_of_lt hlo]
    by_cases ha : x < a
    · rw [store_of_lt ha, store_of_lt ha]
    · obtain ⟨i, rfl⟩ : ∃ i, x = a + i := ⟨x - a, by omega⟩
      have hi : i < l.length := by omega
      rw [store_at hi, store_at (by rw [List.length_append]; omega), List.getElem_append_left hi]
  · by_cases hhi : x < a + (l ++ r).length
    · obtain ⟨i, rfl⟩ : ∃ i, x = a + l.length + i := ⟨x - (a + l.length), by omega⟩
      rw [List.length_append] at hhi
      have hi : i < r.length := by omega
      rw [store_at hi, Nat.add_assoc, store_at (by rw [List.length_append]; omega),
        List.getElem_append_right (by omega)]
      simp
    · rw [store_of_le (by omega)]
      rw [List.length_append] at hhi
      rw [store_of_le (by omega), store_of_le (by omega)]

/-- A byte put into a buffer of `room` bytes; nothing can be put beyond its end. -/
def put (room : Nat) (m : Nat → UInt8) (i : Nat) (c : UInt8) : Option (Nat → UInt8) :=
  if i < room then some (store m i [c]) else none

theorem put_eq {room : Nat} (c : UInt8) (h : i < room) : put room m i c = some (store m i [c]) := if_pos h

/-- What is read from the front of what was put there. -/
theorem load_store_prefix (m : Nat → UInt8) (a : Nat) (l r : List UInt8) :
    load (store m a (l ++ r)) a l.length = l := by
  rw [store_append, load_store_of_disjoint (.inl (Nat.le_refl _)), load_store_self]

end SdkPort.ByteMem
