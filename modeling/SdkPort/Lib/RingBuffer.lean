import Mathlib.Logic.Function.Basic
import Mathlib.Data.Nat.ModEq

/-!
# Bounded deques and ring buffers

A deque of at most `c` entries, and the window of a circular buffer that stores
one: writing behind the window appends, writing before it prepends, and moving its
start forward removes the first entry.
-/
namespace SdkPort.RingBuffer

variable {α : Type} {c i j n : Nat} {f : Nat → α} {x : α}

/-- A list of at most `c` entries. -/
structure Deque (α : Type) (c : Nat) where
  items : List α
  bounded : items.length ≤ c

namespace Deque

variable {d : Deque α c}

@[ext] theorem ext {d d' : Deque α c} (h : d.items = d'.items) : d = d' := by
  cases d
  cases d'
  cases h
  rfl

def empty (α : Type) (c : Nat) : Deque α c := ⟨[], Nat.zero_le c⟩

def full (d : Deque α c) : Prop := d.items.length = c

instance (d : Deque α c) : Decidable d.full := inferInstanceAs (Decidable (_ = _))

theorem length_lt (h : ¬ d.full) : d.items.length < c := Nat.lt_of_le_of_ne d.bounded h

theorem length_append_le (h : ¬ d.full) (x : α) : (d.items ++ [x]).length ≤ c := by
  simpa using Nat.succ_le_of_lt (length_lt h)

def pushBack (d : Deque α c) (x : α) : Option (Deque α c) :=
  if h : d.full then none
  else some ⟨d.items ++ [x], length_append_le h x⟩

def pushFront (d : Deque α c) (x : α) : Option (Deque α c) :=
  if h : d.full then none
  else some ⟨x :: d.items, length_lt h⟩

def popFront (d : Deque α c) : Option (α × Deque α c) :=
  match d with
  | ⟨[], _⟩ => none
  | ⟨x :: l, h⟩ => some (x, ⟨l, Nat.le_of_succ_le h⟩)

theorem pushBack_eq_none : d.pushBack x = none ↔ d.full := by
  unfold pushBack
  split <;> simp_all

theorem pushFront_eq_none : d.pushFront x = none ↔ d.full := by
  unfold pushFront
  split <;> simp_all

theorem popFront_eq_none : d.popFront = none ↔ d.items = [] := by
  obtain ⟨_ | ⟨x, l⟩, h⟩ := d <;> simp [popFront]

end Deque

/-- The `n` entries of a circular buffer of `c` slots from index `i` on. -/
def window (c : Nat) (f : Nat → α) (i : Nat) : Nat → List α
  | 0 => []
  | n + 1 => f (i % c) :: window c f (i + 1) n

@[simp] theorem window_length : (window c f i n).length = n := by
  induction n generalizing i with
  | zero => rfl
  | succ n ih => simp [window, ih]

/-- Only the slot of the start matters. -/
theorem window_mod : window c f (i % c) n = window c f i n := by
  induction n generalizing i with
  | zero => rfl
  | succ n ih =>
    have h : (i % c + 1) % c = (i + 1) % c := Nat.mod_add_mod i c 1
    rw [window, window, Nat.mod_mod, ← ih, h, ih]

theorem window_snoc : window c f i (n + 1) = window c f i n ++ [f ((i + n) % c)] := by
  induction n generalizing i with
  | zero => rfl
  | succ n ih =>
    rw [window, ih, window, List.cons_append, Nat.add_assoc, Nat.add_comm 1 n]

/-- A write outside the window does not show in it. -/
theorem window_update (h : ∀ m < n, (i + m) % c ≠ j) :
    window c (Function.update f j x) i n = window c f i n := by
  induction n generalizing i with
  | zero => rfl
  | succ n ih =>
    have h₀ : i % c ≠ j := h 0 (Nat.zero_lt_succ n)
    have h₁ : ∀ m < n, (i + 1 + m) % c ≠ j := by
      intro m hm
      have := h (m + 1) (Nat.succ_lt_succ hm)
      rwa [Nat.add_right_comm, Nat.add_assoc]
    rw [window, window, ih h₁, Function.update_of_ne h₀]

/-- Two slots less than a revolution apart differ. -/
theorem mod_ne {a b : Nat} (hab : a < b) (hb : b < a + c) : a % c ≠ b % c := by
  intro h
  have hd : c ∣ b - a := (Nat.modEq_iff_dvd' (Nat.le_of_lt hab)).mp h
  have hle := Nat.le_of_dvd (Nat.sub_pos_of_lt hab) hd
  omega

theorem window_pushBack (h : n < c) :
    window c (Function.update f ((i + n) % c) x) i (n + 1) = window c f i n ++ [x] := by
  rw [window_snoc, Function.update_self, window_update]
  intro m hm
  exact mod_ne (by omega) (by omega)

theorem window_pushFront (h : n < c) :
    window c (Function.update f ((i + c - 1) % c) x) ((i + c - 1) % c) (n + 1) =
      x :: window c f i n := by
  rw [window_mod, window, Function.update_self, window_update]
  · have hs : i + c - 1 + 1 = i + c := by omega
    have hm : (i + c) % c = i % c := Nat.add_mod_right i c
    rw [hs, ← window_mod, hm, window_mod]
  · intro m hm
    exact (mod_ne (by omega) (by omega)).symm

theorem window_popFront (h : n ≠ 0) (hi : i < c) :
    window c f i n = f i :: window c f ((i + 1) % c) (n - 1) := by
  obtain ⟨n, rfl⟩ := Nat.exists_eq_succ_of_ne_zero h
  rw [window, window_mod, Nat.mod_eq_of_lt hi]
  rfl

end SdkPort.RingBuffer
