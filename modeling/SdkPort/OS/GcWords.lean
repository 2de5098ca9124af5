import SdkPort.OS.GcMem

/-!
# Words one after another

Records of emulated memory are written and read word by word.
-/
namespace SdkPort.Gc.GcMem

variable {m : GcMem} {a b v : Nat} {ws : List Nat}

/-- The words are stored in order. -/
def storeWords (m : GcMem) (a : Nat) : List Nat → GcMem
  | [] => m
  | w :: ws => storeWords (m.store a w) (a + 4) ws

def loadWords (m : GcMem) (a n : Nat) : List Nat := (List.range n).map fun i => m.load (a + 4 * i)

@[simp] theorem storeWords_base (m : GcMem) (a : Nat) (ws : List Nat) : (m.storeWords a ws).base = m.base := by
  induction ws generalizing m a with
  | nil => rfl
  | cons w ws ih => rw [storeWords, ih, store_base]

@[simp] theorem storeWords_size (m : GcMem) (a : Nat) (ws : List Nat) : (m.storeWords a ws).size = m.size := by
  induction ws generalizing m a with
  | nil => rfl
  | cons w ws ih => rw [storeWords, ih, store_size]

/-- Every word is stored by a store. -/
theorem storeWords_induction {P : GcMem → Prop} (h₀ : P m) (h : ∀ m' x v, a ≤ x → x + 4 ≤ a + 4 * ws.length → P m' →
    P (m'.store x v)) : P (m.storeWords a ws) := by
  induction ws generalizing m a with
  | nil => exact h₀
  | cons w ws ih =>
    rw [List.length_cons] at h
    exact ih (h m a w (Nat.le_refl _) (by omega) h₀) fun m' x v h₁ h₂ => h m' x v (by omega) (by omega)

theorem load_storeWords_other (h : b + 4 ≤ a ∨ a + 4 * ws.length ≤ b) : (m.storeWords a ws).load b = m.load b := by
  induction ws generalizing m a with
  | nil => rfl
  | cons w ws ih =>
    rw [List.length_cons] at h
    rw [storeWords, ih (by omega), load_store_other (by omega)]

theorem loadWords_congr {m' : GcMem} {n : Nat} (h : ∀ i, i < n → m'.load (a + 4 * i) = m.load (a + 4 * i)) :
    m'.loadWords a n = m.loadWords a n := List.map_congr_left fun i hi => h i (List.mem_range.1 hi)

theorem loadWords_succ (m : GcMem) (a n : Nat) : m.loadWords a (n + 1) = m.load a :: m.loadWords (a + 4) n := by
  simp only [loadWords, List.range_succ_eq_map, List.map_cons, List.map_map, Nat.mul_zero, Nat.add_zero]
  congr 1
  apply List.map_congr_left
  intro i _
  simp only [Function.comp_apply, Nat.succ_eq_add_one]
  congr 1
  omega

/-- What was stored is read back. -/
theorem loadWords_storeWords (hm : m.Maps a (a + 4 * ws.length)) (hw : ∀ w ∈ ws, w < 2 ^ 32) :
    (m.storeWords a ws).loadWords a ws.length = ws := by
  induction ws generalizing m a with
  | nil => rfl
  | cons w ws ih =>
    rw [List.length_cons] at hm ⊢
    obtain ⟨h₁, h₂⟩ := hm
    rw [loadWords_succ, storeWords, load_storeWords_other (Or.inl (Nat.le_refl _)),
      load_store_self ⟨h₁, by omega⟩ (hw w List.mem_cons_self),
      ih ⟨by rw [store_base]; omega, by rw [store_base, store_size]; omega⟩ fun x hx => hw x (List.mem_cons_of_mem _ hx)]

theorem loadWords_storeWords_other {n : Nat} (h : b + 4 * n ≤ a ∨ a + 4 * ws.length ≤ b) :
    (m.storeWords a ws).loadWords b n = m.loadWords b n :=
  loadWords_congr fun i hi => load_storeWords_other (by omega)

theorem load_zeros (base size a : Nat) : (GcMem.mk base size fun _ => 0).load a = 0 := by
  rw [load]
  split
  · rfl
  · simp only [word, UInt8.toNat_zero, Nat.zero_mul, Nat.add_zero]

end SdkPort.Gc.GcMem
