import Mathlib.Data.Finset.Sort
import SdkPort.Lib.Refine

/-!
# Requests served in order

Requests wait in a set. A step adds some and serves the least.
-/
namespace SdkPort.Pending

open Refine (specAll)

variable {α : Type} [LinearOrder α] {p m : Finset α} {ms : List (Finset α)} {a b : α}

/-- The least request, which is taken out. -/
def serve (p : Finset α) : Option α × Finset α :=
  if h : p.Nonempty then (some (p.min' h), p.erase (p.min' h)) else (none, p)

def step (p m : Finset α) : Option α × Finset α := serve (p ∪ m)

theorem serve_empty : serve (∅ : Finset α) = (none, ∅) := rfl

/-- With no more requests they are served from the least on, and then none. -/
theorem drain (p : Finset α) {n : Nat} (hn : p.card ≤ n) :
    specAll step p (List.replicate n ∅) = (p.sort.map some ++ List.replicate (n - p.card) none, ∅) := by
  induction n generalizing p with
  | zero =>
    have hp : p = ∅ := Finset.card_eq_zero.1 (Nat.le_zero.1 hn)
    subst hp
    simp [specAll]
  | succ n ih =>
    rw [List.replicate_succ, specAll, step, Finset.union_empty]
    rcases p.eq_empty_or_nonempty with rfl | h
    · rw [serve_empty, ih ∅ (Nat.zero_le n)]
      simp [List.replicate_succ]
    · have hmem := p.min'_mem h
      have hcard := Finset.card_erase_of_mem hmem
      have hpos := Finset.card_pos.2 h
      have hsort : p.sort = p.min' h :: (p.erase (p.min' h)).sort := by
        conv_lhs => rw [← Finset.insert_erase hmem]
        exact Finset.sort_insert _ (fun b hb => p.min'_le b (Finset.mem_of_mem_erase hb)) (Finset.notMem_erase _ _)
      rw [serve, dif_pos h]
      dsimp only
      rw [ih (p.erase (p.min' h)) (by omega), hsort, hcard, List.map_cons, List.cons_append,
        show n - (p.card - 1) = n + 1 - p.card by omega]

end SdkPort.Pending
