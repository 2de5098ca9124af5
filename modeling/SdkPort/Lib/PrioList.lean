import Mathlib.Data.List.Nodup

/-!
# Lists kept in order of rank

Insertion behind every element of no larger rank: equal ranks keep the order in
which they arrived.
-/
namespace SdkPort.PrioList

variable {α : Type} {rank : α → Nat}

def insertPrio (rank : α → Nat) (x : α) : List α → List α
  | [] => [x]
  | y :: l => if rank y ≤ rank x then y :: insertPrio rank x l else x :: y :: l

/-- Ranks never decrease along the list. -/
def SortedBy (rank : α → Nat) (l : List α) : Prop := l.Pairwise fun x y => rank x ≤ rank y

@[simp] theorem mem_insertPrio {x y : α} {l : List α} :
    y ∈ insertPrio rank x l ↔ y = x ∨ y ∈ l := by
  induction l with
  | nil => simp [insertPrio]
  | cons z l ih =>
    simp only [insertPrio]
    split
    · simp only [List.mem_cons, ih]
      tauto
    · simp only [List.mem_cons]

theorem nodup_insertPrio {x : α} {l : List α} (hl : l.Nodup) (hx : x ∉ l) :
    (insertPrio rank x l).Nodup := by
  induction l with
  | nil => simp [insertPrio]
  | cons z l ih =>
    obtain ⟨hz, hl'⟩ := List.nodup_cons.mp hl
    simp only [List.mem_cons, not_or] at hx
    simp only [insertPrio]
    split
    · refine List.nodup_cons.mpr ⟨?_, ih hl' hx.2⟩
      simp [hz, Ne.symm hx.1]
    · exact List.nodup_cons.mpr ⟨by simp [hx.1, hx.2], hl⟩

theorem sorted_insertPrio {x : α} {l : List α} (hl : SortedBy rank l) :
    SortedBy rank (insertPrio rank x l) := by
  induction l with
  | nil => simp [insertPrio, SortedBy]
  | cons z l ih =>
    obtain ⟨hz, hl'⟩ := List.pairwise_cons.mp hl
    simp only [insertPrio]
    split
    case isTrue hle =>
      refine List.pairwise_cons.mpr ⟨?_, ih hl'⟩
      intro y hy
      rcases mem_insertPrio.mp hy with rfl | hy
      · exact hle
      · exact hz y hy
    case isFalse hgt =>
      refine List.pairwise_cons.mpr ⟨?_, hl⟩
      intro y hy
      rcases List.mem_cons.mp hy with rfl | hy
      · omega
      · have := hz y hy
        omega

theorem sorted_append_last {x : α} {l : List α} (hl : SortedBy rank l)
    (hx : ∀ y ∈ l, rank y ≤ rank x) : SortedBy rank (l ++ [x]) := by
  refine List.pairwise_append.mpr ⟨hl, by simp, ?_⟩
  intro y hy z hz
  rw [List.mem_singleton.mp hz]
  exact hx y hy

theorem sorted_erase [DecidableEq α] {x : α} {l : List α} (hl : SortedBy rank l) :
    SortedBy rank (l.erase x) := List.Pairwise.sublist List.erase_sublist hl

theorem sorted_congr {rank' : α → Nat} {l : List α} (hl : SortedBy rank l)
    (h : ∀ x ∈ l, rank' x = rank x) : SortedBy rank' l := by
  refine List.Pairwise.imp_of_mem ?_ hl
  intro x y hx hy hxy
  rw [h x hx, h y hy]
  exact hxy

/-- Where an insertion lands: in front of the first element of larger rank. -/
theorem insertPrio_eq (rank : α → Nat) (x : α) (l : List α) :
    insertPrio rank x l =
      l.takeWhile (fun y => rank y ≤ rank x) ++ x :: l.dropWhile (fun y => rank y ≤ rank x) := by
  induction l with
  | nil => rfl
  | cons z l ih =>
    by_cases hz : rank z ≤ rank x
    · simp [insertPrio, hz, ih]
    · simp [insertPrio, hz]

end SdkPort.PrioList
