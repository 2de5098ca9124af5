import Mathlib.Data.List.TakeWhile
import Mathlib.Order.Lattice

/-!
# Insertion behind equal keys

An element goes in front of the first one with a larger key. Any order on the elements
that agrees with the keys is kept, so elements with equal keys stay in the order of
their insertion.
-/
namespace SdkPort.StableInsert

variable {α β : Type} [LinearOrder β] {key : α → β} {R : α → α → Prop} {x y : α} {l : List α}

/-- The elements that stay in front of an insertion, and those that come behind it. -/
def before (key : α → β) (k : β) (l : List α) : List α := l.takeWhile fun y => key y ≤ k
def behind (key : α → β) (k : β) (l : List α) : List α := l.dropWhile fun y => key y ≤ k

def insertLast (key : α → β) (x : α) (l : List α) : List α :=
  before key (key x) l ++ x :: behind key (key x) l

theorem before_append_behind (key : α → β) (k : β) (l : List α) :
    before key k l ++ behind key k l = l := List.takeWhile_append_dropWhile

theorem insertLast_perm (key : α → β) (x : α) (l : List α) : (insertLast key x l).Perm (x :: l) := by
  have h : (insertLast key x l).Perm (x :: (before key (key x) l ++ behind key (key x) l)) :=
    List.perm_middle
  rwa [before_append_behind] at h

@[simp] theorem mem_insertLast : y ∈ insertLast key x l ↔ y = x ∨ y ∈ l := by
  rw [(insertLast_perm key x l).mem_iff, List.mem_cons]

theorem filter_insertLast {q : α → Bool} (hx : ¬ q x) : (insertLast key x l).filter q = l.filter q := by
  rw [insertLast, List.filter_append, List.filter_cons_of_neg hx, ← List.filter_append, before_append_behind]

theorem key_le_of_mem_before {k : β} (h : y ∈ before key k l) : key y ≤ k := by
  simpa using List.mem_takeWhile_imp h

theorem mem_of_mem_before {k : β} (h : y ∈ before key k l) : y ∈ l :=
  List.takeWhile_subset _ h

theorem mem_of_mem_behind {k : β} (h : y ∈ behind key k l) : y ∈ l :=
  (List.dropWhile_suffix _).subset h

/-- In a list sorted by keys all that comes behind has larger keys. -/
theorem lt_key_of_mem_behind {k : β} (hl : l.Pairwise fun a b => key a ≤ key b)
    (h : y ∈ behind key k l) : k < key y := by
  induction l with
  | nil => cases h
  | cons z l ih =>
    obtain ⟨hz, hl⟩ := List.pairwise_cons.mp hl
    unfold behind at h ih
    by_cases hle : key z ≤ k
    · rw [List.dropWhile_cons_of_pos (by simpa using hle)] at h
      exact ih hl h
    · rw [List.dropWhile_cons_of_neg (by simpa using hle)] at h
      have hk : k < key z := not_le.mp hle
      cases List.mem_cons.mp h with
      | inl he => rwa [he]
      | inr hm => exact lt_of_lt_of_le hk (hz y hm)

/-- The order survives when the new element may follow those of no larger key and precede
those of larger key. -/
theorem pairwise_insertLast (hl : l.Pairwise R) (hR : ∀ a b, R a b → key a ≤ key b)
    (hle : ∀ y ∈ l, key y ≤ key x → R y x) (hlt : ∀ y ∈ l, key x < key y → R x y) :
    (insertLast key x l).Pairwise R := by
  have hs : l.Pairwise fun a b => key a ≤ key b := hl.imp fun h => hR _ _ h
  have hsplit := hl
  rw [← before_append_behind key (key x) l, List.pairwise_append] at hsplit
  obtain ⟨h₁, h₂, h₃⟩ := hsplit
  refine List.pairwise_append.mpr ⟨h₁, List.pairwise_cons.mpr ⟨?_, h₂⟩, ?_⟩
  · intro y hy
    exact hlt y (mem_of_mem_behind hy) (lt_key_of_mem_behind hs hy)
  · intro y hy z hz
    cases List.mem_cons.mp hz with
    | inl he =>
      rw [he]
      exact hle y (mem_of_mem_before hy) (key_le_of_mem_before hy)
    | inr hm => exact h₃ y hy z hm

end SdkPort.StableInsert
