import Mathlib.Data.List.Basic

/-!
# Numbering in first-seen order

A table of bounded size numbers what it meets in the order of first sight. Numbers never change,
no two things share one, and what is met when the table is full stays without.
-/
namespace SdkPort.Intern

variable {α : Type} [DecidableEq α] {cap n : Nat} {seen seen' : List α} {x y : α}

/-- The table after `x` was met. -/
def add (cap : Nat) (seen : List α) (x : α) : List α :=
  if x ∈ seen then seen else if seen.length < cap then seen ++ [x] else seen

def number (seen : List α) (x : α) : Option Nat := if x ∈ seen then some (seen.idxOf x) else none

/-- The number of `x` is final: it has one, or there is no room for one. -/
def Settled (cap : Nat) (seen : List α) (x : α) : Prop := x ∈ seen ∨ cap ≤ seen.length

theorem prefix_add (cap : Nat) (seen : List α) (x : α) : seen <+: add cap seen x := by
  unfold add
  split
  · exact List.prefix_rfl
  split
  · exact List.prefix_append _ _
  · exact List.prefix_rfl

theorem length_add (h : seen.length ≤ cap) : (add cap seen x).length ≤ cap := by
  unfold add
  split
  · exact h
  split
  · rw [List.length_append, List.length_singleton]
    omega
  · exact h

theorem idxOf_prefix (h : seen <+: seen') (hx : x ∈ seen) : seen'.idxOf x = seen.idxOf x := by
  obtain ⟨rest, rfl⟩ := h
  exact List.idxOf_append_of_mem hx

theorem nodup_add (h : seen.Nodup) : (add cap seen x).Nodup := by
  unfold add
  split
  · exact h
  split
  · rename_i hx _
    exact List.nodup_append.2 ⟨h, by simp, fun a ha b hb hab => hx (List.mem_singleton.1 hb ▸ hab ▸ ha)⟩
  · exact h

theorem mem_add (h : y ∈ add cap seen x) : y ∈ seen ∨ y = x := by
  unfold add at h
  split at h
  · exact Or.inl h
  split at h
  · simpa using h
  · exact Or.inl h

omit [DecidableEq α] in
/-- A table that is full does not grow. -/
theorem eq_of_full (hp : seen <+: seen') (h : seen'.length ≤ cap) (hf : cap ≤ seen.length) : seen' = seen :=
  (hp.eq_of_length (Nat.le_antisymm hp.length_le (Nat.le_trans h hf))).symm

/-- What is final stays through all growth of the table. -/
theorem number_settled (hs : Settled cap seen x) (hp : seen <+: seen') (h : seen'.length ≤ cap) :
    number seen' x = number seen x := by
  rcases hs with hx | hf
  · rw [number, number, if_pos hx, if_pos (hp.subset hx), idxOf_prefix hp hx]
  · rw [eq_of_full hp h hf]

omit [DecidableEq α] in
theorem Settled.mono (hs : Settled cap seen x) (hp : seen <+: seen') : Settled cap seen' x :=
  hs.imp (fun hx => hp.subset hx) fun hf => Nat.le_trans hf hp.length_le

theorem number_inj (hx : number seen x = some n) (hy : number seen y = some n) : x = y := by
  unfold number at hx hy
  split at hx
  · split at hy
    · rename_i hmx hmy
      exact (List.idxOf_inj hmx).1 (Option.some.inj (hx.trans hy.symm))
    · cases hy
  · cases hx

theorem number_lt (hx : number seen x = some n) : n < seen.length := by
  unfold number at hx
  split at hx
  · cases hx
    exact List.idxOf_lt_length_of_mem ‹_›
  · cases hx

end SdkPort.Intern
