import SdkPort.Lib.Inherit
import Mathlib.Data.Finset.Card

/-!
# Waves of changes end

When the priority of a node changes, the nodes it blocks are re-evaluated one after the
other. Along such a wave all priorities get better, to one value, or all get worse, from
one value. So a node changes at most once, also where nodes block each other in a circle.
-/
namespace SdkPort.Inherit

variable {α : Type} {blk : α → α → Prop} {base prio : α → Nat} {t u : α} {v e x : Nat}

/-- Along a wave priorities get better, to `p`, or worse, from `p`. -/
inductive Turn where
  | better (p : Nat)
  | worse (p : Nat)

namespace Turn

/-- The change from `v` to `e` belongs to the wave. -/
def Moves (v e : Nat) : Turn → Prop
  | better p => e = p ∧ p < v
  | worse p => v = p ∧ p < e

/-- A priority that the wave may still change. -/
def Due (v : Nat) : Turn → Prop
  | better p => p < v
  | worse p => v ≤ p

instance (v : Nat) : (d : Turn) → Decidable (d.Due v)
  | better p => inferInstanceAs (Decidable (p < v))
  | worse p => inferInstanceAs (Decidable (v ≤ p))

variable {d : Turn}

theorem exists_moves (h : v ≠ e) : ∃ d : Turn, d.Moves v e := by
  rcases Nat.lt_or_gt_of_ne h with hlt | hgt
  · exact ⟨.worse v, rfl, hlt⟩
  · exact ⟨.better e, rfl, hgt⟩

theorem Moves.due (h : d.Moves v e) : d.Due v ∧ ¬ d.Due e := by
  cases d with
  | better p =>
    obtain ⟨rfl, hlt⟩ := h
    exact ⟨hlt, Nat.lt_irrefl e⟩
  | worse p =>
    obtain ⟨rfl, hlt⟩ := h
    exact ⟨le_refl v, Nat.not_le.mpr hlt⟩

variable [DecidableEq α]

/-- A settled node that the changed one blocks stays as it is or changes likewise. -/
theorem Moves.next (hm : d.Moves (prio t) e) (h : Settled blk base prio u) (hb : blk t u)
    (hx : IsLeast (demands blk base (Function.update prio t e) u) x) : x = prio u ∨ d.Moves (prio u) x := by
  cases d with
  | better p =>
    obtain ⟨rfl, hlt⟩ := hm
    have he := hx.unique (h.promoted hb hlt)
    by_cases hle : prio u ≤ e
    · exact .inl (he.trans (min_eq_left hle))
    · exact .inr ⟨he.trans (min_eq_right (Nat.le_of_not_le hle)), Nat.lt_of_not_le hle⟩
  | worse p =>
    obtain ⟨hp, hlt⟩ := hm
    by_cases he : x = prio u
    · exact .inl he
    right
    -- no demand is better than before, so the one that was best is gone
    have hle : prio u ≤ x := by
      rcases hx.1 with hbase | ⟨w, hw, hpw⟩
      · exact hbase ▸ h.le_base
      · have hold := h.le_blocker hw
        by_cases hwt : w = t
        · subst hwt
          rw [Function.update_self] at hpw
          omega
        · rw [Function.update_of_ne hwt] at hpw
          omega
    have hgt : prio u < x := lt_of_le_of_ne hle (Ne.symm he)
    have hfrom : prio u = prio t := by
      rcases h.1 with hbase | ⟨w, hw, hpw⟩
      · exact absurd (hx.2 (.inl hbase)) (Nat.not_le.mpr hgt)
      · by_cases hwt : w = t
        · rw [hpw, hwt]
        · have hmem : prio u ∈ demands blk base (Function.update prio t e) u :=
            .inr ⟨w, hw, by rwa [Function.update_of_ne hwt]⟩
          exact absurd (hx.2 hmem) (Nat.not_le.mpr hgt)
    exact ⟨hfrom.trans hp, by omega⟩

/-- Every change leaves fewer nodes that may still change. -/
theorem Moves.card_lt (hm : d.Moves (prio t) e) {s : Finset α} (ht : t ∈ s) :
    (s.filter fun x => d.Due (Function.update prio t e x)).card < (s.filter fun x => d.Due (prio x)).card := by
  obtain ⟨hdue, hdone⟩ := hm.due
  apply Finset.card_lt_card
  refine Finset.ssubset_iff_subset_ne.mpr ⟨fun x hx => ?_, fun he => ?_⟩
  · obtain ⟨hs, hd⟩ := Finset.mem_filter.mp hx
    by_cases hxt : x = t
    · subst hxt
      rw [Function.update_self] at hd
      exact absurd hd hdone
    · rw [Function.update_of_ne hxt] at hd
      exact Finset.mem_filter.mpr ⟨hs, hd⟩
  · have hmem : t ∈ s.filter fun x => d.Due (prio x) := Finset.mem_filter.mpr ⟨ht, hdue⟩
    rw [← he] at hmem
    have hd := (Finset.mem_filter.mp hmem).2
    rw [Function.update_self] at hd
    exact hdone hd

end Turn

end SdkPort.Inherit
