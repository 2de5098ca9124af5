import Mathlib.Order.Bounds.Basic
import Mathlib.Order.Lattice.Nat
import Mathlib.Logic.Function.Basic

/-!
# Inherited priorities

A node demands the best of its own base priority and of the priorities of the
nodes blocked on it. It is settled when its priority is exactly that. Lower
numbers are better. The rules say what becomes of the demands of a node when the
priority of one other node changes.
-/
namespace SdkPort.Inherit

variable {α : Type} {blk blk' : α → α → Prop} {base base' prio prio' : α → Nat} {t u : α} {p q : Nat}

def demands (blk : α → α → Prop) (base prio : α → Nat) (t : α) : Set Nat :=
  {p | p = base t ∨ ∃ w, blk w t ∧ p = prio w}

/-- The priority of a node is the best that is demanded of it. -/
def Settled (blk : α → α → Prop) (base prio : α → Nat) (t : α) : Prop :=
  IsLeast (demands blk base prio t) (prio t)

theorem base_mem : base t ∈ demands blk base prio t := .inl rfl

theorem blocker_mem {w : α} (h : blk w t) : prio w ∈ demands blk base prio t := .inr ⟨w, h, rfl⟩

theorem Settled.le_base (h : Settled blk base prio t) : prio t ≤ base t := h.2 base_mem

theorem Settled.le_blocker (h : Settled blk base prio t) {w : α} (hw : blk w t) :
    prio t ≤ prio w := h.2 (blocker_mem hw)

theorem demands_congr (hbase : base' t = base t) (hblk : ∀ w, blk' w t ↔ blk w t)
    (hprio : ∀ w, blk w t → prio' w = prio w) :
    demands blk' base' prio' t = demands blk base prio t := by
  ext p
  simp only [demands, Set.mem_ofPred_eq, hbase]
  constructor
  · rintro (h | ⟨w, hw, rfl⟩)
    · exact .inl h
    · have hw' := (hblk w).mp hw
      exact .inr ⟨w, hw', hprio w hw'⟩
  · rintro (h | ⟨w, hw, rfl⟩)
    · exact .inl h
    · exact .inr ⟨w, (hblk w).mpr hw, (hprio w hw).symm⟩

theorem Settled.congr (h : Settled blk base prio t) (hbase : base' t = base t)
    (hself : prio' t = prio t) (hblk : ∀ w, blk' w t ↔ blk w t)
    (hprio : ∀ w, blk w t → prio' w = prio w) : Settled blk' base' prio' t := by
  rw [Settled, demands_congr hbase hblk hprio, hself]
  exact h

/-- A blocker whose priority is no better than the base demands nothing. -/
theorem least_drop {w : α} (hw : base t ≤ prio w) (hblk : ∀ v, blk' v t ↔ blk v t ∧ v ≠ w)
    (hbase : base' t = base t) (hprio : ∀ v, v ≠ w → prio' v = prio v) :
    IsLeast (demands blk' base' prio' t) p ↔ IsLeast (demands blk base prio t) p := by
  have hsub : demands blk' base' prio' t ⊆ demands blk base prio t := by
    rintro x (rfl | ⟨v, hv, rfl⟩)
    · exact .inl hbase
    · obtain ⟨hv, hne⟩ := (hblk v).mp hv
      exact .inr ⟨v, hv, hprio v hne⟩
  have hback : ∀ x ∈ demands blk base prio t, ∃ y ∈ demands blk' base' prio' t, y ≤ x ∧
      (x < base t → y = x) := by
    rintro x (rfl | ⟨v, hv, rfl⟩)
    · exact ⟨base' t, .inl rfl, by omega, by omega⟩
    · by_cases hvw : v = w
      · subst hvw
        exact ⟨base' t, .inl rfl, by omega, by omega⟩
      · exact ⟨prio v, .inr ⟨v, (hblk v).mpr ⟨hv, hvw⟩, (hprio v hvw).symm⟩, le_refl _, fun _ => rfl⟩
  constructor
  · intro h
    refine ⟨hsub h.1, ?_⟩
    intro x hx
    obtain ⟨y, hy, hle, _⟩ := hback x hx
    exact (h.2 hy).trans hle
  · intro h
    refine ⟨?_, fun x hx => h.2 (hsub hx)⟩
    obtain ⟨y, hy, hle, heq⟩ := hback p h.1
    have : p ≤ y := h.2 (hsub hy)
    have : y = p := by omega
    exact this ▸ hy

variable [DecidableEq α]

/-- Giving a node what is demanded of it settles it, unless it blocks itself. -/
theorem settled_set (h : IsLeast (demands blk base prio t) p) (ht : ¬ blk t t) :
    Settled blk base (Function.update prio t p) t := by
  have hd : demands blk base (Function.update prio t p) t = demands blk base prio t := by
    apply demands_congr rfl (fun _ => Iff.rfl)
    intro w hw
    have : w ≠ t := by
      rintro rfl
      exact ht hw
    simp [this]
  rw [Settled, hd]
  simpa using h

/-- Nodes that the changed one does not block stay settled. -/
theorem Settled.set_other (h : Settled blk base prio u) (hu : u ≠ t) (hb : ¬ blk t u) :
    Settled blk base (Function.update prio t p) u := by
  apply h.congr rfl
  · simp [hu]
  · exact fun _ => Iff.rfl
  · intro w hw
    have : w ≠ t := by
      rintro rfl
      exact hb hw
    simp [this]

/-- When a blocker is promoted, the new demand is the better of the old priority
and that of the blocker. -/
theorem Settled.promoted (h : Settled blk base prio u) (hb : blk t u) (hp : p < prio t) :
    IsLeast (demands blk base (Function.update prio t p) u) (min (prio u) p) := by
  have hP : p ∈ demands blk base (Function.update prio t p) u := .inr ⟨t, hb, by simp⟩
  have hlow : ∀ x ∈ demands blk base (Function.update prio t p) u, min (prio u) p ≤ x := by
    rintro x (rfl | ⟨w, hw, rfl⟩)
    · have := h.le_base
      omega
    · by_cases hwt : w = t
      · subst hwt
        simp
      · have := h.le_blocker hw
        simp only [Function.update_of_ne hwt]
        omega
  refine ⟨?_, hlow⟩
  by_cases hle : prio u ≤ p
  · rw [min_eq_left hle]
    rcases h.1 with he | ⟨w, hw, he⟩
    · exact .inl he
    · have hwt : w ≠ t := by
        rintro rfl
        omega
      exact .inr ⟨w, hw, by simpa [hwt] using he⟩
  · rw [min_eq_right (by omega)]
    exact hP

end SdkPort.Inherit
