import Mathlib.Data.List.Basic

/-!
# Events judged by what came before

A rule says which event may follow which history. A trace is lawful when each of
its events obeys the rule with respect to the events before it.
-/
namespace SdkPort.Trace

variable {ε : Type} {P Q : List ε → ε → Prop} {l : List ε} {e : ε}

def Always (P : List ε → ε → Prop) (l : List ε) : Prop :=
  ∀ u e v, l = u ++ e :: v → P u e

theorem always_nil (P : List ε → ε → Prop) : Always P [] := by
  intro u e v h
  simp at h

/-- A trace grows by one event at a time. -/
theorem always_snoc : Always P (l ++ [e]) ↔ Always P l ∧ P l e := by
  constructor
  · intro h
    refine ⟨fun u x v hl => h u x (v ++ [e]) ?_, h l e [] rfl⟩
    rw [hl, List.append_assoc, List.cons_append]
  · intro ⟨h, he⟩ u x v hl
    cases List.eq_nil_or_concat v with
    | inl hv =>
      subst hv
      obtain ⟨rfl, hx⟩ := List.append_inj' hl rfl
      cases hx
      exact he
    | inr hv =>
      obtain ⟨w, z, rfl⟩ := hv
      have hsplit : l ++ [e] = (u ++ x :: w) ++ [z] := by simpa using hl
      exact h u x w (List.append_inj_left' hsplit rfl)

end SdkPort.Trace
