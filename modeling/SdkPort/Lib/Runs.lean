import Mathlib.Logic.Function.Basic

/-!
# Lockstep runs of a stateful program and an abstract one

The program is a state-passing computation that may fail; the abstract side is
a plain result. The two agree when both succeed in related outcomes or both fail
in the same way. The rules follow the program from left to right and leave the
abstract result to be reached by computation.
-/
namespace SdkPort.Runs

variable {ε σ α β γ δ : Type}

/-- Both sides succeed with related outcomes, or both fail for the same reason. -/
def Lockstep (R : α → σ → β → Prop) : Except ε (α × σ) → Except ε β → Prop
  | .ok (v, s), .ok b => R v s b
  | .error e, .error e' => e = e'
  | _, _ => False

variable {R : α → σ → β → Prop} {Q : γ → σ → δ → Prop}

@[simp] theorem lockstep_ok (v : α) (s : σ) (b : β) :
    Lockstep R (.ok (v, s) : Except ε (α × σ)) (.ok b) ↔ R v s b := Iff.rfl

@[simp] theorem lockstep_error (e e' : ε) :
    Lockstep R (.error e) (.error e') ↔ e = e' := Iff.rfl

theorem lockstep_ok_left {x : Except ε (α × σ)} {b : β} :
    Lockstep R x (.ok b) ↔ ∃ v s, x = .ok (v, s) ∧ R v s b := by
  constructor
  · rcases x with e | ⟨v, s⟩
    · exact False.elim
    · exact fun h => ⟨v, s, rfl, h⟩
  · rintro ⟨v, s, rfl, h⟩
    exact h

theorem lockstep_ok_right {v : α} {s : σ} {y : Except ε β} (h : Lockstep R (.ok (v, s)) y) :
    ∃ b, y = .ok b ∧ R v s b := by
  cases y with
  | error e => exact h.elim
  | ok b => exact ⟨b, rfl, h⟩

theorem lockstep_error_right {e : ε} {y : Except ε β}
    (h : Lockstep R (.error e : Except ε (α × σ)) y) : y = .error e := by
  cases y with
  | error e' => exact congrArg _ h.symm
  | ok b => exact h.elim

/-- A sequence succeeds when each part does. -/
theorem bind_eq_ok {x : Except ε β} {f : β → Except ε γ} {c : γ} :
    (x >>= f) = .ok c ↔ ∃ v, x = .ok v ∧ f v = .ok c := by
  cases x with
  | error e => simp [bind, Except.bind]
  | ok v => simp [bind, Except.bind]

theorem bind_ok_self (x : Except ε β) : (x >>= Except.ok) = x := bind_pure x

theorem run_bind (m : StateT σ (Except ε) α) (k : α → StateT σ (Except ε) β) (s : σ) :
    (m >>= k) s = (m s).bind fun p => k p.1 p.2 := rfl

@[simp] theorem run_pure (v : α) (s : σ) : (pure v : StateT σ (Except ε) α) s = .ok (v, s) := rfl

/-- A first step that succeeds is followed by the rest in its outcome. -/
theorem run_bind_ok {m : StateT σ (Except ε) α} {k : α → StateT σ (Except ε) β} {s s' : σ} {v : α}
    (h : m s = .ok (v, s')) : (m >>= k) s = k v s' := by
  rw [run_bind, h]
  rfl

/-- The program returns `v` in a state related to `b`. -/
def Gives (S : σ → δ → Prop) (x : Except ε (α × σ)) (v : α) (b : δ) : Prop :=
  ∃ s, x = .ok (v, s) ∧ S s b

variable {S : σ → δ → Prop}

theorem gives_pure {s : σ} {b : δ} (v : α) (h : S s b) :
    Gives S ((pure v : StateT σ (Except ε) α) s) v b := ⟨s, rfl, h⟩

theorem gives_bind {m : StateT σ (Except ε) α} {k : α → StateT σ (Except ε) β} {s : σ} {v : α}
    {w : β} {b : δ} {S' : σ → γ → Prop} {c : γ} (h : Gives S (m s) v b)
    (hk : ∀ s', S s' b → Gives S' (k v s') w c) : Gives S' ((m >>= k) s) w c := by
  obtain ⟨s', hm, hs⟩ := h
  rw [run_bind_ok hm]
  exact hk s' hs

theorem lockstep_of_gives {m : StateT σ (Except ε) γ} {k : γ → StateT σ (Except ε) α} {s : σ}
    {v : γ} {b : δ} {y : Except ε β} (h : Gives S (m s) v b)
    (hk : ∀ s', S s' b → Lockstep R (k v s') y) : Lockstep R ((m >>= k) s) y := by
  obtain ⟨s', hm, hs⟩ := h
  rw [run_bind_ok hm]
  exact hk s' hs

/-- Sequencing of two lockstep parts. -/
theorem lockstep_bind {m : StateT σ (Except ε) γ} {k : γ → StateT σ (Except ε) α} {s : σ}
    {y : Except ε δ} {g : δ → Except ε β} (h : Lockstep Q (m s) y)
    (hk : ∀ v s' d, y = .ok d → Q v s' d → Lockstep R (k v s') (g d)) :
    Lockstep R ((m >>= k) s) (y >>= g) := by
  rw [run_bind]
  rcases hm : m s with e | ⟨v, s'⟩ <;> rcases y with e' | d <;> rw [hm] at h
  · exact h
  · exact h.elim
  · exact h.elim
  · exact hk v s' d rfl h

end SdkPort.Runs
