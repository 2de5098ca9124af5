/-!
# Refinement over runs

A component answers calls and moves on, or faults. An abstract machine answers the same calls.
When each legal call keeps a relation between the two states and gets the same reply, every
legal sequence of calls gets the same replies.
-/
namespace SdkPort.Refine

variable {σ τ κ ρ : Type}

/-- Calls made one after another, with their replies. -/
def runAll (exec : σ → κ → Option (ρ × σ)) (s : σ) : List κ → Option (List ρ × σ)
  | [] => some ([], s)
  | c :: cs => (exec s c).bind fun x => (runAll exec x.2 cs).map fun y => (x.1 :: y.1, y.2)

/-- The same of a machine that does not fault. -/
def specAll (spec : τ → κ → ρ × τ) (t : τ) : List κ → List ρ × τ
  | [] => ([], t)
  | c :: cs => ((spec t c).1 :: (specAll spec (spec t c).2 cs).1, (specAll spec (spec t c).2 cs).2)

/-- Every call is allowed in the abstract state it meets. -/
def Legal (spec : τ → κ → ρ × τ) (ok : τ → κ → Prop) (t : τ) : List κ → Prop
  | [] => True
  | c :: cs => ok t c ∧ Legal spec ok (spec t c).2 cs

instance Legal.decidable {spec : τ → κ → ρ × τ} {ok : τ → κ → Prop} [∀ t c, Decidable (ok t c)] :
    (t : τ) → (cs : List κ) → Decidable (Legal spec ok t cs)
  | _, [] => inferInstanceAs (Decidable True)
  | t, c :: cs => @instDecidableAnd (ok t c) _ _ (Legal.decidable (spec t c).2 cs)

theorem legal_true (spec : τ → κ → ρ × τ) {t : τ} (cs : List κ) : Legal spec (fun _ _ => True) t cs := by
  induction cs generalizing t with
  | nil => trivial
  | cons c cs ih => exact ⟨trivial, ih⟩

/-- One call: the same reply, and the relation again. -/
def Simulates (exec : σ → κ → Option (ρ × σ)) (spec : τ → κ → ρ × τ) (ok : τ → κ → Prop) (R : σ → τ → Prop) : Prop :=
  ∀ s t c, R s t → ok t c → ∃ s', exec s c = some ((spec t c).1, s') ∧ R s' (spec t c).2

theorem Simulates.runAll {exec : σ → κ → Option (ρ × σ)} {spec : τ → κ → ρ × τ} {ok : τ → κ → Prop}
    {R : σ → τ → Prop} (h : Simulates exec spec ok R) {s : σ} {t : τ} {cs : List κ} (hR : R s t)
    (hl : Legal spec ok t cs) :
    ∃ s', runAll exec s cs = some ((specAll spec t cs).1, s') ∧ R s' (specAll spec t cs).2 := by
  induction cs generalizing s t with
  | nil => exact ⟨s, rfl, hR⟩
  | cons c cs ih =>
    obtain ⟨hc, hcs⟩ := hl
    obtain ⟨s₁, he, hR₁⟩ := h s t c hR hc
    obtain ⟨s₂, hr, hR₂⟩ := ih hR₁ hcs
    refine ⟨s₂, ?_, hR₂⟩
    simp only [Refine.runAll, he, Option.bind_some, hr, Option.map_some, specAll]

/-- Two states of one machine that answer alike, call after call. -/
theorem specAll_congr {spec : τ → κ → ρ × τ} {R : τ → τ → Prop}
    (h : ∀ t t' c, R t t' → (spec t c).1 = (spec t' c).1 ∧ R (spec t c).2 (spec t' c).2) {t t' : τ} (hR : R t t')
    (cs : List κ) : (specAll spec t cs).1 = (specAll spec t' cs).1 ∧ R (specAll spec t cs).2 (specAll spec t' cs).2 := by
  induction cs generalizing t t' with
  | nil => exact ⟨rfl, hR⟩
  | cons c cs ih =>
    obtain ⟨hc, hR₁⟩ := h t t' c hR
    obtain ⟨hcs, hR₂⟩ := ih hR₁
    exact ⟨by rw [specAll, specAll, hc, hcs], hR₂⟩

end SdkPort.Refine
