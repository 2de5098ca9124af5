import SdkPort.Lib.BitFields

/-!
# Setters of fields

Calls that store values into fields of words. After any calls a field holds what the latest of them
that sets it gave it, and a bit of no field that is set stays.
-/
namespace SdkPort.BitFields

variable {σ κ ι α : Type} {w i : Nat} [DecidableEq ι] {place : α → Place ι} {exec : σ → κ → σ} {regs : σ → ι → BitVec w}
  {values : κ → List (α × BitVec w)} {k : ι}

omit [DecidableEq ι] in
theorem Place.Apart.symm {p q : Place ι} (h : p.Apart q) : q.Apart p := by
  obtain h | h | h := h
  · exact .inl h.symm
  · exact .inr (.inr h)
  · exact .inr (.inl h)

/-- What the latest call that sets a field gives to it. -/
def latest [DecidableEq α] (values : κ → List (α × BitVec w)) (calls : List κ) (f : α) : Option (BitVec w) :=
  calls.reverse.findSome? fun c => (values c).lookup f

/-- Each call stores its values. -/
def Stores (place : α → Place ι) (exec : σ → κ → σ) (regs : σ → ι → BitVec w) (values : κ → List (α × BitVec w)) : Prop :=
  ∀ s c, regs (exec s c) = storeAll place (regs s) (values c)

theorem Stores.foldl (h : Stores place exec regs values) (s : σ) (calls : List κ) :
    regs (calls.foldl exec s) = storeAll place (regs s) (calls.flatMap values) := by
  induction calls generalizing s with
  | nil => rfl
  | cons c calls ih => rw [List.foldl_cons, ih, h, List.flatMap_cons, storeAll_append]

theorem lastValue_flatMap [DecidableEq α] (hn : ∀ c, ((values c).map Prod.fst).Nodup) (calls : List κ) (f : α) :
    lastValue (calls.flatMap values) f = latest values calls f := by
  induction calls with
  | nil => rfl
  | cons c calls ih =>
    rw [List.flatMap_cons, lastValue_append, ih, lastValue_eq_lookup (hn c)]
    simp [latest]

/-- The latest writer of a field. -/
theorem Stores.read [DecidableEq α] (h : Stores place exec regs values) (hl : Layout w place)
    (hn : ∀ c, ((values c).map Prod.fst).Nodup) (s : σ) (calls : List κ) (f : α) :
    (place f).read (regs (calls.foldl exec s)) =
      ((latest values calls f).map (· &&& ones w (place f).size)).getD ((place f).read (regs s)) := by
  rw [h.foldl, hl.read_storeAll, lastValue_flatMap hn]

theorem Stores.outside (h : Stores place exec regs values) (s : σ) (calls : List κ) (hi : i < w)
    (ho : ∀ c ∈ calls, ∀ x ∈ values c, ¬ (place x.1).Covers k i) :
    (regs (calls.foldl exec s) k).getLsbD i = (regs s k).getLsbD i := by
  rw [h.foldl]
  apply storeAll_outside hi
  intro x hx
  obtain ⟨c, hc, hx⟩ := List.mem_flatMap.mp hx
  exact ho c hc x hx

end SdkPort.BitFields
