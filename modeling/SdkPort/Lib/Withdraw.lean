import SdkPort.Lib.Inherit
import Mathlib.Logic.Relation

/-!
# Withdrawing a demand

When a node stops blocking another one, the node it blocked is re-evaluated and, if its
priority gets worse, so is the one that node blocks, and so on. The nodes that get worse
are those fed along the way: their priority came from their predecessor alone. They form
a path, which can only close at the node that withdrew.
-/
namespace SdkPort.Inherit

open Relation (TransGen ReflTransGen)

variable {α : Type} {blk blk' : α → α → Prop} {base prio prio' : α → Nat} {asleep : α → Prop}
  {t u v w x y z : α} {l : List α} {p : Nat}

/-- The priority of `x` comes from the blocker `y` and from no other demand. -/
def Feeds (blk : α → α → Prop) (base prio : α → Nat) (asleep : α → Prop) (y x : α) : Prop :=
  blk y x ∧ ¬ asleep x ∧ prio x < base x ∧ ∀ w, blk w x → w ≠ y → prio x < prio w

theorem Feeds.prio_eq (h : Feeds blk base prio asleep y x) (hs : Settled blk base prio x) :
    prio x = prio y := by
  rcases hs.1 with he | ⟨w, hw, he⟩
  · have := h.2.2.1
    omega
  · by_cases hwy : w = y
    · rw [he, hwy]
    · have := h.2.2.2 w hw hwy
      omega

/-- On a path that leaves every node in one way only, a circle goes through all that it
reaches. -/
theorem closed_of_reach {r : α → α → Prop} (hr : Relator.RightUnique r) (ht : TransGen r t t)
    (h : ReflTransGen r t z) : TransGen r z z := by
  induction h with
  | refl => exact ht
  | tail _ hzw ih =>
    obtain ⟨v, hzv, hvz⟩ := TransGen.head'_iff.mp ih
    rw [hr hzv hzw] at hvz
    exact TransGen.tail' hvz hzw

variable [DecidableEq α]

/-- The nodes re-evaluated so far, the last one first, and the priorities they have now. -/
inductive Trail (blk : α → α → Prop) (base prio : α → Nat) (asleep : α → Prop) (t : α) :
    List α → (α → Nat) → Prop
  | start : Trail blk base prio asleep t [t] prio
  | step {x y : α} {l : List α} {prio' : α → Nat} {p : Nat} :
      Trail blk base prio asleep t (y :: l) prio' → Feeds blk base prio asleep y x →
      x ∉ y :: l → prio x < p → Trail blk base prio asleep t (x :: y :: l) (Function.update prio' x p)

namespace Trail

theorem start_mem (h : Trail blk base prio asleep t l prio') : t ∈ l := by
  induction h with
  | start => simp
  | step _ _ _ _ ih => exact List.mem_cons_of_mem _ ih

theorem nodup (h : Trail blk base prio asleep t l prio') : l.Nodup := by
  induction h with
  | start => simp
  | step _ _ hx _ ih => exact List.nodup_cons.mpr ⟨hx, ih⟩

theorem kept (h : Trail blk base prio asleep t l prio') (hz : z ∉ l ∨ z = t) : prio' z = prio z := by
  induction h with
  | start => rfl
  | @step x y l prio' p ht hf hx hp ih =>
    have hne : z ≠ x := by
      rintro rfl
      rcases hz with hz | rfl
      · exact hz (by simp)
      · exact hx ht.start_mem
    rw [Function.update_of_ne hne]
    exact ih (hz.imp_left fun hn hm => hn (List.mem_cons_of_mem _ hm))

theorem raised (h : Trail blk base prio asleep t l prio') (hz : z ∈ l) (hzt : z ≠ t) :
    prio z < prio' z := by
  induction h with
  | start => exact absurd (by simpa using hz) hzt
  | @step x y l prio' p ht hf hx hp ih =>
    by_cases hzx : z = x
    · subst hzx
      simpa using hp
    · rw [Function.update_of_ne hzx]
      exact ih ((List.mem_cons.mp hz).resolve_left hzx)

theorem le (h : Trail blk base prio asleep t l prio') (z : α) : prio z ≤ prio' z := by
  by_cases hz : z ∉ l ∨ z = t
  · exact (h.kept hz).ge
  · simp only [not_or, not_not] at hz
    exact (h.raised hz.1 hz.2).le

/-- Every node but the last one has fed the next. -/
theorem succ (h : Trail blk base prio asleep t (y :: l) prio') (hw : w ∈ l) :
    ∃ v ∈ y :: l, v ≠ t ∧ Feeds blk base prio asleep w v := by
  generalize hl : y :: l = l' at h
  induction h generalizing y l with
  | start =>
    cases hl
    cases hw
  | @step x z k prio' p ht hf hx hp ih =>
    cases hl
    rcases List.mem_cons.mp hw with rfl | hw
    · refine ⟨x, by simp, ?_, hf⟩
      rintro rfl
      exact hx ht.start_mem
    · obtain ⟨v, hv, hvt, hfv⟩ := ih hw rfl
      exact ⟨v, List.mem_cons_of_mem _ hv, hvt, hfv⟩

/-- Every node but the first one was fed by one that is not the last. -/
theorem pred (h : Trail blk base prio asleep t (y :: l) prio') (hx : x ∈ y :: l) (hxt : x ≠ t) :
    ∃ u ∈ l, Feeds blk base prio asleep u x := by
  generalize hl : y :: l = l' at h
  induction h generalizing y l with
  | start =>
    cases hl
    exact absurd (by simpa using hx) hxt
  | @step x' z k prio' p ht hf hx' hp ih =>
    cases hl
    rcases List.mem_cons.mp hx with rfl | hx
    · exact ⟨z, by simp, hf⟩
    · obtain ⟨u, hu, hfu⟩ := ih hx rfl
      exact ⟨u, List.mem_cons_of_mem _ hu, hfu⟩

theorem fed (h : Trail blk base prio asleep t l prio') (hz : z ∈ l) :
    z = t ∨ ∃ y, Feeds blk base prio asleep y z := by
  induction h with
  | start => exact .inl (List.mem_singleton.mp hz)
  | step _ hf _ _ ih =>
    rcases List.mem_cons.mp hz with rfl | hz
    · exact .inr ⟨_, hf⟩
    · exact ih hz

theorem reach (h : Trail blk base prio asleep t (y :: l) prio') :
    ReflTransGen (Feeds blk base prio asleep) t y := by
  generalize hl : y :: l = l' at h
  induction h generalizing y l with
  | start =>
    cases hl
    exact .refl
  | step _ hf _ _ ih =>
    cases hl
    exact (ih rfl).tail hf

/-- All nodes of a trail had the priority of the first. -/
theorem level (h : Trail blk base prio asleep t l prio')
    (hs : ∀ y x, blk y x → ¬ asleep x → Settled blk base prio x) (hz : z ∈ l) : prio z = prio t := by
  induction h generalizing z with
  | start => rw [List.mem_singleton.mp hz]
  | step _ hf _ _ ih =>
    rcases List.mem_cons.mp hz with rfl | hz
    · exact (hf.prio_eq (hs _ _ hf.1 hf.2.1)).trans (ih (by simp))
    · exact ih hz

/-- What re-evaluating the next node finds: its priority is out of date exactly when the
last node fed it, and then it is new to the trail or the node that withdrew. -/
theorem next (h : Trail blk base prio asleep t (y :: l) prio')
    (hfun : ∀ w x x', blk w x → blk w x' → x = x')
    (hs : ∀ y x, blk y x → ¬ asleep x → Settled blk base prio x)
    (hblk : ∀ w x, blk' w x ↔ blk w x ∧ w ≠ t) (hb : blk y x) (hx : ¬ asleep x)
    (hp : IsLeast (demands blk' base prio' x) p) :
    (x = t ∨ x ∉ y :: l) ∧ (Feeds blk base prio asleep y x ↔ prio' x ≠ p) ∧
      (Feeds blk base prio asleep y x → prio x < p) := by
  have hset := hs y x hb hx
  have hfresh : x = t ∨ x ∉ y :: l := by
    by_contra hn
    simp only [not_or, not_not] at hn
    obtain ⟨u, hu, hfu⟩ := h.pred hn.2 hn.1
    have hyu : y ≠ u := by
      rintro rfl
      exact (List.nodup_cons.mp h.nodup).1 hu
    have hlt := hfu.2.2.2 y hb hyu
    have hxl := h.level hs hn.2
    have hyl := h.level hs (z := y) (by simp)
    omega
  -- no other node of the trail blocks `x`
  have hout : ∀ w, blk w x → w ≠ y → w ∉ y :: l := by
    intro w hw hwy hmem
    obtain ⟨v, hv, hvt, hfv⟩ := h.succ ((List.mem_cons.mp hmem).resolve_left hwy)
    have hvx := hfun w v x hfv.1 hw
    subst hvx
    exact hfresh.elim hvt fun hn => hn hv
  have hkeep : prio' x = prio x := h.kept (hfresh.symm)
  have hother : ∀ w, blk w x → w ≠ y → prio' w = prio w := fun w hw hwy =>
    h.kept (.inl (hout w hw hwy))
  have hlast : y ≠ t → prio x < prio' y := fun hyt =>
    (hset.le_blocker hb).trans_lt (h.raised (by simp) hyt)
  have hworse : Feeds blk base prio asleep y x → prio x < p := by
    intro hf
    rcases hp.1 with he | ⟨w, hw, he⟩
    · rw [he]
      exact hf.2.2.1
    · obtain ⟨hw, hwt⟩ := (hblk w x).mp hw
      by_cases hwy : w = y
      · subst hwy
        rw [he]
        exact hlast hwt
      · rw [he, hother w hw hwy]
        exact hf.2.2.2 w hw hwy
  refine ⟨hfresh, ⟨fun hf => ?_, fun hne => ?_⟩, hworse⟩
  · have := hworse hf
    omega
  · -- otherwise another demand still holds the priority where it was
    by_contra hf
    apply hne
    rw [hkeep]
    have hmem : prio x ∈ demands blk' base prio' x := by
      rcases hset.1 with he | ⟨w, hw, he⟩
      · exact .inl he
      by_cases hwy : w = y
      · subst hwy
        simp only [Feeds, not_and, not_forall, not_lt] at hf
        by_cases hbase : prio x < base x
        · obtain ⟨w', hw', hne', hle⟩ := hf hb hx hbase
          have hle' := hset.le_blocker hw'
          refine .inr ⟨w', (hblk w' x).mpr ⟨hw', ?_⟩, ?_⟩
          · rintro rfl
            exact hout w' hw' hne' h.start_mem
          · rw [hother w' hw' hne']
            omega
        · have := hset.le_base
          exact .inl (by omega)
      · refine .inr ⟨w, (hblk w x).mpr ⟨hw, ?_⟩, by rw [hother w hw hwy, he]⟩
        rintro rfl
        exact hout w hw hwy h.start_mem
    refine IsLeast.unique ⟨hmem, ?_⟩ hp
    rintro d (rfl | ⟨w, hw, rfl⟩)
    · exact hset.le_base
    · exact (hset.le_blocker ((hblk w x).mp hw).1).trans (h.le w)

end Trail

end SdkPort.Inherit
