import Mathlib.Data.List.Nodup
import Mathlib.Data.List.Perm.Basic
import Mathlib.Dynamics.PeriodicPts.Defs
import Mathlib.Logic.Function.Basic
import SdkPort.Lib.Linked

/-!
# Chains in a table

A table gives each cell its successor, an end mark, or a mark that the cell is free. The
cells in use fall into disjoint chains. Counting the free cells needs no other
bookkeeping: what is not in a chain is free.
-/
namespace SdkPort.Chains

open Function (update update_self update_of_ne)
open Linked (firstOf lastOf)

variable {α : Type} {free stop x p : α} {data c l : List α} {g g' : α → α} {cs cs' : List (List α)}

/-- Each cell leads to the next one, the last cell to the end mark. -/
def Chained (stop : α) (g : α → α) : List α → Prop
  | [] => True
  | x :: l => g x = firstOf stop l ∧ Chained stop g l

theorem Chained.congr (h : Chained stop g c) (hg : ∀ x ∈ c, g' x = g x) : Chained stop g' c := by
  induction c with
  | nil => trivial
  | cons x c ih =>
    refine ⟨(hg x List.mem_cons_self).trans h.1, ih h.2 ?_⟩
    intro y hy
    exact hg y (List.mem_cons_of_mem _ hy)

theorem firstOf_eq (h : l ≠ []) : l[0]? = some (firstOf stop l) := by
  cases l with
  | nil => exact absurd rfl h
  | cons x l => rfl

/-- The cell behind a cell of the chain. -/
theorem Chained.next {i : Nat} (h : Chained stop g l) (hx : l[i]? = some x) (hi : i + 1 < l.length) :
    l[i + 1]? = some (g x) := by
  induction l generalizing i with
  | nil => cases hi
  | cons y l ih =>
    rw [List.length_cons] at hi
    cases i with
    | zero =>
      have hyx : y = x := Option.some_inj.mp hx
      have hl : l ≠ [] := List.ne_nil_of_length_pos (by omega)
      rw [← hyx, h.1, List.getElem?_cons_succ, firstOf_eq hl]
    | succ i => exact ih h.2 hx (by omega)

/-- A cell behind the last one. -/
theorem Chained.snoc (h : Chained stop g c) (hd : c.Nodup) (hx : x ∉ c) (hgx : g' x = stop)
    (hlast : c ≠ [] → g' (lastOf x c) = x) (hg : ∀ y ∈ c, y ≠ lastOf x c → g' y = g y) :
    Chained stop g' (c ++ [x]) := by
  induction c with
  | nil => exact ⟨hgx, trivial⟩
  | cons y c ih =>
    obtain ⟨hy, hc⟩ := h
    rw [List.nodup_cons] at hd
    have hxc : x ∉ c := fun hm => hx (List.mem_cons_of_mem _ hm)
    by_cases h0 : c = []
    · subst h0
      exact ⟨hlast nofun, hgx, trivial⟩
    · have hl : lastOf x (y :: c) = lastOf x c := by
        cases c with
        | nil => exact absurd rfl h0
        | cons z c => rfl
      rw [hl] at hlast hg
      have hyl : y ≠ lastOf x c := fun he => hd.1 (he ▸ Linked.lastOf_mem h0)
      refine ⟨?_, ih hc hd.2 hxc (fun _ => hlast nofun) fun z hz => hg z (List.mem_cons_of_mem _ hz)⟩
      rw [hg y List.mem_cons_self hyl, hy]
      cases c with
      | nil => exact absurd rfl h0
      | cons z c => rfl

section Link

variable [DecidableEq α]

/-- A chain laid over a table. -/
def link (stop : α) : List α → (α → α) → α → α
  | [], g => g
  | x :: l, g => update (link stop l g) x (firstOf stop l)

theorem link_of_not_mem (h : x ∉ l) : link stop l g x = g x := by
  induction l with
  | nil => rfl
  | cons y l ih =>
    rw [List.mem_cons, not_or] at h
    rw [link, update_of_ne h.1, ih h.2]

theorem link_chained (hd : l.Nodup) : Chained stop (link stop l g) l := by
  induction l with
  | nil => trivial
  | cons x l ih =>
    rw [List.nodup_cons] at hd
    refine ⟨update_self .., (ih hd.2).congr ?_⟩
    intro y hy
    have hyx : y ≠ x := fun he => hd.1 (he ▸ hy)
    exact update_of_ne hyx ..

/-- A cell is put behind the last one. -/
theorem link_snoc (hd : l.Nodup) (hx : x ∉ l) (h0 : l ≠ []) :
    link stop (l ++ [x]) g = update (update (link stop l g) (lastOf p l) x) x stop := by
  induction l with
  | nil => exact absurd rfl h0
  | cons y l ih =>
    rw [List.nodup_cons] at hd
    rw [List.mem_cons, not_or] at hx
    by_cases hl : l = []
    · subst hl
      funext z
      by_cases hzy : z = y <;> by_cases hzx : z = x <;> simp_all [link, Function.update_apply]
    · have hly : lastOf p (y :: l) = lastOf p l := by
        cases l with
        | nil => exact absurd rfl hl
        | cons z l => rfl
      have hf : firstOf stop (l ++ [x]) = firstOf stop l := by
        cases l with
        | nil => exact absurd rfl hl
        | cons z l => rfl
      have hne : lastOf p l ≠ y := fun he => hd.1 (he ▸ Linked.lastOf_mem hl)
      rw [List.cons_append, link, ih hd.2 hx.2 hl, hf, hly, link, Function.update_comm hx.1,
        Function.update_comm hne]

end Link

section Walk

/-- The walk along a table leaves the cells, and meets no free cell on the way. It meets no
cell twice then, or it would go round for ever. -/
def Leaves (free : α) (data : List α) (g : α → α) (x : α) : Prop :=
  ∃ n, g^[n] x ∉ data ∧ ∀ i < n, g^[i] x ∈ data ∧ g (g^[i] x) ≠ free

theorem leaves_outside (hx : x ∉ data) : Leaves free data g x := ⟨0, hx, nofun⟩

theorem not_leaves_free (hx : x ∈ data) (hf : g x = free) : ¬ Leaves free data g x := by
  intro ⟨n, hn, hall⟩
  cases n with
  | zero => exact hn hx
  | succ n => exact (hall 0 (Nat.succ_pos n)).2 hf

theorem leaves_step (hx : x ∈ data) (hf : g x ≠ free) : Leaves free data g (g x) ↔ Leaves free data g x := by
  constructor
  · intro ⟨n, hn, hall⟩
    refine ⟨n + 1, hn, fun i hi => ?_⟩
    cases i with
    | zero => exact ⟨hx, hf⟩
    | succ i => exact hall i (Nat.lt_of_succ_lt_succ hi)
  · intro ⟨n, hn, hall⟩
    cases n with
    | zero => exact absurd hx hn
    | succ n => exact ⟨n, hn, fun i hi => hall (i + 1) (Nat.succ_lt_succ hi)⟩

variable {n i : Nat}

/-- Two tables are walked alike as long as they agree. -/
theorem iterate_congr (hg : ∀ i < n, g' (g^[i] x) = g (g^[i] x)) (hi : i ≤ n) : g'^[i] x = g^[i] x := by
  induction i with
  | zero => rfl
  | succ i ih =>
    rw [Function.iterate_succ_apply', Function.iterate_succ_apply', ih (Nat.le_of_succ_le hi)]
    exact hg i hi

theorem leaves_congr (hn : g^[n] x ∉ data) (hall : ∀ i < n, g^[i] x ∈ data ∧ g (g^[i] x) ≠ free)
    (hg : ∀ i < n, g' (g^[i] x) = g (g^[i] x)) : Leaves free data g' x := by
  refine ⟨n, by rwa [iterate_congr hg (Nat.le_refl n)], fun i hi => ?_⟩
  rw [iterate_congr hg (Nat.le_of_lt hi), hg i hi]
  exact hall i hi

theorem Leaves.congr (h : Leaves free data g x) (hg : ∀ y ∈ data, g' y = g y) : Leaves free data g' x := by
  obtain ⟨n, hn, hall⟩ := h
  exact leaves_congr hn hall fun i hi => hg _ (hall i hi).1

/-- A walk that leaves the cells does not come back to where it was. -/
theorem ne_of_leaves (hn : g^[n] (g x) ∉ data) (hall : ∀ i < n, g^[i] (g x) ∈ data) (hi : i < n) :
    g^[i] (g x) ≠ x := by
  intro he
  have hp : Function.IsPeriodicPt g (i + 1) (g x) := by
    rw [Function.IsPeriodicPt, Function.IsFixedPt, Function.iterate_succ_apply', he]
  -- the round brings the end of the walk back among its cells
  have hlt : n % (i + 1) < i + 1 := Nat.mod_lt _ (Nat.succ_pos i)
  rw [← hp.iterate_mod_apply n] at hn
  exact hn (hall _ (by omega))

/-- A cell in use is made free behind the walk. -/
theorem leaves_release [DecidableEq α] :
    Leaves free data (update g x free) (g x) ↔ Leaves free data g (g x) := by
  constructor
  · intro ⟨n, hn, hall⟩
    apply leaves_congr hn hall
    intro i hi
    have hne : (update g x free)^[i] (g x) ≠ x := by
      intro he
      have := (hall i hi).2
      rw [he, update_self] at this
      exact this rfl
    rw [update_of_ne hne]
  · intro ⟨n, hn, hall⟩
    apply leaves_congr hn hall
    intro i hi
    exact update_of_ne (ne_of_leaves hn (fun i hi => (hall i hi).1) hi) ..

/-- One more cell is free. -/
theorem countP_release [DecidableEq α] (hd : data.Nodup) (hx : x ∈ data) (hf : g x ≠ free) :
    (data.countP fun y => update g x free y = free) = (data.countP fun y => g y = free) + 1 := by
  induction data with
  | nil => cases hx
  | cons y data ih =>
    rw [List.nodup_cons] at hd
    by_cases hyx : y = x
    · subst hyx
      rw [List.countP_cons_of_pos (by simp), List.countP_cons_of_neg (by simpa using hf)]
      congr 1
      apply List.countP_congr
      intro z hz
      have hzy : z ≠ y := fun he => hd.1 (he ▸ hz)
      rw [update_of_ne hzy]
    · have hm : x ∈ data := (List.mem_cons.mp hx).resolve_left (Ne.symm hyx)
      rw [List.countP_cons, List.countP_cons, ih hd.2 hm, update_of_ne hyx]
      omega

end Walk

/-- The chains of the cells in use. -/
structure Forest (free stop : α) (data : List α) (g : α → α) (cs : List (List α)) : Prop where
  chained : ∀ c ∈ cs, Chained stop g c
  nodup : cs.flatten.Nodup
  cover : ∀ x, x ∈ cs.flatten ↔ x ∈ data ∧ g x ≠ free

namespace Forest

theorem perm (h : Forest free stop data g cs) (hp : cs.Perm cs') : Forest free stop data g cs' := by
  have hf := hp.flatten
  refine ⟨fun c hc => h.chained c (hp.mem_iff.mpr hc), hf.nodup_iff.mp h.nodup, fun x => ?_⟩
  rw [← hf.mem_iff]
  exact h.cover x

theorem congr (h : Forest free stop data g cs) (hg : ∀ x ∈ data, g' x = g x) :
    Forest free stop data g' cs := by
  refine ⟨fun c hc => (h.chained c hc).congr fun x hx => hg x ?_, h.nodup, fun x => ?_⟩
  · exact ((h.cover x).mp (List.mem_flatten.mpr ⟨c, hc, hx⟩)).1
  · rw [h.cover x]
    constructor
    · intro ⟨hx, hn⟩
      exact ⟨hx, by rwa [hg x hx]⟩
    · intro ⟨hx, hn⟩
      exact ⟨hx, by rwa [hg x hx] at hn⟩

theorem nil_cons : Forest free stop data g ([] :: cs) ↔ Forest free stop data g cs := by
  constructor
  · intro h
    exact ⟨fun c hc => h.chained c (List.mem_cons_of_mem _ hc), h.nodup, h.cover⟩
  · intro h
    refine ⟨fun c hc => ?_, h.nodup, h.cover⟩
    cases List.mem_cons.mp hc with
    | inl he =>
      rw [he]
      trivial
    | inr hm => exact h.chained c hm

variable [DecidableEq α]

/-- What is not in a chain is free. -/
theorem count (h : Forest free stop data g cs) (hd : data.Nodup) :
    (data.countP fun x => g x = free) + cs.flatten.length = data.length := by
  have hp : cs.flatten.Perm (data.filter fun x => ¬ g x = free) := by
    apply (List.perm_ext_iff_of_nodup h.nodup (hd.filter _)).mpr
    intro x
    rw [h.cover x, List.mem_filter, decide_eq_true_eq]
  rw [hp.length_eq, ← List.countP_eq_length_filter]
  have hl := List.length_eq_countP_add_countP (fun x => decide (g x = free)) (l := data)
  simpa using hl.symm

/-- A free cell joins the first chain. -/
theorem take (h : Forest free stop data g (c :: cs)) (hs : stop ≠ free) (hx : x ∈ data) (hf : g x = free)
    (hgx : g' x = stop) (hlast : c ≠ [] → g' (lastOf x c) = x) (hxf : x ≠ free)
    (hg : ∀ y ∈ data, y ≠ x → (c ≠ [] → y ≠ lastOf x c) → g' y = g y) :
    Forest free stop data g' ((c ++ [x]) :: cs) := by
  have hxc : x ∉ (c :: cs).flatten := fun hm => ((h.cover x).mp hm).2 hf
  have hd := h.nodup
  rw [List.flatten_cons] at hxc hd
  have hdata : ∀ y ∈ c ++ cs.flatten, y ∈ data ∧ g y ≠ free := fun y hy => (h.cover y).mp hy
  have hne : ∀ y ∈ c ++ cs.flatten, y ≠ x := fun y hy he => hxc (he ▸ hy)
  refine ⟨?_, ?_, ?_⟩
  · intro k hk
    cases List.mem_cons.mp hk with
    | inl he =>
      rw [he]
      apply (h.chained c List.mem_cons_self).snoc hd.of_append_left
        (fun hm => hxc (List.mem_append_left _ hm)) hgx hlast
      intro y hy hyl
      have hy' := List.mem_append_left cs.flatten hy
      exact hg y (hdata y hy').1 (hne y hy') fun _ => hyl
    | inr hm =>
      apply (h.chained k (List.mem_cons_of_mem _ hm)).congr
      intro y hy
      have hyf : y ∈ cs.flatten := List.mem_flatten.mpr ⟨k, hm, hy⟩
      have hy' := List.mem_append_right c hyf
      apply hg y (hdata y hy').1 (hne y hy')
      rintro h0 rfl
      exact (List.nodup_append.mp hd).2.2 _ (Linked.lastOf_mem h0) _ hyf rfl
  · have hp : ((c ++ [x]) ++ cs.flatten).Perm (x :: (c ++ cs.flatten)) := by
      rw [List.append_assoc]
      exact List.perm_middle
    exact hp.nodup_iff.mpr (List.nodup_cons.mpr ⟨hxc, hd⟩)
  · intro y
    have hm : y ∈ ((c ++ [x]) :: cs).flatten ↔ y = x ∨ y ∈ c ++ cs.flatten := by
      simp only [List.flatten_cons, List.mem_append, List.mem_singleton]
      tauto
    rw [hm]
    by_cases hyx : y = x
    · subst hyx
      simp [hx, hgx, hs]
    · have hc := h.cover y
      rw [List.flatten_cons] at hc
      rw [or_iff_right hyx, hc]
      by_cases hyl : c ≠ [] ∧ y = lastOf x c
      · obtain ⟨h0, rfl⟩ := hyl
        have hmem := hdata _ (List.mem_append_left _ (Linked.lastOf_mem (p := x) h0))
        simp [hmem, hlast h0, hxf]
      · constructor
        · intro ⟨hy, hn⟩
          refine ⟨hy, ?_⟩
          rwa [hg y hy hyx fun h0 he => hyl ⟨h0, he⟩]
        · intro ⟨hy, hn⟩
          refine ⟨hy, ?_⟩
          rwa [hg y hy hyx fun h0 he => hyl ⟨h0, he⟩] at hn

/-- The head of the first chain becomes free. -/
theorem release (h : Forest free stop data g ((x :: c) :: cs)) (hgx : g' x = free)
    (hg : ∀ y ∈ data, y ≠ x → g' y = g y) : Forest free stop data g' (c :: cs) := by
  have hd := h.nodup
  rw [List.flatten_cons, List.cons_append, List.nodup_cons] at hd
  have hdata : ∀ y ∈ c ++ cs.flatten, y ∈ data ∧ y ≠ x := by
    intro y hy
    refine ⟨((h.cover y).mp ?_).1, fun he => hd.1 (he ▸ hy)⟩
    rw [List.flatten_cons]
    exact List.mem_cons_of_mem _ hy
  refine ⟨?_, hd.2, ?_⟩
  · intro k hk
    cases List.mem_cons.mp hk with
    | inl he =>
      rw [he]
      apply (h.chained (x :: c) List.mem_cons_self).2.congr
      intro y hy
      have hy' := hdata y (List.mem_append_left _ hy)
      exact hg y hy'.1 hy'.2
    | inr hm =>
      apply (h.chained k (List.mem_cons_of_mem _ hm)).congr
      intro y hy
      have hy' := hdata y (List.mem_append_right _ (List.mem_flatten.mpr ⟨k, hm, hy⟩))
      exact hg y hy'.1 hy'.2
  · intro y
    have hc := h.cover y
    rw [List.flatten_cons, List.cons_append, List.mem_cons] at hc
    rw [List.flatten_cons]
    by_cases hyx : y = x
    · subst hyx
      simp [hd.1, hgx]
    · rw [or_iff_right hyx] at hc
      rw [hc]
      constructor
      · intro ⟨hy, hn⟩
        exact ⟨hy, by rwa [hg y hy hyx]⟩
      · intro ⟨hy, hn⟩
        exact ⟨hy, by rwa [hg y hy hyx] at hn⟩

end Forest

end SdkPort.Chains
