import Mathlib.Data.List.Nodup
import Mathlib.Logic.Function.Basic

/-!
# Families of intrusive doubly linked lists

A list is represented by a head, a tail and two link functions on its elements,
with a distinguished null element at both ends. A family of such lists shares
one pair of link functions, so an element may lie in at most one of them. The
update rules below are stated pointwise: any concrete store whose link words
change as described represents the updated lists.
-/
namespace SdkPort.Linked

variable {α ι : Type} {nil : α} {next prev next' prev' : α → α}

/-- The first element of a list, or `e` past its end. -/
def firstOf (e : α) : List α → α
  | [] => e
  | x :: _ => x

/-- The last element of a list, or `p` before its beginning. -/
def lastOf (p : α) : List α → α
  | [] => p
  | x :: l => lastOf x l

@[simp] theorem firstOf_nil (e : α) : firstOf e [] = e := rfl
@[simp] theorem firstOf_cons (e x : α) (l : List α) : firstOf e (x :: l) = x := rfl
@[simp] theorem lastOf_nil (p : α) : lastOf p [] = p := rfl
@[simp] theorem lastOf_cons (p x : α) (l : List α) : lastOf p (x :: l) = lastOf x l := rfl

@[simp] theorem firstOf_append (e : α) (u v : List α) :
    firstOf e (u ++ v) = firstOf (firstOf e v) u := by
  cases u <;> rfl

@[simp] theorem lastOf_append (p : α) (u v : List α) :
    lastOf p (u ++ v) = lastOf (lastOf p u) v := by
  induction u generalizing p with
  | nil => rfl
  | cons x u ih => exact ih x

theorem firstOf_mem {e : α} {l : List α} (h : l ≠ []) : firstOf e l ∈ l := by
  cases l with
  | nil => exact absurd rfl h
  | cons x l => simp

theorem lastOf_mem_cons (x : α) (l : List α) : lastOf x l ∈ x :: l := by
  induction l generalizing x with
  | nil => simp
  | cons y l ih => exact List.mem_cons_of_mem _ (ih y)

theorem lastOf_mem {p : α} {l : List α} (h : l ≠ []) : lastOf p l ∈ l := by
  cases l with
  | nil => exact absurd rfl h
  | cons x l => exact lastOf_mem_cons x l

theorem firstOf_mem_of_ne {e : α} {l : List α} (h : firstOf e l ≠ e) : firstOf e l ∈ l := by
  apply firstOf_mem
  rintro rfl
  exact h rfl

theorem lastOf_mem_of_ne {p : α} {l : List α} (h : lastOf p l ≠ p) : lastOf p l ∈ l := by
  apply lastOf_mem
  rintro rfl
  exact h rfl

theorem firstOf_eq_nil {l : List α} (h : nil ∉ l) : firstOf nil l = nil ↔ l = [] := by
  cases l with
  | nil => simp
  | cons x l => simp only [firstOf_cons, reduceCtorEq, iff_false]; rintro rfl; simp at h

theorem lastOf_eq_nil {l : List α} (h : nil ∉ l) : lastOf nil l = nil ↔ l = [] := by
  constructor
  · intro he
    by_contra hl
    exact h (he ▸ lastOf_mem hl)
  · rintro rfl
    rfl

/-- `l` is linked between the predecessor `p` of its first element and the
successor `e` of its last one. -/
def Seg (next prev : α → α) : α → List α → α → Prop
  | _, [], _ => True
  | p, x :: l, e => prev x = p ∧ next x = firstOf e l ∧ Seg next prev x l e

@[simp] theorem seg_nil (p e : α) : Seg next prev p [] e := trivial

theorem seg_cons (p x e : α) (l : List α) :
    Seg next prev p (x :: l) e ↔ prev x = p ∧ next x = firstOf e l ∧ Seg next prev x l e := Iff.rfl

/-- The elements met by following `next` from a head, at most `n` of them. -/
def walk [DecidableEq α] (nil : α) (next : α → α) : Nat → α → List α
  | 0, _ => []
  | n + 1, x => if x = nil then [] else x :: walk nil next n (next x)

/-- A segment splits at any point; the two parts meet at each other's ends. -/
theorem seg_append (p e : α) (u v : List α) :
    Seg next prev p (u ++ v) e ↔ Seg next prev p u (firstOf e v) ∧ Seg next prev (lastOf p u) v e := by
  induction u generalizing p with
  | nil => simp
  | cons x u ih => simp only [List.cons_append, seg_cons, firstOf_append, ih, lastOf_cons, and_assoc]

/-- Only the links of the elements themselves matter. -/
theorem seg_congr {p e : α} {l : List α} (h : Seg next prev p l e)
    (hn : ∀ x ∈ l, next' x = next x) (hp : ∀ x ∈ l, prev' x = prev x) : Seg next' prev' p l e := by
  induction l generalizing p with
  | nil => trivial
  | cons x l ih =>
    obtain ⟨h₁, h₂, h₃⟩ := h
    refine ⟨(hp x (by simp)).trans h₁, (hn x (by simp)).trans h₂, ?_⟩
    exact ih h₃ (fun y hy => hn y (by simp [hy])) (fun y hy => hp y (by simp [hy]))

/-- Redirecting the successor of the last element re-targets the segment. -/
theorem seg_retarget {p e e' : α} {l : List α} (h : Seg next prev p l e) (hd : l.Nodup)
    (hp : ∀ x ∈ l, prev' x = prev x) (hlast : l ≠ [] → next' (lastOf p l) = e')
    (hn : ∀ x ∈ l, x ≠ lastOf p l → next' x = next x) : Seg next' prev' p l e' := by
  induction l generalizing p with
  | nil => trivial
  | cons x l ih =>
    obtain ⟨h₁, h₂, h₃⟩ := h
    obtain ⟨hx, hd'⟩ := List.nodup_cons.mp hd
    refine ⟨(hp x (by simp)).trans h₁, ?_, ?_⟩
    · cases l with
      | nil => simpa using hlast (by simp)
      | cons y l =>
        rw [hn x (by simp), h₂, firstOf_cons, firstOf_cons]
        intro he
        exact hx (he ▸ lastOf_mem_cons y l)
    · exact ih h₃ hd' (fun y hy => hp y (by simp [hy])) (fun _ => hlast (by simp))
        (fun y hy hne => hn y (by simp [hy]) hne)

/-- Redirecting the predecessor of the first element moves the segment's origin. -/
theorem seg_reorigin {p p' e : α} {l : List α} (h : Seg next prev p l e) (hd : l.Nodup)
    (hn : ∀ x ∈ l, next' x = next x) (hfirst : l ≠ [] → prev' (firstOf e l) = p')
    (hp : ∀ x ∈ l, x ≠ firstOf e l → prev' x = prev x) : Seg next' prev' p' l e := by
  cases l with
  | nil => trivial
  | cons x l =>
    obtain ⟨_, h₂, h₃⟩ := h
    obtain ⟨hx, _⟩ := List.nodup_cons.mp hd
    refine ⟨hfirst (by simp), (hn x (by simp)).trans h₂, ?_⟩
    apply seg_congr h₃ (fun y hy => hn y (by simp [hy]))
    intro y hy
    exact hp y (by simp [hy]) (by rintro rfl; exact hx hy)

/-- Replacing a part of a segment. Besides the new part only the link of the element
before it and that of the element behind it change. -/
theorem seg_splice [DecidableEq α] {p e : α} {u w w' v : List α} (h : Seg next prev p (u ++ w ++ v) e)
    (hd : (u ++ v).Nodup) (hpv : p ∉ v) (heu : e ∉ u)
    (hw : Seg next' prev' (lastOf p u) w' (firstOf e v))
    (hn : ∀ x ∈ u ++ v, next' x = if x = lastOf p u then firstOf (firstOf e v) w' else next x)
    (hp : ∀ x ∈ u ++ v, prev' x = if x = firstOf e v then lastOf (lastOf p u) w' else prev x) :
    Seg next' prev' p (u ++ w' ++ v) e := by
  rw [seg_append, seg_append] at h ⊢
  obtain ⟨⟨hu, _⟩, hv⟩ := h
  have hdisj := (List.nodup_append.mp hd).2.2
  have hlast : ∀ x ∈ v, x ≠ lastOf p u := by
    intro x hx he
    cases u with
    | nil =>
      subst he
      exact hpv hx
    | cons y u => exact hdisj _ (lastOf_mem_cons y u) x hx he.symm
  have hfirst : ∀ x ∈ u, x ≠ firstOf e v := by
    intro x hx he
    cases v with
    | nil =>
      subst he
      exact heu hx
    | cons y v => exact hdisj x hx y (by simp) he
  refine ⟨⟨?_, hw⟩, ?_⟩
  · apply seg_retarget hu hd.of_append_left
    · intro x hx
      rw [hp x (by simp [hx]), if_neg (hfirst x hx)]
    · intro hne
      rw [hn _ (by simp [lastOf_mem hne]), if_pos rfl]
    · intro x hx hxl
      rw [hn x (by simp [hx]), if_neg hxl]
  · rw [lastOf_append]
    apply seg_reorigin hv hd.of_append_right
    · intro x hx
      rw [hn x (by simp [hx]), if_neg (hlast x hx)]
    · intro hne
      rw [hp _ (by simp [firstOf_mem hne]), if_pos rfl]
    · intro x hx hxf
      rw [hp x (by simp [hx]), if_neg hxf]

/-- A null-terminated list with a head and a tail pointer. -/
structure Dll (nil : α) (next prev : α → α) (head tail : α) (l : List α) : Prop where
  seg : Seg next prev nil l nil
  head_eq : head = firstOf nil l
  tail_eq : tail = lastOf nil l
  nodup : l.Nodup
  nil_not_mem : nil ∉ l

theorem Dll.empty : Dll nil next prev nil nil [] := ⟨trivial, rfl, rfl, List.nodup_nil, by simp⟩

theorem Dll.head_eq_nil {head tail : α} {l : List α} (h : Dll nil next prev head tail l) :
    head = nil ↔ l = [] := by rw [h.head_eq, firstOf_eq_nil h.nil_not_mem]

theorem Dll.tail_eq_nil {head tail : α} {l : List α} (h : Dll nil next prev head tail l) :
    tail = nil ↔ l = [] := by rw [h.tail_eq, lastOf_eq_nil h.nil_not_mem]

/-- Following a segment to its end lists its elements. -/
theorem walk_seg [DecidableEq α] {n : Nat} {p : α} {l : List α} (h : Seg next prev p l nil)
    (h0 : nil ∉ l) (hn : l.length ≤ n) : walk nil next n (firstOf nil l) = l := by
  induction l generalizing n p with
  | nil => cases n <;> simp [walk]
  | cons x l ih =>
    obtain ⟨_, hx, hs⟩ := h
    cases n with
    | zero => simp at hn
    | succ n =>
      have hne : x ≠ nil := fun he => h0 (by simp [he])
      rw [firstOf_cons, walk, if_neg hne, hx,
        ih hs (fun hm => h0 (by simp [hm])) (by simpa using hn)]

theorem Dll.walk [DecidableEq α] {n : Nat} {head tail : α} {l : List α}
    (h : Dll nil next prev head tail l) (hn : l.length ≤ n) : walk nil next n head = l := by
  rw [h.head_eq]
  exact walk_seg h.seg h.nil_not_mem hn

/-- The links around an element of a list, given where it stands. -/
theorem Dll.links {head tail : α} {u v : List α} {x : α}
    (h : Dll nil next prev head tail (u ++ x :: v)) :
    prev x = lastOf nil u ∧ next x = firstOf nil v := by
  have hs := h.seg
  rw [seg_append, seg_cons] at hs
  exact ⟨hs.2.1, hs.2.2.1⟩

theorem Dll.congr {head tail : α} {l : List α} (h : Dll nil next prev head tail l)
    (hn : ∀ x ∈ l, next' x = next x) (hp : ∀ x ∈ l, prev' x = prev x) :
    Dll nil next' prev' head tail l :=
  ⟨seg_congr h.seg hn hp, h.head_eq, h.tail_eq, h.nodup, h.nil_not_mem⟩

/-- Linking a fresh element behind the tail. -/
theorem Dll.pushBack [DecidableEq α] {head tail : α} {l : List α} {x : α}
    (h : Dll nil next prev head tail l) (hx : x ≠ nil) (hfresh : x ∉ l)
    (hn : ∀ y, y ≠ nil → next' y = if y = x then nil else if y = tail then x else next y)
    (hp : ∀ y, y ≠ nil → prev' y = if y = x then tail else prev y) :
    Dll nil next' prev' (if tail = nil then x else head) x (l ++ [x]) := by
  have hne : ∀ y ∈ l, y ≠ x ∧ y ≠ nil :=
    fun y hy => ⟨fun he => hfresh (he ▸ hy), fun he => h.nil_not_mem (he ▸ hy)⟩
  have hlast : l ≠ [] → next' (lastOf nil l) = x := by
    intro hl
    obtain ⟨h₁, h₂⟩ := hne _ (lastOf_mem hl)
    rw [hn _ h₂, if_neg h₁, if_pos h.tail_eq.symm]
  have hold : ∀ y ∈ l, y ≠ lastOf nil l → next' y = next y := by
    intro y hy hy'
    rw [hn y (hne y hy).2, if_neg (hne y hy).1, if_neg (by rwa [h.tail_eq])]
  refine ⟨?_, ?_, by simp, ?_, by simp [h.nil_not_mem, Ne.symm hx]⟩
  · rw [seg_append]
    refine ⟨seg_retarget h.seg h.nodup ?_ hlast hold, ?_⟩
    · intro y hy
      rw [hp y (hne y hy).2, if_neg (hne y hy).1]
    · exact ⟨by simp [hp x hx, h.tail_eq], by simp [hn x hx], trivial⟩
  · by_cases hl : l = []
    · simp [hl, h.tail_eq_nil]
    · rw [if_neg (by rwa [h.tail_eq_nil]), h.head_eq]
      cases l with
      | nil => exact absurd rfl hl
      | cons y l => rfl
  · simpa [List.nodup_append, h.nodup] using fun y hy => (hne y hy).1

/-- Linking a fresh element in front of the element `y`. -/
theorem Dll.insertBefore [DecidableEq α] {head tail : α} {u v : List α} {x y : α}
    (h : Dll nil next prev head tail (u ++ y :: v)) (hx : x ≠ nil) (hfresh : x ∉ u ++ y :: v)
    (hn : ∀ z, z ≠ nil → next' z = if z = x then y else if z = prev y then x else next z)
    (hp : ∀ z, z ≠ nil → prev' z = if z = y then x else if z = x then prev y else prev z) :
    Dll nil next' prev' (if prev y = nil then x else head) tail (u ++ x :: y :: v) := by
  obtain ⟨hprev, hnext⟩ := h.links
  have hd := h.nodup
  have hne : ∀ z ∈ u ++ y :: v, z ≠ x ∧ z ≠ nil :=
    fun z hz => ⟨fun he => hfresh (he ▸ hz), fun he => h.nil_not_mem (he ▸ hz)⟩
  have hu : ∀ z ∈ u, z ≠ x ∧ z ≠ nil ∧ z ≠ y := by
    intro z hz
    refine ⟨(hne z (by simp [hz])).1, (hne z (by simp [hz])).2, ?_⟩
    rintro rfl
    exact (List.nodup_append.mp hd).2.2 z hz z (by simp) rfl
  have hlast : ∀ z ∈ y :: v, z ≠ lastOf nil u := by
    intro z hz he
    by_cases hu0 : u = []
    · subst hu0
      exact (hne z (by simpa using hz)).2 he
    · exact (List.nodup_append.mp hd).2.2 _ (lastOf_mem hu0) z hz he.symm
  have hs := h.seg
  rw [seg_append, seg_cons] at hs
  have hy := hne y (by simp)
  refine ⟨?_, ?_, ?_, ?_, ?_⟩
  · rw [seg_append, seg_cons, seg_cons]
    refine ⟨seg_retarget hs.1 hd.of_append_left ?_ ?_ ?_, ?_, ?_, ?_, ?_, ?_⟩
    · intro z hz
      rw [hp z (hu z hz).2.1, if_neg (hu z hz).2.2, if_neg (hu z hz).1]
    · intro hl
      have hz := hu (lastOf nil u) (lastOf_mem hl)
      rw [hn _ hz.2.1, if_neg hz.1, hprev, if_pos rfl]
      rfl
    · intro z hz hzl
      rw [hn z (hu z hz).2.1, if_neg (hu z hz).1, if_neg (by rwa [hprev])]
    · rw [hp x hx, if_neg (fun he => hy.1 he.symm), if_pos rfl, hprev]
    · rw [hn x hx, if_pos rfl]
      rfl
    · rw [hp y hy.2, if_pos rfl]
    · rw [hn y hy.2, if_neg hy.1, if_neg (by rw [hprev]; exact hlast y (by simp)), hnext]
    · apply seg_congr hs.2.2.2
      · intro z hz
        have hz' := hne z (by simp [hz])
        rw [hn z hz'.2, if_neg hz'.1, if_neg (by rw [hprev]; exact hlast z (by simp [hz]))]
      · intro z hz
        have hz' := hne z (by simp [hz])
        have hzy : z ≠ y := by
          rintro rfl
          exact (List.nodup_cons.mp hd.of_append_right).1 hz
        rw [hp z hz'.2, if_neg hzy, if_neg hz'.1]
  · rw [hprev, h.head_eq]
    cases u with
    | nil => simp
    | cons z u =>
      rw [if_neg (hu _ (lastOf_mem (by simp))).2.1]
      rfl
  · rw [h.tail_eq]
    simp
  · rw [List.nodup_middle, List.nodup_cons]
    exact ⟨hfresh, hd⟩
  · have := h.nil_not_mem
    simp only [List.mem_append, List.mem_cons, not_or] at this ⊢
    exact ⟨this.1, Ne.symm hx, this.2⟩

/-- Unlinking an element. -/
theorem Dll.remove [DecidableEq α] {head tail : α} {u v : List α} {x : α}
    (h : Dll nil next prev head tail (u ++ x :: v))
    (hn : ∀ z, z ≠ nil → z ≠ x → next' z = if z = prev x then next x else next z)
    (hp : ∀ z, z ≠ nil → z ≠ x → prev' z = if z = next x then prev x else prev z) :
    Dll nil next' prev' (if prev x = nil then next x else head)
      (if next x = nil then prev x else tail) (u ++ v) := by
  obtain ⟨hprev, hnext⟩ := h.links
  have hd := h.nodup
  have hne : ∀ z ∈ u ++ x :: v, z ≠ nil := fun z hz he => h.nil_not_mem (he ▸ hz)
  have hux : ∀ z ∈ u, z ≠ x := by
    rintro z hz rfl
    exact (List.nodup_append.mp hd).2.2 z hz z (by simp) rfl
  have hvx : ∀ z ∈ v, z ≠ x := by
    rintro z hz rfl
    exact (List.nodup_cons.mp hd.of_append_right).1 hz
  have huv : ∀ z ∈ u, ∀ w ∈ v, z ≠ w := by
    intro z hz w hw
    exact (List.nodup_append.mp hd).2.2 z hz w (by simp [hw])
  have hlastu : u ≠ [] → lastOf nil u ∈ u := lastOf_mem
  have hs := h.seg
  rw [seg_append, seg_cons] at hs
  have hnil := h.nil_not_mem
  simp only [List.mem_append, List.mem_cons, not_or] at hnil
  refine ⟨?_, ?_, ?_, ?_, ?_⟩
  · rw [seg_append]
    constructor
    · apply seg_retarget hs.1 hd.of_append_left
      · intro z hz
        rw [hp z (hne z (by simp [hz])) (hux z hz)]
        by_cases hv : v = []
        · rw [if_neg (by rw [hnext, hv]; exact hne z (by simp [hz]))]
        · rw [if_neg (by rw [hnext]; exact huv z hz _ (firstOf_mem hv))]
      · intro hu
        have hz := hlastu hu
        rw [hn _ (hne _ (by simp [hz])) (hux _ hz), hprev, if_pos rfl, hnext]
      · intro z hz hzl
        rw [hn z (hne z (by simp [hz])) (hux z hz), if_neg (by rwa [hprev])]
    · apply seg_reorigin hs.2.2.2 hd.of_append_right.of_cons
      · intro z hz
        rw [hn z (hne z (by simp [hz])) (hvx z hz)]
        by_cases hu : u = []
        · rw [if_neg (by rw [hprev, hu]; exact hne z (by simp [hz]))]
        · rw [if_neg (by rw [hprev]; exact fun he => huv _ (hlastu hu) z hz he.symm)]
      · intro hv
        have hz : firstOf nil v ∈ v := firstOf_mem hv
        rw [hp _ (hne _ (by simp [hz])) (hvx _ hz), hnext, if_pos rfl, hprev]
      · intro z hz hzf
        rw [hp z (hne z (by simp [hz])) (hvx z hz), if_neg (by rwa [hnext])]
  · rw [hprev, hnext, h.head_eq]
    cases u with
    | nil => simp
    | cons z u =>
      rw [if_neg (hne _ (List.mem_append_left _ (lastOf_mem (by simp))))]
      rfl
  · rw [hprev, hnext, h.tail_eq]
    cases v with
    | nil => simp
    | cons z v =>
      have hz : z ≠ nil := hne z (by simp)
      simp [hz]
  · exact hd.sublist (by simp)
  · simpa [not_or] using ⟨hnil.1, hnil.2.2⟩

/-- Several lists sharing one pair of link functions, no element in two of them. -/
structure Family (nil : α) (next prev : α → α) (head tail : ι → α) (L : ι → List α) : Prop where
  dll : ∀ i, Dll nil next prev (head i) (tail i) (L i)
  disjoint : ∀ i j x, x ∈ L i → x ∈ L j → i = j

section Family

variable {head tail head' tail' : ι → α} {L : ι → List α}

theorem Family.ne_nil (h : Family nil next prev head tail L) {i : ι} {x : α} (hx : x ∈ L i) :
    x ≠ nil := fun he => (h.dll i).nil_not_mem (he ▸ hx)

/-- Only the links of members matter. -/
theorem Family.congr (h : Family nil next prev head tail L)
    (hn : ∀ i, ∀ y ∈ L i, next' y = next y) (hp : ∀ i, ∀ y ∈ L i, prev' y = prev y) :
    Family nil next' prev' head tail L :=
  ⟨fun i => (h.dll i).congr (hn i) (hp i), h.disjoint⟩

/-- Changing one list by a rule that leaves all other members' links alone. -/
theorem Family.update [DecidableEq ι] (h : Family nil next prev head tail L) (i : ι) (l : List α)
    (hl : Dll nil next' prev' (head' i) (tail' i) l)
    (hn : ∀ j, j ≠ i → ∀ y ∈ L j, next' y = next y) (hp : ∀ j, j ≠ i → ∀ y ∈ L j, prev' y = prev y)
    (hh : ∀ j, j ≠ i → head' j = head j) (ht : ∀ j, j ≠ i → tail' j = tail j)
    (hfresh : ∀ j, j ≠ i → ∀ y ∈ l, y ∉ L j) :
    Family nil next' prev' head' tail' (Function.update L i l) := by
  constructor
  · intro j
    by_cases hj : j = i
    · subst hj
      simpa using hl
    · rw [Function.update_of_ne hj, hh j hj, ht j hj]
      exact (h.dll j).congr (hn j hj) (hp j hj)
  · intro j k x hxj hxk
    by_cases hj : j = i <;> by_cases hk : k = i
    · rw [hj, hk]
    · rw [hj, Function.update_self] at hxj
      rw [Function.update_of_ne hk] at hxk
      exact absurd hxk (hfresh k hk x hxj)
    · rw [hk, Function.update_self] at hxk
      rw [Function.update_of_ne hj] at hxj
      exact absurd hxj (hfresh j hj x hxk)
    · rw [Function.update_of_ne hj] at hxj
      rw [Function.update_of_ne hk] at hxk
      exact h.disjoint j k x hxj hxk

variable [DecidableEq α] [DecidableEq ι]

theorem Family.pushBack (h : Family nil next prev head tail L) {i : ι} {x : α} (hx : x ≠ nil)
    (hfresh : ∀ j, x ∉ L j)
    (hn : ∀ y, y ≠ nil → next' y = if y = x then nil else if y = tail i then x else next y)
    (hp : ∀ y, y ≠ nil → prev' y = if y = x then tail i else prev y)
    (hh : ∀ j, head' j = if j = i ∧ tail i = nil then x else head j)
    (ht : ∀ j, tail' j = if j = i then x else tail j) :
    Family nil next' prev' head' tail' (Function.update L i (L i ++ [x])) := by
  have htail : ∀ j, j ≠ i → ∀ y ∈ L j, y ≠ tail i := by
    rintro j hj y hy rfl
    have hl : L i ≠ [] := fun he => h.ne_nil hy ((h.dll i).tail_eq_nil.mpr he)
    have hmem : tail i ∈ L i := by
      rw [(h.dll i).tail_eq]
      exact lastOf_mem hl
    exact hj (h.disjoint j i _ hy hmem)
  have hxj : ∀ j, ∀ y ∈ L j, y ≠ x := by
    rintro j y hy rfl
    exact hfresh j hy
  apply h.update
  · have := (h.dll i).pushBack hx (hfresh i) hn hp
    simpa [hh, ht] using this
  · intro j hj y hy
    rw [hn y (h.ne_nil hy), if_neg (hxj j y hy), if_neg (htail j hj y hy)]
  · intro j _ y hy
    rw [hp y (h.ne_nil hy), if_neg (hxj j y hy)]
  · intro j hj
    simp [hh, hj]
  · intro j hj
    simp [ht, hj]
  · intro j hj y hy hyj
    rcases List.mem_append.mp hy with hy | hy
    · exact hj (h.disjoint j i y hyj hy)
    · exact hfresh j (List.mem_singleton.mp hy ▸ hyj)

theorem Family.insertBefore (h : Family nil next prev head tail L) {i : ι} {x y : α}
    {u v : List α} (hx : x ≠ nil) (hfresh : ∀ j, x ∉ L j) (hL : L i = u ++ y :: v)
    (hn : ∀ z, z ≠ nil → next' z = if z = x then y else if z = prev y then x else next z)
    (hp : ∀ z, z ≠ nil → prev' z = if z = y then x else if z = x then prev y else prev z)
    (hh : ∀ j, head' j = if j = i ∧ prev y = nil then x else head j)
    (ht : ∀ j, tail' j = tail j) :
    Family nil next' prev' head' tail' (Function.update L i (u ++ x :: y :: v)) := by
  have hd := hL ▸ h.dll i
  have hyi : y ∈ L i := by simp [hL]
  have hxj : ∀ j, ∀ z ∈ L j, z ≠ x := by
    rintro j z hz rfl
    exact hfresh j hz
  have hprev : ∀ j, j ≠ i → ∀ z ∈ L j, z ≠ prev y := by
    rintro j hj z hz rfl
    have hl : u ≠ [] := by
      rintro rfl
      exact h.ne_nil hz hd.links.1
    have hmem : prev y ∈ L i := by
      rw [hd.links.1, hL]
      exact List.mem_append_left _ (lastOf_mem hl)
    exact hj (h.disjoint j i _ hz hmem)
  apply h.update
  · have := hd.insertBefore hx (hL ▸ hfresh i) hn hp
    simpa [hh, ht] using this
  · intro j hj z hz
    rw [hn z (h.ne_nil hz), if_neg (hxj j z hz), if_neg (hprev j hj z hz)]
  · intro j hj z hz
    rw [hp z (h.ne_nil hz), if_neg, if_neg (hxj j z hz)]
    rintro rfl
    exact hj (h.disjoint j i _ hz hyi)
  · intro j hj
    simp [hh, hj]
  · intro j _
    exact ht j
  · intro j hj z hz hzj
    have hz' : z = x ∨ z ∈ L i := by
      simp only [hL, List.mem_append, List.mem_cons] at hz ⊢
      tauto
    rcases hz' with rfl | hz'
    · exact hfresh j hzj
    · exact hj (h.disjoint j i z hzj hz')

theorem Family.remove (h : Family nil next prev head tail L) {i : ι} {x : α} (hx : x ∈ L i)
    (hn : ∀ z, z ≠ nil → z ≠ x → next' z = if z = prev x then next x else next z)
    (hp : ∀ z, z ≠ nil → z ≠ x → prev' z = if z = next x then prev x else prev z)
    (hh : ∀ j, head' j = if j = i ∧ prev x = nil then next x else head j)
    (ht : ∀ j, tail' j = if j = i ∧ next x = nil then prev x else tail j) :
    Family nil next' prev' head' tail' (Function.update L i ((L i).erase x)) := by
  obtain ⟨u, v, hL⟩ := List.append_of_mem hx
  have hd := hL ▸ h.dll i
  have hxu : x ∉ u := fun hu => (List.nodup_append.mp hd.nodup).2.2 x hu x (by simp) rfl
  have herase : (L i).erase x = u ++ v := by
    rw [hL, List.erase_append_right _ hxu, List.erase_cons_head]
  have hlinks : ∀ j, j ≠ i → ∀ z ∈ L j, z ≠ prev x ∧ z ≠ next x := by
    intro j hj z hz
    constructor
    · rintro rfl
      have hl : u ≠ [] := by
        rintro rfl
        exact h.ne_nil hz hd.links.1
      refine hj (h.disjoint j i _ hz ?_)
      rw [hd.links.1, hL]
      exact List.mem_append_left _ (lastOf_mem hl)
    · rintro rfl
      have hl : v ≠ [] := by
        rintro rfl
        exact h.ne_nil hz hd.links.2
      refine hj (h.disjoint j i _ hz ?_)
      rw [hd.links.2, hL]
      exact List.mem_append_right _ (List.mem_cons_of_mem _ (firstOf_mem hl))
  have hxj : ∀ j, j ≠ i → ∀ z ∈ L j, z ≠ x := by
    rintro j hj z hz rfl
    exact hj (h.disjoint j i _ hz hx)
  apply h.update
  · rw [herase]
    simpa [hh, ht] using hd.remove hn hp
  · intro j hj z hz
    rw [hn z (h.ne_nil hz) (hxj j hj z hz), if_neg (hlinks j hj z hz).1]
  · intro j hj z hz
    rw [hp z (h.ne_nil hz) (hxj j hj z hz), if_neg (hlinks j hj z hz).2]
  · intro j hj
    simp [hh, hj]
  · intro j hj
    simp [ht, hj]
  · intro j hj z hz hzj
    exact hj (h.disjoint j i z hzj (List.mem_of_mem_erase hz))

end Family

end SdkPort.Linked
