import SdkPort.Lib.Linked

/-!
# Circular lists through sentinels

Each list runs from its sentinel around to it again, so the sentinel takes the place of the
null element: it holds head and tail as its own links.
-/
namespace SdkPort.Linked

open Function (update update_self update_of_ne)

variable {α ι : Type} {q : ι → α} {next prev next' prev' : α → α} {L : ι → List α} {i j : ι} {x y : α}

/-- Circular lists, no element in two of them, and no sentinel in any. -/
structure Rings (q : ι → α) (next prev : α → α) (L : ι → List α) : Prop where
  dll : ∀ i, Dll (q i) next prev (next (q i)) (prev (q i)) (L i)
  disjoint : ∀ i j x, x ∈ L i → x ∈ L j → i = j
  sentinel : ∀ i j, q i ∉ L j
  injective : Function.Injective q

namespace Rings

/-- Sentinels linked to themselves. -/
theorem empty (hq : Function.Injective q) (hn : ∀ i, next (q i) = q i) (hp : ∀ i, prev (q i) = q i) :
    Rings q next prev fun _ => [] := by
  refine ⟨fun i => ?_, nofun, nofun, hq⟩
  rw [hn, hp]
  exact Dll.empty

theorem next_eq (h : Rings q next prev L) (i : ι) : next (q i) = firstOf (q i) (L i) := (h.dll i).head_eq

theorem prev_eq (h : Rings q next prev L) (i : ι) : prev (q i) = lastOf (q i) (L i) := (h.dll i).tail_eq

theorem next_self (h : Rings q next prev L) : next (q i) = q i ↔ L i = [] := (h.dll i).head_eq_nil

/-- The neighbours of a list's own nodes are its own. -/
theorem next_own (h : Rings q next prev L) (hx : x = q i ∨ x ∈ L i) : next x = q i ∨ next x ∈ L i := by
  obtain rfl | hx := hx
  · rw [h.next_eq]
    by_cases h0 : L i = []
    · rw [h0]
      exact .inl rfl
    · exact .inr (firstOf_mem h0)
  · obtain ⟨u, v, hL⟩ := List.append_of_mem hx
    have hd := h.dll i
    rw [hL] at hd
    rw [hd.links.2]
    by_cases h0 : v = []
    · rw [h0]
      exact .inl rfl
    · rw [hL]
      exact .inr (List.mem_append_right _ (List.mem_cons_of_mem _ (firstOf_mem h0)))

theorem prev_own (h : Rings q next prev L) (hx : x = q i ∨ x ∈ L i) : prev x = q i ∨ prev x ∈ L i := by
  obtain rfl | hx := hx
  · rw [h.prev_eq]
    by_cases h0 : L i = []
    · rw [h0]
      exact .inl rfl
    · exact .inr (lastOf_mem h0)
  · obtain ⟨u, v, hL⟩ := List.append_of_mem hx
    have hd := h.dll i
    rw [hL] at hd
    rw [hd.links.1]
    by_cases h0 : u = []
    · rw [h0]
      exact .inl rfl
    · rw [hL]
      exact .inr (List.mem_append_left _ (lastOf_mem h0))

/-- A node of one list is none of another one. -/
theorem ne_own (h : Rings q next prev L) (hij : j ≠ i) (hx : x = q i ∨ x ∈ L i) (hy : y = q j ∨ y ∈ L j) :
    y ≠ x := by
  rintro rfl
  obtain rfl | hx := hx
  · obtain hy | hy := hy
    · exact hij (h.injective hy).symm
    · exact h.sentinel i j hy
  · obtain rfl | hy := hy
    · exact h.sentinel j i hx
    · exact hij (h.disjoint j i y hy hx)

/-- Following a link and the link back comes to where it began. -/
theorem prev_next (h : Rings q next prev L) (hx : x = q i ∨ x ∈ L i) : prev (next x) = x := by
  have hd := h.dll i
  obtain rfl | hx := hx
  · rw [h.next_eq]
    cases hL : L i with
    | nil => rw [Linked.firstOf_nil, h.prev_eq, hL, Linked.lastOf_nil]
    | cons y l =>
      rw [hL] at hd
      exact (hd.links (u := [])).1
  · obtain ⟨u, v, hL⟩ := List.append_of_mem hx
    rw [hL] at hd
    rw [hd.links.2]
    cases v with
    | nil => rw [Linked.firstOf_nil, hd.tail_eq, Linked.lastOf_append, Linked.lastOf_cons, Linked.lastOf_nil]
    | cons y v =>
      rw [List.append_cons] at hd
      rw [Linked.firstOf_cons, hd.links.1, Linked.lastOf_append, Linked.lastOf_cons, Linked.lastOf_nil]

theorem next_prev (h : Rings q next prev L) (hx : x = q i ∨ x ∈ L i) : next (prev x) = x := by
  have hd := h.dll i
  obtain rfl | hx := hx
  · rw [h.prev_eq]
    cases List.eq_nil_or_concat (L i) with
    | inl hL => rw [hL, Linked.lastOf_nil, h.next_eq, hL, Linked.firstOf_nil]
    | inr hL =>
      obtain ⟨u, z, hL⟩ := hL
      rw [List.concat_eq_append] at hL
      rw [hL] at hd ⊢
      rw [Linked.lastOf_append, Linked.lastOf_cons, Linked.lastOf_nil, hd.links.2, Linked.firstOf_nil]
  · obtain ⟨u, v, hL⟩ := List.append_of_mem hx
    rw [hL] at hd
    rw [hd.links.1]
    cases List.eq_nil_or_concat u with
    | inl hu =>
      rw [hu] at hd ⊢
      rw [Linked.lastOf_nil, hd.head_eq, List.nil_append, Linked.firstOf_cons]
    | inr hu =>
      obtain ⟨u, z, rfl⟩ := hu
      rw [List.concat_eq_append] at hd ⊢
      rw [List.append_assoc] at hd
      rw [Linked.lastOf_append, Linked.lastOf_cons, Linked.lastOf_nil, hd.links.2]
      rfl

/-- One list changes, the links of the others' nodes do not. -/
theorem update [DecidableEq ι] {l : List α} (h : Rings q next prev L)
    (hl : Dll (q i) next' prev' (next' (q i)) (prev' (q i)) l)
    (hn : ∀ j, j ≠ i → ∀ y, y = q j ∨ y ∈ L j → next' y = next y)
    (hp : ∀ j, j ≠ i → ∀ y, y = q j ∨ y ∈ L j → prev' y = prev y)
    (hd : ∀ j, j ≠ i → ∀ y ∈ l, y ∉ L j) (hs : ∀ j, q j ∉ l) : Rings q next' prev' (update L i l) := by
  refine ⟨?_, ?_, ?_, h.injective⟩
  · intro j
    by_cases hj : j = i
    · subst hj
      rw [update_self]
      exact hl
    · rw [update_of_ne hj, hn j hj _ (.inl rfl), hp j hj _ (.inl rfl)]
      exact (h.dll j).congr (fun y hy => hn j hj y (.inr hy)) fun y hy => hp j hj y (.inr hy)
  · intro j k y hyj hyk
    by_cases hj : j = i <;> by_cases hk : k = i
    · rw [hj, hk]
    · rw [hj, update_self] at hyj
      rw [update_of_ne hk] at hyk
      exact absurd hyk (hd k hk y hyj)
    · rw [hk, update_self] at hyk
      rw [update_of_ne hj] at hyj
      exact absurd hyj (hd j hj y hyk)
    · rw [update_of_ne hj] at hyj
      rw [update_of_ne hk] at hyk
      exact h.disjoint j k y hyj hyk
  · intro j k
    by_cases hk : k = i
    · subst hk
      rw [update_self]
      exact hs j
    · rw [update_of_ne hk]
      exact h.sentinel j k

variable [DecidableEq ι] [DecidableEq α]

variable (next' prev') in
/-- A new element goes in front of the sentinel, behind all others. -/
theorem push (h : Rings q next prev L) (hxq : ∀ j, x ≠ q j) (hfresh : ∀ j, x ∉ L j)
    (hn : ∀ y, next' y = if y = x then q i else if y = prev (q i) then x else next y)
    (hp : ∀ y, prev' y = if y = q i then x else if y = x then prev (q i) else prev y) :
    Rings q next' prev' (Function.update L i (L i ++ [x])) := by
  have hown := h.prev_own (i := i) (.inl rfl)
  apply h.update
  · have hd := (h.dll i).pushBack (hxq i) (hfresh i) (fun y _ => hn y) fun y (hy : y ≠ q i) =>
      (show prev' y = _ by rw [hp y, if_neg hy])
    have hhead : next' (q i) = if prev (q i) = q i then x else next (q i) := by
      rw [hn, if_neg (hxq i).symm]
      exact if_congr eq_comm rfl rfl
    have htail : prev' (q i) = x := by rw [hp, if_pos rfl]
    rw [hhead, htail]
    exact hd
  · intro j hj y hy
    have hyx : y ≠ x := by
      rintro rfl
      exact hy.elim (hxq j) (hfresh j)
    rw [hn, if_neg hyx, if_neg (h.ne_own hj hown hy)]
  · intro j hj y hy
    have hyx : y ≠ x := by
      rintro rfl
      exact hy.elim (hxq j) (hfresh j)
    rw [hp, if_neg (h.ne_own hj (.inl rfl) hy), if_neg hyx]
  · intro j hj y hy hyj
    cases List.mem_append.mp hy with
    | inl hy => exact hj (h.disjoint j i y hyj hy)
    | inr hy => exact hfresh j (List.mem_singleton.mp hy ▸ hyj)
  · intro j hj
    cases List.mem_append.mp hj with
    | inl hj => exact h.sentinel j i hj
    | inr hj => exact hxq j (List.mem_singleton.mp hj).symm

variable (next' prev') in
/-- An element is taken out; its own links do not matter any more. -/
theorem remove (h : Rings q next prev L) (hx : x ∈ L i)
    (hn : ∀ y, y ≠ x → next' y = if y = prev x then next x else next y)
    (hp : ∀ y, y ≠ x → prev' y = if y = next x then prev x else prev y) :
    Rings q next' prev' (Function.update L i ((L i).erase x)) := by
  have hqx : ∀ j, q j ≠ x := fun j he => h.sentinel j i (he ▸ hx)
  apply h.update
  · obtain ⟨u, v, hL⟩ := List.append_of_mem hx
    have hd := hL ▸ h.dll i
    have hxu : x ∉ u := fun hu => (List.nodup_append.mp hd.nodup).2.2 x hu x (by simp) rfl
    have herase : (L i).erase x = u ++ v := by
      rw [hL, List.erase_append_right _ hxu, List.erase_cons_head]
    have hd' := hd.remove (fun z _ => hn z) fun z _ => hp z
    have hhead : next' (q i) = if prev x = q i then next x else next (q i) := by
      rw [hn _ (hqx i)]
      exact if_congr eq_comm rfl rfl
    have htail : prev' (q i) = if next x = q i then prev x else prev (q i) := by
      rw [hp _ (hqx i)]
      exact if_congr eq_comm rfl rfl
    rw [herase, hhead, htail]
    exact hd'
  · intro j hj y hy
    rw [hn y (h.ne_own hj (.inr hx) hy), if_neg (h.ne_own hj (h.prev_own (.inr hx)) hy)]
  · intro j hj y hy
    rw [hp y (h.ne_own hj (.inr hx) hy), if_neg (h.ne_own hj (h.next_own (.inr hx)) hy)]
  · intro j hj y hy hyj
    exact hj (h.disjoint j i y hyj (List.mem_of_mem_erase hy))
  · intro j hj
    exact h.sentinel j i (List.mem_of_mem_erase hj)

end Rings

end SdkPort.Linked
