import SdkPort.OS.Cells
import SdkPort.Lib.Linked
import SdkPort.Lib.Blocks

/-!
# Lists of cells

The list operations of `OSAlloc.c` over typed cells, and what they do to a list of
blocks: removal, insertion in front, insertion in order with merging.
-/
namespace SdkPort.OSAlloc

open Linked (Seg firstOf lastOf seg_append seg_cons seg_congr seg_splice lastOf_mem_cons)
open Blocks (Block join insertBlock insertBlock_of_le)

/-- The addresses of a list of blocks. -/
def addrs (l : List Block) : List Nat := l.map (·.addr)

@[simp] theorem addrs_nil : addrs [] = [] := rfl
@[simp] theorem addrs_cons (b : Block) (l : List Block) : addrs (b :: l) = b.addr :: addrs l := rfl
@[simp] theorem addrs_append (u v : List Block) : addrs (u ++ v) = addrs u ++ addrs v := by simp [addrs]

theorem mem_addrs {l : List Block} {b : Block} (h : b ∈ l) : b.addr ∈ addrs l :=
  List.mem_map_of_mem h

theorem exists_of_mem_addrs {l : List Block} {x : Nat} (h : x ∈ addrs l) : ∃ b ∈ l, b.addr = x :=
  List.mem_map.mp h

theorem mem_addrs_insertBlock {l : List Block} {b : Block} {x : Nat} (h : x ∈ addrs (insertBlock b l)) :
    x ∈ addrs (b :: l) := by
  obtain ⟨c, hc, rfl⟩ := exists_of_mem_addrs h
  rcases Blocks.mem_insertBlock hc with he | ⟨n, hn, he⟩
  · simp [he]
  · rw [he]
    exact List.mem_cons_of_mem _ (mem_addrs hn)

/-- The cells of a list of blocks are linked between `p` and `e`, with the sizes of the blocks. -/
structure Strand (C : Cells) (p : Nat) (l : List Block) (e : Nat) : Prop where
  seg : Seg C.next C.prev p (addrs l) e
  size : ∀ b ∈ l, C.size b.addr = b.size

variable {C C' : Cells} {p e x : Nat} {l u v w w' : List Block} {a b n : Block}

theorem Strand.nil (C : Cells) (p e : Nat) : Strand C p [] e := ⟨trivial, by simp⟩

theorem strand_append : Strand C p (u ++ v) e ↔
    Strand C p u (firstOf e (addrs v)) ∧ Strand C (lastOf p (addrs u)) v e := by
  constructor
  · rintro ⟨hs, hz⟩
    rw [addrs_append, seg_append] at hs
    exact ⟨⟨hs.1, fun b hb => hz b (by simp [hb])⟩, ⟨hs.2, fun b hb => hz b (by simp [hb])⟩⟩
  · rintro ⟨⟨h₁, z₁⟩, ⟨h₂, z₂⟩⟩
    refine ⟨?_, ?_⟩
    · rw [addrs_append, seg_append]
      exact ⟨h₁, h₂⟩
    · intro b hb
      rcases List.mem_append.mp hb with hb | hb
      · exact z₁ b hb
      · exact z₂ b hb

theorem strand_cons : Strand C p (b :: l) e ↔ C.prev b.addr = p ∧ C.next b.addr = firstOf e (addrs l) ∧
    C.size b.addr = b.size ∧ Strand C b.addr l e := by
  constructor
  · rintro ⟨⟨h₁, h₂, h₃⟩, hz⟩
    exact ⟨h₁, h₂, hz b (by simp), h₃, fun c hc => hz c (by simp [hc])⟩
  · rintro ⟨h₁, h₂, hb, h₃, hz⟩
    refine ⟨⟨h₁, h₂, h₃⟩, ?_⟩
    intro c hc
    rcases List.mem_cons.mp hc with rfl | hc
    · exact hb
    · exact hz c hc

/-- Only the fields of the cells themselves matter. -/
theorem Strand.congr (h : Strand C p l e) (hp : ∀ x ∈ addrs l, C'.prev x = C.prev x)
    (hn : ∀ x ∈ addrs l, C'.next x = C.next x) (hs : ∀ x ∈ addrs l, C'.size x = C.size x) :
    Strand C' p l e :=
  ⟨seg_congr h.seg hn hp, fun b hb => (hs _ (mem_addrs hb)).trans (h.size b hb)⟩

/-- Replacing a part of a list. -/
theorem Strand.splice (h : Strand C p (u ++ w ++ v) e) (hd : (addrs (u ++ v)).Nodup)
    (hpv : p ∉ addrs v) (heu : e ∉ addrs u)
    (hw : Strand C' (lastOf p (addrs u)) w' (firstOf e (addrs v)))
    (hn : ∀ x ∈ addrs (u ++ v), C'.next x =
      if x = lastOf p (addrs u) then firstOf (firstOf e (addrs v)) (addrs w') else C.next x)
    (hp : ∀ x ∈ addrs (u ++ v), C'.prev x =
      if x = firstOf e (addrs v) then lastOf (lastOf p (addrs u)) (addrs w') else C.prev x)
    (hs : ∀ x ∈ addrs (u ++ v), C'.size x = C.size x) : Strand C' p (u ++ w' ++ v) e := by
  have hseg := h.seg
  simp only [addrs_append] at hseg hd hn hp hs
  refine ⟨?_, ?_⟩
  · simp only [addrs_append]
    exact seg_splice hseg hd hpv heu hw.seg hn hp
  · intro b hb
    simp only [List.mem_append] at hb
    rcases hb with (hb | hb) | hb
    · rw [hs _ (List.mem_append_left _ (mem_addrs hb)), h.size b (by simp [hb])]
    · exact hw.size b hb
    · rw [hs _ (List.mem_append_right _ (mem_addrs hb)), h.size b (by simp [hb])]

namespace Cells

/-- `port_DLAddFront` over cells. -/
def addFront (C : Cells) (list cell : Nat) : Cells :=
  let C := (C.setNext cell list).setPrev cell 0
  if list ≠ 0 then C.setPrev list cell else C

/-- Linking the neighbours of a cell to each other. -/
def unlink (C : Cells) (cell : Nat) : Cells :=
  let D := if C.next cell ≠ 0 then C.setPrev (C.next cell) (C.prev cell) else C
  if C.prev cell = 0 then D else D.setNext (C.prev cell) (C.next cell)

theorem unlink_next (C : Cells) (c : Nat) : (C.unlink c).next =
    if C.prev c = 0 then C.next else Function.update C.next (C.prev c) (C.next c) := by
  unfold unlink
  split <;> split <;> rfl

theorem unlink_prev (C : Cells) (c : Nat) : (C.unlink c).prev =
    if C.next c = 0 then C.prev else Function.update C.prev (C.next c) (C.prev c) := by
  unfold unlink
  by_cases h : C.next c = 0
  · simp only [h, ne_eq, not_true_eq_false, if_false, if_true]
    split <;> rfl
  · simp only [h, ne_eq, not_false_eq_true, if_false, if_true]
    split <;> rfl

theorem unlink_size (C : Cells) (c : Nat) : (C.unlink c).size = C.size := by
  unfold unlink
  split <;> split <;> rfl

theorem unlink_desc (C : Cells) (c : Nat) : (C.unlink c).desc = C.desc := by
  unfold unlink
  split <;> split <;> rfl

/-- `coalesce` over cells. -/
def coalesce (C : Cells) (cell next : Nat) : Cells :=
  if cell + C.size cell = next then
    let D := (C.setSize cell (C.size cell + C.size next)).setNext cell (C.next next)
    if C.next next ≠ 0 then D.setPrev (C.next next) cell else D
  else C

theorem coalesce_next (C : Cells) (c n : Nat) : (C.coalesce c n).next =
    if c + C.size c = n then Function.update C.next c (C.next n) else C.next := by
  unfold coalesce
  split
  · split <;> rfl
  · rfl

theorem coalesce_prev (C : Cells) (c n : Nat) : (C.coalesce c n).prev =
    if c + C.size c = n then if C.next n = 0 then C.prev else Function.update C.prev (C.next n) c
    else C.prev := by
  unfold coalesce
  split
  · by_cases h : C.next n = 0
    · simp only [h, ne_eq, not_true_eq_false, if_false, if_true]
      rfl
    · simp only [h, ne_eq, not_false_eq_true, if_false, if_true]
      rfl
  · rfl

theorem coalesce_size (C : Cells) (c n : Nat) : (C.coalesce c n).size =
    if c + C.size c = n then Function.update C.size c (C.size c + C.size n) else C.size := by
  unfold coalesce
  split
  · split <;> rfl
  · rfl

/-- An inserted cell and its successor. -/
def joinNext (C : Cells) (cell next : Nat) : Cells :=
  if next ≠ 0 then (C.setPrev next cell).coalesce cell next else C

/-- An inserted cell and its predecessor. -/
def joinPrev (C : Cells) (prev cell : Nat) : Cells :=
  if prev ≠ 0 then (C.setNext prev cell).coalesce prev cell else C

/-- A cell between its neighbours, before they know of it. -/
def between (C : Cells) (cell prev next : Nat) : Cells := (C.setNext cell next).setPrev cell prev

/-- `port_DLInsert` over cells, once the neighbours are found. -/
def insert (C : Cells) (cell prev next : Nat) : Cells :=
  ((C.between cell prev next).joinNext cell next).joinPrev prev cell

/-- The rest of a split cell in the place of the cell. -/
def splitCell (C : Cells) (cell newCell req leftover : Nat) : Cells :=
  let D := ((((C.setSize cell req).setSize newCell leftover).setPrev newCell (C.prev cell)).setNext
    newCell (C.next cell)).setHd newCell 0
  let D := if C.next cell ≠ 0 then D.setPrev (C.next cell) newCell else D
  if C.prev cell ≠ 0 then D.setNext (C.prev cell) newCell else D

theorem splitCell_desc (C : Cells) (c n r k : Nat) : (C.splitCell c n r k).desc = C.desc := by
  unfold splitCell
  split <;> split <;> rfl

theorem addFront_desc (C : Cells) (l c : Nat) : (C.addFront l c).desc = C.desc := by
  unfold addFront
  split <;> rfl

end Cells

theorem Strand.addFront (h : Strand C 0 l 0) (h0 : 0 ∉ addrs (b :: l))
    (hd : (addrs (b :: l)).Nodup) (hs : C.size b.addr = b.size) :
    Strand (C.addFront (firstOf 0 (addrs l)) b.addr) 0 (b :: l) 0 := by
  simp only [addrs_cons, List.mem_cons, not_or] at h0
  rw [addrs_cons, List.nodup_cons] at hd
  obtain ⟨hb, hd⟩ := hd
  have hx : ∀ x ∈ addrs l, x ≠ b.addr ∧ x ≠ 0 := fun x hx =>
    ⟨fun he => hb (he ▸ hx), fun he => h0.2 (he ▸ hx)⟩
  have hfirst : firstOf 0 (addrs l) ≠ b.addr := by
    cases hl : addrs l with
    | nil => exact h0.1
    | cons y k => exact (hx y (by simp [hl])).1
  have hs₀ : Strand C 0 ([] ++ [] ++ l) 0 := h
  have hone : Strand (C.addFront (firstOf 0 (addrs l)) b.addr) (lastOf 0 (addrs [])) [b]
      (firstOf 0 (addrs l)) := by
    refine strand_cons.mpr ⟨?_, ?_, ?_, Strand.nil _ _ _⟩
    · unfold Cells.addFront
      split <;> simp [hfirst.symm]
    · unfold Cells.addFront
      split <;> simp
    · unfold Cells.addFront
      split <;> simpa using hs
  refine hs₀.splice hd h0.2 (by simp) hone ?_ ?_ ?_
  · intro x hm
    obtain ⟨h₁, h₂⟩ := hx x hm
    unfold Cells.addFront
    split <;> simp [h₁, h₂]
  · intro x hm
    obtain ⟨h₁, h₂⟩ := hx x hm
    unfold Cells.addFront
    split
    · simp [Function.update_apply, h₁]
    · rename_i hz
      have hxf : x ≠ firstOf 0 (addrs l) := fun he => h₂ (he.trans (not_not.mp hz))
      simp [h₁, hxf]
  · intro x hm
    unfold Cells.addFront
    split <;> simp

/-- The links of a cell in a list. -/
theorem Strand.links (h : Strand C p (u ++ b :: v) e) :
    C.prev b.addr = lastOf p (addrs u) ∧ C.next b.addr = firstOf e (addrs v) ∧
      C.size b.addr = b.size := by
  obtain ⟨h₁, h₂, h₃, _⟩ := strand_cons.mp (strand_append.mp h).2
  exact ⟨h₁, h₂, h₃⟩

theorem Strand.unlink (h : Strand C 0 (u ++ b :: v) 0) (h0 : 0 ∉ addrs (u ++ b :: v))
    (hd : (addrs (u ++ b :: v)).Nodup) : Strand (C.unlink b.addr) 0 (u ++ v) 0 := by
  obtain ⟨hp, hn, _⟩ := h.links
  simp only [addrs_append, addrs_cons, List.mem_append, List.mem_cons, not_or] at h0
  have hd' : (addrs (u ++ v)).Nodup := by
    rw [addrs_append, addrs_cons, List.nodup_middle, List.nodup_cons] at hd
    rw [addrs_append]
    exact hd.2
  have hx0 : ∀ x ∈ addrs (u ++ v), x ≠ 0 := by
    intro x hx he
    subst he
    rw [addrs_append, List.mem_append] at hx
    tauto
  have hs : Strand C 0 (u ++ [b] ++ v) 0 := by simpa using h
  have hgoal : Strand (C.unlink b.addr) 0 (u ++ [] ++ v) 0 := by
    refine hs.splice hd' h0.2.2 h0.1 (Strand.nil _ _ _) ?_ ?_ fun _ _ => by rw [Cells.unlink_size]
    · intro x hx
      have := hx0 x hx
      rw [Cells.unlink_next, hp, hn]
      split
      · rename_i hz
        rw [if_neg (by rwa [hz])]
      · rw [Function.update_apply]
        rfl
    · intro x hx
      have := hx0 x hx
      rw [Cells.unlink_prev, hp, hn]
      split
      · rename_i hz
        rw [if_neg (by rwa [hz])]
      · rw [Function.update_apply]
        rfl
  simpa using hgoal

/-- Merging a cell with its successor in the list, if they touch. -/
theorem Strand.coalesce (h : Strand C p (b :: n :: l) 0) (h0 : 0 ∉ addrs l) (hp : p ∉ addrs l)
    (hd : (addrs (b :: n :: l)).Nodup) :
    Strand (C.coalesce b.addr n.addr) p (join b (n :: l)) 0 := by
  obtain ⟨hbp, hbn, hbs, h₁⟩ := strand_cons.mp h
  obtain ⟨hnp, hnn, hns, h₂⟩ := strand_cons.mp h₁
  simp only [addrs_cons, List.nodup_cons, List.mem_cons, not_or] at hd
  rw [join]
  by_cases ht : b.stop = n.addr
  · rw [if_pos ht]
    have ht' : b.addr + C.size b.addr = n.addr := by rwa [hbs]
    have hs : Strand C p ([] ++ [b, n] ++ l) 0 := h
    have hx : ∀ x ∈ addrs l, x ≠ b.addr ∧ x ≠ 0 := fun x hx =>
      ⟨fun he => hd.1.2 (he ▸ hx), fun he => h0 (he ▸ hx)⟩
    have hgoal : Strand (C.coalesce b.addr n.addr) p ([] ++ [⟨b.addr, b.size + n.size⟩] ++ l) 0 := by
      refine hs.splice hd.2.2 hp (by simp) ?_ ?_ ?_ ?_
      · refine strand_cons.mpr ⟨?_, ?_, ?_, Strand.nil _ _ _⟩
        · rw [Cells.coalesce_prev, if_pos ht', hnn]
          split
          · exact hbp
          · rename_i hz
            rw [Function.update_of_ne, hbp]
            · rfl
            · intro he
              cases l with
              | nil => exact hz rfl
              | cons c l => exact (hx c.addr (by simp)).1 he.symm
        · rw [Cells.coalesce_next, if_pos ht', hnn, Function.update_self]
          rfl
        · rw [Cells.coalesce_size, if_pos ht', Function.update_self, hbs, hns]
      · intro x hxl
        have hxp : x ≠ lastOf p (addrs []) := fun he => hp ((show x = p from he) ▸ hxl)
        rw [Cells.coalesce_next, if_pos ht', Function.update_of_ne (hx x hxl).1, if_neg hxp]
      · intro x hxl
        rw [Cells.coalesce_prev, if_pos ht', hnn]
        split
        · rename_i hz
          rw [if_neg (fun he => (hx x hxl).2 (he.trans hz))]
        · rw [Function.update_apply]
          rfl
      · intro x hxl
        rw [Cells.coalesce_size, if_pos ht', Function.update_of_ne (hx x hxl).1]
    simpa using hgoal
  · have ht' : ¬ b.addr + C.size b.addr = n.addr := by rwa [hbs]
    rw [if_neg ht, Cells.coalesce, if_neg ht']
    exact h

/-- A list without the merged cell, its successor and the one behind it is not touched. -/
theorem Strand.coalesce_apart (h : Strand C p u e) {c k : Nat} (hc : c ∉ addrs u)
    (hk : C.next k ∉ addrs u) : Strand (C.coalesce c k) p u e := by
  have hx : ∀ x ∈ addrs u, x ≠ c ∧ x ≠ C.next k := fun x hx =>
    ⟨fun he => hc (he ▸ hx), fun he => hk (he ▸ hx)⟩
  refine h.congr ?_ ?_ ?_
  · intro x hxu
    obtain ⟨h₁, h₂⟩ := hx x hxu
    rw [Cells.coalesce_prev]
    split
    · split
      · rfl
      · rw [Function.update_of_ne h₂]
    · rfl
  · intro x hxu
    rw [Cells.coalesce_next]
    split
    · rw [Function.update_of_ne (hx x hxu).1]
    · rfl
  · intro x hxu
    rw [Cells.coalesce_size]
    split
    · rw [Function.update_of_ne (hx x hxu).1]
    · rfl

theorem Strand.setPrev (h : Strand C p l e) {c : Nat} (hc : c ∉ addrs l) (q : Nat) :
    Strand (C.setPrev c q) p l e := by
  have hx : ∀ x ∈ addrs l, x ≠ c := fun x hx he => hc (he ▸ hx)
  refine h.congr ?_ (fun _ _ => rfl) fun _ _ => rfl
  intro x hxl
  simp [hx x hxl]

theorem Strand.setNext (h : Strand C p l e) {c : Nat} (hc : c ∉ addrs l) (q : Nat) :
    Strand (C.setNext c q) p l e := by
  have hx : ∀ x ∈ addrs l, x ≠ c := fun x hx he => hc (he ▸ hx)
  refine h.congr (fun _ _ => rfl) ?_ fun _ _ => rfl
  intro x hxl
  simp [hx x hxl]

theorem Strand.setSize (h : Strand C p l e) {c : Nat} (hc : c ∉ addrs l) (q : Nat) :
    Strand (C.setSize c q) p l e := by
  have hx : ∀ x ∈ addrs l, x ≠ c := fun x hx he => hc (he ▸ hx)
  refine h.congr (fun _ _ => rfl) (fun _ _ => rfl) ?_
  intro x hxl
  simp [hx x hxl]

theorem firstOf_join (b : Block) (v : List Block) (e : Nat) : firstOf e (addrs (join b v)) = b.addr := by
  obtain ⟨s, k, hk, _⟩ := Blocks.join_eq_cons b v
  rw [hk]
  rfl

/-- The inserted cell and its successor: the second part of the list with the cell in front. -/
theorem Strand.joinNext (hu : Strand C 0 u e) (hv : Strand C p v 0) (hb : C.prev b.addr = p)
    (hbn : C.next b.addr = firstOf 0 (addrs v)) (hs : C.size b.addr = b.size)
    (hd : (addrs (u ++ b :: v)).Nodup) (h0 : 0 ∉ addrs (u ++ b :: v)) (hp : p ∉ addrs v) :
    Strand (C.joinNext b.addr (firstOf 0 (addrs v))) 0 u e ∧
      Strand (C.joinNext b.addr (firstOf 0 (addrs v))) p (join b v) 0 := by
  simp only [addrs_append, addrs_cons, List.mem_append, List.mem_cons, not_or] at h0
  rw [addrs_append, addrs_cons] at hd
  obtain ⟨_, hdv, huv⟩ := List.nodup_append.mp hd
  have hub : b.addr ∉ addrs u := fun hm => huv _ hm _ (by simp) rfl
  cases v with
  | nil =>
    rw [Cells.joinNext, if_neg (by simp)]
    exact ⟨hu, strand_cons.mpr ⟨hb, hbn, hs, Strand.nil _ _ _⟩⟩
  | cons n v =>
    simp only [addrs_cons, List.mem_cons, not_or] at h0 hp
    have hun : ∀ x ∈ addrs (n :: v), x ∉ addrs u := fun x hx hm =>
      huv _ hm _ (List.mem_cons_of_mem _ hx) rfl
    have hbn' : n.addr ≠ b.addr := by
      rintro he
      exact (List.nodup_cons.mp hdv).1 (by simp [he])
    rw [addrs_cons, Linked.firstOf_cons, Cells.joinNext, if_pos (Ne.symm h0.2.2.1)]
    obtain ⟨_, hnn, hns, hv'⟩ := strand_cons.mp hv
    have hnv : n.addr ∉ addrs v := (List.nodup_cons.mp (List.nodup_cons.mp hdv).2).1
    have hall : Strand (C.setPrev n.addr b.addr) p (b :: n :: v) 0 := by
      refine strand_cons.mpr ⟨?_, hbn, hs, strand_cons.mpr ⟨?_, hnn, hns, hv'.setPrev hnv _⟩⟩
      · simp [Ne.symm hbn', hb]
      · simp
    constructor
    · apply (hu.setPrev (hun n.addr (by simp)) b.addr).coalesce_apart hub
      show C.next n.addr ∉ addrs u
      rw [hnn]
      cases v with
      | nil => exact h0.1
      | cons k v => exact hun k.addr (by simp)
    · exact hall.coalesce h0.2.2.2 hp.2 hdv

/-- The predecessor and the inserted cell: all of the list. -/
theorem Strand.joinPrev (hu : Strand C 0 (u ++ [a]) e) (hl : Strand C a.addr (b :: l) 0)
    (hd : (addrs (u ++ a :: b :: l)).Nodup) (h0 : 0 ∉ addrs (u ++ a :: b :: l)) :
    Strand (C.joinPrev a.addr b.addr) 0 (u ++ join a (b :: l)) 0 := by
  simp only [addrs_append, addrs_cons, List.mem_append, List.mem_cons, not_or] at h0
  rw [addrs_append, addrs_cons] at hd
  obtain ⟨_, hdl, hul⟩ := List.nodup_append.mp hd
  have hau : a.addr ∉ addrs u := fun hm => hul _ hm _ (by simp) rfl
  have hal : a.addr ∉ addrs (b :: l) := (List.nodup_cons.mp hdl).1
  obtain ⟨hu', ha⟩ := strand_append.mp hu
  obtain ⟨hap, _, has, _⟩ := strand_cons.mp ha
  have hbn : C.next b.addr = firstOf 0 (addrs l) := (strand_cons.mp hl).2.1
  rw [Cells.joinPrev, if_pos (Ne.symm h0.2.1)]
  have hall : Strand (C.setNext a.addr b.addr) (lastOf 0 (addrs u)) (a :: b :: l) 0 := by
    refine strand_cons.mpr ⟨hap, ?_, has, hl.setNext hal _⟩
    simp
  refine strand_append.mpr ⟨?_, ?_⟩
  · rw [firstOf_join]
    apply (hu'.setNext hau _).coalesce_apart hau
    have hba : b.addr ≠ a.addr := fun he => hal (by simp [he])
    rw [Cells.setNext_next, Function.update_of_ne hba, hbn]
    cases l with
    | nil => exact h0.1
    | cons k l => exact fun hm => hul _ hm k.addr (by simp) rfl
  · refine hall.coalesce h0.2.2.2 ?_ hdl
    intro hm
    have hne : lastOf 0 (addrs u) ≠ 0 := fun he => h0.2.2.2 (he ▸ hm)
    exact hul _ (Linked.lastOf_mem_of_ne hne) _ (by simp [hm]) rfl

theorem Strand.between (h : Strand C p l e) {c : Nat} (hc : c ∉ addrs l) (q r : Nat) :
    Strand (C.between c q r) p l e := (h.setNext hc r).setPrev hc q

/-- The list in two parts once the inserted cell and its successor are joined. -/
theorem Strand.insertNext (h : Strand C 0 (u ++ v) 0) (hs : C.size b.addr = b.size)
    (hd : (addrs (u ++ b :: v)).Nodup) (h0 : 0 ∉ addrs (u ++ b :: v)) {D : Cells}
    (hD : D = C.between b.addr (lastOf 0 (addrs u)) (firstOf 0 (addrs v))) :
    Strand (D.joinNext b.addr (firstOf 0 (addrs v))) 0 u (firstOf 0 (addrs v)) ∧
      Strand (D.joinNext b.addr (firstOf 0 (addrs v))) (lastOf 0 (addrs u)) (join b v) 0 := by
  have h0' := h0
  simp only [addrs_append, addrs_cons, List.mem_append, List.mem_cons, not_or] at h0'
  have hd' := hd
  rw [addrs_append, addrs_cons] at hd'
  obtain ⟨_, hdv, huv⟩ := List.nodup_append.mp hd'
  have hbu : b.addr ∉ addrs u := fun hm => huv _ hm _ (by simp) rfl
  have hbv : b.addr ∉ addrs v := (List.nodup_cons.mp hdv).1
  have hpv : lastOf 0 (addrs u) ∉ addrs v := by
    intro hm
    have hne : lastOf 0 (addrs u) ≠ 0 := fun he => h0'.2.2 (he ▸ hm)
    exact huv _ (Linked.lastOf_mem_of_ne hne) _ (List.mem_cons_of_mem _ hm) rfl
  obtain ⟨h₁, h₂⟩ := strand_append.mp h
  subst hD
  refine (h₁.between hbu _ _).joinNext (h₂.between hbv _ _) ?_ ?_ hs hd h0 hpv
  · simp [Cells.between]
  · simp [Cells.between]

/-- Insertion between neighbours is insertion in order with merging. -/
theorem Strand.insert (h : Strand C 0 (u ++ v) 0) (hc : Blocks.Canon (u ++ v))
    (hs : C.size b.addr = b.size) (hd : (addrs (u ++ b :: v)).Nodup) (h0 : 0 ∉ addrs (u ++ b :: v))
    (hu : ∀ c ∈ u, c.addr < b.addr) (hv : ∀ c ∈ v, b.addr ≤ c.addr) :
    Strand (C.insert b.addr (lastOf 0 (addrs u)) (firstOf 0 (addrs v))) 0 (insertBlock b (u ++ v)) 0 := by
  obtain ⟨h₃, h₄⟩ := h.insertNext hs hd h0 rfl
  rw [Cells.insert]
  rcases List.eq_nil_or_concat u with rfl | ⟨w, a, rfl⟩
  · rw [List.nil_append, insertBlock_of_le hv, Cells.joinPrev, if_neg (by simp)]
    exact h₄
  · rw [List.concat_eq_append] at *
    rw [List.append_assoc, List.singleton_append] at hc hd h0 ⊢
    rw [Blocks.insertBlock_append hc (hu a (by simp)) hv]
    obtain ⟨s, k, hk, hkv⟩ := Blocks.join_eq_cons b v
    have hsub : (addrs (w ++ a :: ⟨b.addr, s⟩ :: k)).Sublist (addrs (w ++ a :: b :: v)) := by
      simpa [addrs] using hkv.map _
    rw [hk] at h₄ ⊢
    rw [addrs_append, Linked.lastOf_append] at h₃ h₄ ⊢
    exact Strand.joinPrev (b := ⟨b.addr, s⟩) h₃ h₄ (hd.sublist hsub) fun hm => h0 (hsub.subset hm)

/-- Splitting a cell puts the rest in its place on the list. -/
theorem Strand.splitCell (h : Strand C 0 (u ++ b :: v) 0) (h0 : 0 ∉ addrs (u ++ b :: v))
    (hd : (addrs (u ++ b :: v)).Nodup) (hn : n.addr ∉ addrs (u ++ b :: v)) (hn0 : n.addr ≠ 0) (r : Nat) :
    Strand (C.splitCell b.addr n.addr r n.size) 0 (u ++ n :: v) 0 ∧
      (C.splitCell b.addr n.addr r n.size).size b.addr = r := by
  obtain ⟨hp, hnx, _⟩ := h.links
  simp only [addrs_append, addrs_cons, List.mem_append, List.mem_cons, not_or] at h0 hn
  obtain ⟨hnu, hnb, hnv⟩ := hn
  have hd' : (addrs (u ++ v)).Nodup ∧ b.addr ∉ addrs (u ++ v) := by
    rw [addrs_append, addrs_cons, List.nodup_middle, List.nodup_cons] at hd
    rw [addrs_append]
    exact hd.symm
  have hx : ∀ x ∈ addrs (u ++ v), x ≠ b.addr ∧ x ≠ n.addr ∧ x ≠ 0 := by
    intro x hxl
    refine ⟨fun he => hd'.2 (he ▸ hxl), ?_, ?_⟩
    all_goals
      rw [addrs_append, List.mem_append] at hxl
      rintro rfl
      tauto
  have hnf : n.addr ≠ firstOf 0 (addrs v) := by
    cases v with
    | nil => exact hn0
    | cons k v => exact fun he => hnv (by simp [he])
  have hnl : n.addr ≠ lastOf 0 (addrs u) := by
    cases hu : addrs u with
    | nil => exact hn0
    | cons y k => exact fun he => hnu (by rw [he, hu]; exact lastOf_mem_cons y k)
  unfold Cells.splitCell
  rw [hp, hnx]
  constructor
  · have hs : Strand C 0 (u ++ [b] ++ v) 0 := by simpa using h
    rw [← List.singleton_append, ← List.append_assoc]
    refine hs.splice hd'.1 h0.2.2 h0.1 (strand_cons.mpr ⟨?_, ?_, ?_, Strand.nil _ _ _⟩) ?_ ?_ ?_
    · split <;> split <;> simp [hnf]
    · split <;> split <;> simp [hnl]
    · split <;> split <;> simp
    · intro x hxl
      obtain ⟨h₁, h₂, h₃⟩ := hx x hxl
      split <;> split <;> simp_all [Function.update_apply]
    · intro x hxl
      obtain ⟨h₁, h₂, h₃⟩ := hx x hxl
      split <;> split <;> simp_all [Function.update_apply]
    · intro x hxl
      obtain ⟨h₁, h₂, h₃⟩ := hx x hxl
      split <;> split <;> simp_all
  · split <;> split <;> simp [Ne.symm hnb]

end SdkPort.OSAlloc
