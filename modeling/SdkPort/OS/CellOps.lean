import SdkPort.OS.CellLists
import Mathlib.Data.List.TakeWhile

/-!
# Programs on cells

The list operations of `OSAlloc.c` in memory do what the same operations do over cells.
-/
namespace SdkPort.OSAlloc

open Gc (u32)
open Linked (firstOf lastOf)
open Runs (Gives gives_bind gives_pure)
open Blocks (Block insertBlock join)

variable {L : Layout} {A I : Set Nat} {s s₀ : Mach} {C : Cells} {c i k p : Nat} {l : List Block}

namespace Holds

theorem prev_lt (h : Holds L A I s₀ s C) (hc : L.Cell c) : C.prev c < 2 ^ 32 := by
  rw [← (h.shows.cell c hc).1]
  exact s.mem.load_lt _

theorem next_lt (h : Holds L A I s₀ s C) (hc : L.Cell c) : C.next c < 2 ^ 32 := by
  rw [← (h.shows.cell c hc).2.1]
  exact s.mem.load_lt _

/-- An address that is null or that of a cell fits in a word. -/
theorem link_lt (h : Holds L A I s₀ s C) (hk : k ≠ 0 → k ∈ A) : k < 2 ^ 32 := by
  by_cases h0 : k = 0
  · omega
  · have := h.cell_lt (h.cells k (hk h0))
    omega

theorem addFront (h : Holds L A I s₀ s C) (hc : c ∈ A) (hk : k ≠ 0 → k ∈ A) :
    Gives (Holds L A I s₀) (portDLAddFront k c s) c (C.addFront k c) := by
  have hlt := h.cell_lt (h.cells c hc)
  unfold portDLAddFront Cells.addFront
  refine gives_bind (h.setNext hc (h.link_lt hk)) fun s₁ h₁ => ?_
  refine gives_bind (h₁.setPrev hc (by omega)) fun s₂ h₂ => ?_
  split
  · rename_i hk0
    exact gives_bind (h₂.setPrev (hk hk0) (by omega)) fun s₃ h₃ => gives_pure c h₃
  · exact gives_pure c h₂

theorem extract (h : Holds L A I s₀ s C) (hc : c ∈ A) (hn : C.next c ≠ 0 → C.next c ∈ A)
    (hp : C.prev c ≠ 0 → C.prev c ∈ A) :
    Gives (Holds L A I s₀) (portDLExtract k c s) (if C.prev c = 0 then C.next c else k)
      (C.unlink c) := by
  have hcell := h.cells c hc
  unfold portDLExtract Cells.unlink
  refine gives_bind (h.getNext hcell) fun s₁ h₁ => gives_bind (h₁.getPrev hcell) fun s₂ h₂ => ?_
  have hrest : ∀ {s' : Mach} {D : Cells}, Holds L A I s₀ s' D →
      Gives (Holds L A I s₀) ((if C.prev c = 0 then pure (C.next c) else do
          storeU32be (u32 (C.prev c + 4)) (C.next c)
          pure k : M Nat) s') (if C.prev c = 0 then C.next c else k)
        (if C.prev c = 0 then D else D.setNext (C.prev c) (C.next c)) := by
    intro s' D h'
    split
    · exact gives_pure _ h'
    · rename_i hp0
      exact gives_bind (h'.setNext (hp hp0) (h'.link_lt hn)) fun s₃ h₃ => gives_pure k h₃
  split
  · rename_i hn0
    exact gives_bind (h₂.setPrev (hn hn0) (h.prev_lt hcell)) fun s₃ h₃ => hrest h₃
  · exact hrest h₂

/-- Merging two cells, none of which reaches past the arena. -/
theorem coalesce (h : Holds L A I s₀ s C) (hc : c ∈ A) (hk : k ∈ A) (hn : C.next k ≠ 0 → C.next k ∈ A)
    (hcs : c + C.size c ≤ L.stop) (hks : k + C.size k ≤ L.stop) :
    Gives (Holds L A I s₀) (OSAlloc.coalesce c k s) () (C.coalesce c k) := by
  have hstop := h.shows.fits.stop_le
  have hhi := h.shows.fits.hi_lt
  have hlt := h.cell_lt (h.cells c hc)
  unfold OSAlloc.coalesce Cells.coalesce
  refine gives_bind (h.getSize (h.cells c hc)) fun s₁ h₁ => ?_
  rw [u32, Nat.mod_eq_of_lt (by omega)]
  split
  · rename_i htouch
    refine gives_bind (h₁.getSize (h₁.cells k hk)) fun s₂ h₂ => ?_
    rw [u32, u32, Nat.mod_eq_of_lt (show C.size c + C.size k < 2 ^ 32 by omega)]
    refine gives_bind (h₂.setSize hc (by omega)) fun s₃ h₃ => ?_
    refine gives_bind (h₃.getNext (h₃.cells k hk)) fun s₄ h₄ => ?_
    refine gives_bind (h₄.setNext hc (h₄.link_lt hn)) fun s₅ h₅ => ?_
    simp only [Cells.setSize_next] at h₅ ⊢
    split
    · rename_i hn0
      exact h₅.setPrev (hn hn0) (by omega)
    · exact gives_pure () h₅
  · exact gives_pure () h₁

/-- The search stops in front of the first cell that is not below the given one. -/
theorem insertScan (h : Holds L A I s₀ s C) (hl : Strand C p l 0) (hA : ∀ x ∈ addrs l, L.Cell x)
    (h0 : 0 ∉ addrs l) {n : Nat} (hn : l.length < n) :
    Gives (Holds L A I s₀) (OSAlloc.insertScan c n p (firstOf 0 (addrs l)) s)
      (lastOf p (addrs (l.takeWhile (·.addr < c))), firstOf 0 (addrs (l.dropWhile (·.addr < c)))) C := by
  induction l generalizing s p n with
  | nil =>
    obtain ⟨n, rfl⟩ := Nat.exists_eq_succ_of_ne_zero (Nat.ne_of_gt (Nat.zero_lt_of_lt hn))
    rw [OSAlloc.insertScan]
    exact gives_pure _ h
  | cons b l ih =>
    obtain ⟨n, rfl⟩ := Nat.exists_eq_succ_of_ne_zero (Nat.ne_of_gt (Nat.zero_lt_of_lt hn))
    obtain ⟨_, hnext, _, hl'⟩ := strand_cons.mp hl
    simp only [addrs_cons, List.mem_cons, not_or] at h0 hA
    rw [addrs_cons, Linked.firstOf_cons, OSAlloc.insertScan, if_neg (Ne.symm h0.1)]
    by_cases hc : c ≤ b.addr
    · rw [if_pos hc, List.takeWhile_cons_of_neg (by simpa using hc),
        List.dropWhile_cons_of_neg (by simpa using hc)]
      exact gives_pure _ h
    · rw [if_neg hc, List.takeWhile_cons_of_pos (by simpa using hc),
        List.dropWhile_cons_of_pos (by simpa using hc)]
      refine gives_bind (h.getNext (hA b.addr (.inl rfl))) fun s₁ h₁ => ?_
      rw [hnext]
      exact ih h₁ hl' (fun x hx => hA x (.inr hx)) h0.2 (Nat.lt_of_succ_lt_succ hn)

/-- Null is no cell. -/
theorem not_cell_zero (h : Holds L A I s₀ s C) : ¬ L.Cell 0 := by
  intro hc
  have hlow := hc.low
  have := h.shows.fits.nonnull
  omega

theorem cell_ne_zero (h : Holds L A I s₀ s C) (hc : L.Cell c) : c ≠ 0 := by
  rintro rfl
  exact h.not_cell_zero hc

theorem zero_not_mem (h : Holds L A I s₀ s C) (hA : ∀ x ∈ addrs l, x ∈ A) : 0 ∉ addrs l :=
  fun hm => h.not_cell_zero (h.cells 0 (hA 0 hm))

/-- The part of `port_DLInsert` that deals with the successor, and what comes after it. -/
theorem joinNext (h : Holds L A I s₀ s C) {v : List Block} {b : Block} (hv : Strand C p v 0)
    (hb : b.addr ∈ A) (hA : ∀ x ∈ addrs v, x ∈ A) (hs : C.size b.addr = b.size)
    (hstop : ∀ n ∈ b :: v, n.stop ≤ L.stop) {r : M Nat} {q : Nat} {E : Cells}
    (hr : ∀ s', Holds L A I s₀ s' (C.joinNext b.addr (firstOf 0 (addrs v))) →
      Gives (Holds L A I s₀) (r s') q E) :
    Gives (Holds L A I s₀) ((if firstOf 0 (addrs v) ≠ 0 then do
        storeU32be (firstOf 0 (addrs v)) b.addr
        OSAlloc.coalesce b.addr (firstOf 0 (addrs v))
        r
      else r : M Nat) s) q E := by
  have hlt := h.cell_lt (h.cells _ hb)
  cases v with
  | nil =>
    rw [if_neg (by simp)]
    exact hr s (by rwa [Cells.joinNext, if_neg (by simp)])
  | cons n v =>
    have hn0 : n.addr ≠ 0 := fun he => h.zero_not_mem hA (by simp [← he])
    obtain ⟨_, hnn, hns, _⟩ := strand_cons.mp hv
    rw [addrs_cons, Linked.firstOf_cons] at hr ⊢
    rw [if_pos hn0]
    refine gives_bind (h.setPrev (hA n.addr (by simp)) (by omega)) fun s₁ h₁ => ?_
    refine gives_bind (h₁.coalesce hb (hA n.addr (by simp)) ?_ ?_ ?_) fun s₂ h₂ => ?_
    · rw [Cells.setPrev_next, hnn]
      cases v with
      | nil => exact fun h => absurd rfl h
      | cons k v => exact fun _ => hA k.addr (by simp)
    · rw [Cells.setPrev_size, hs]
      exact hstop b (by simp)
    · rw [Cells.setPrev_size, hns]
      exact hstop n (by simp)
    · apply hr s₂
      rwa [Cells.joinNext, if_pos hn0]

/-- The part of `port_DLInsert` that deals with the predecessor. -/
theorem joinPrev (h : Holds L A I s₀ s C) {u k : List Block} {a b : Block} {e q : Nat}
    (hu : Strand C 0 (u ++ [a]) e) (hl : Strand C a.addr (b :: k) 0) (ha : a.addr ∈ A)
    (hA : ∀ x ∈ addrs (b :: k), x ∈ A) (has : a.stop ≤ L.stop) (hbs : b.stop ≤ L.stop)
    (hne : b.addr ≠ a.addr) :
    Gives (Holds L A I s₀) ((do
        storeU32be (u32 (a.addr + 4)) b.addr
        OSAlloc.coalesce a.addr b.addr
        pure q : M Nat) s) q (C.joinPrev a.addr b.addr) := by
  have hb : b.addr ∈ A := hA b.addr (by simp)
  have ha0 : a.addr ≠ 0 := fun he => h.not_cell_zero (he ▸ h.cells _ ha)
  obtain ⟨_, _, hasz, _⟩ := strand_cons.mp (strand_append.mp hu).2
  obtain ⟨_, hbn, hbsz, _⟩ := strand_cons.mp hl
  have hlt := h.cell_lt (h.cells _ hb)
  rw [Cells.joinPrev, if_pos ha0]
  refine gives_bind (h.setNext ha (by omega)) fun s₁ h₁ => ?_
  refine gives_bind (h₁.coalesce ha hb ?_ ?_ ?_) fun s₂ h₂ => gives_pure q h₂
  · rw [Cells.setNext_next, Function.update_of_ne hne, hbn]
    cases k with
    | nil => exact fun h => absurd rfl h
    | cons n k => exact fun _ => hA n.addr (by simp)
  · rw [Cells.setNext_size, hasz]
    exact has
  · rw [Cells.setNext_size, hbsz]
    exact hbs

/-- `port_DLInsert` on an ordered free list is insertion in order with merging. -/
theorem insert (h : Holds L A I s₀ s C) {b : Block} (hl : Strand C 0 l 0) (hc : Blocks.Canon l)
    (hA : ∀ x ∈ addrs (b :: l), x ∈ A) (hs : C.size b.addr = b.size)
    (hstop : ∀ n ∈ b :: l, n.stop ≤ L.stop) (hd : (addrs (b :: l)).Nodup) (hn : l.length < cellFuel) :
    ∃ D, Gives (Holds L A I s₀) (portDLInsert (firstOf 0 (addrs l)) b.addr s)
      (firstOf 0 (addrs (insertBlock b l))) D ∧ Strand D 0 (insertBlock b l) 0 := by
  have hscan := h.insertScan (c := b.addr) hl (fun x hx => h.cells x (hA x (by simp [hx])))
    (h.zero_not_mem fun x hx => hA x (by simp [hx])) hn
  have hu : ∀ c ∈ l.takeWhile (·.addr < b.addr), c.addr < b.addr := fun c hc => by
    simpa using List.mem_takeWhile_imp hc
  have hv : ∀ c ∈ l.dropWhile (·.addr < b.addr), b.addr ≤ c.addr := hc.le_dropWhile b.addr
  have hsplit := (List.takeWhile_append_dropWhile (p := (·.addr < b.addr)) (l := l)).symm
  generalize l.takeWhile (·.addr < b.addr) = u at hscan hu hsplit
  generalize l.dropWhile (·.addr < b.addr) = v at hscan hv hsplit
  subst hsplit
  have hperm : (addrs (b :: (u ++ v))).Perm (addrs (u ++ b :: v)) := List.perm_middle.symm.map _
  have hd' := hperm.nodup_iff.mp hd
  have h0 : 0 ∉ addrs (u ++ b :: v) := fun hm => h.zero_not_mem hA (hperm.mem_iff.mpr hm)
  have hb := hA b.addr (by simp)
  have hbA := h.cells _ hb
  have hAu : ∀ x ∈ addrs u, x ∈ A := fun x hx => hA x (by simp [hx])
  have hAv : ∀ x ∈ addrs v, x ∈ A := fun x hx => hA x (by simp [hx])
  refine ⟨_, ?_, hl.insert hc hs hd' h0 hu hv⟩
  unfold portDLInsert Cells.insert
  refine gives_bind hscan fun s₁ h₁ => ?_
  refine gives_bind (h₁.setNext hb (h.link_lt fun hn0 => hAv _ (Linked.firstOf_mem_of_ne hn0)))
    fun s₂ h₂ => ?_
  refine gives_bind (h₂.setPrev hb (h.link_lt fun hn0 => hAu _ (Linked.lastOf_mem_of_ne hn0)))
    fun s₃ h₃ => ?_
  obtain ⟨h₄, h₅⟩ := hl.insertNext hs hd' h0 rfl
  have hbv : b.addr ∉ addrs v := by
    rw [addrs_cons, addrs_append, List.nodup_cons] at hd
    exact fun hm => hd.1 (List.mem_append_right _ hm)
  refine h₃.joinNext ((strand_append.mp hl).2.between hbv _ _) hb hAv hs
    (fun n hn => hstop n (by simp at hn ⊢; tauto)) fun s₄ h₆ => ?_
  rcases List.eq_nil_or_concat u with rfl | ⟨w, a, rfl⟩
  · rw [addrs_nil, Linked.lastOf_nil, if_neg (by simp), List.nil_append, Blocks.insertBlock_of_le hv,
      firstOf_join, Cells.joinPrev, if_neg (by simp)]
    exact gives_pure _ h₆
  · rw [List.concat_eq_append] at *
    have ha : a.addr ∈ A := hA a.addr (by simp)
    have ha0 : a.addr ≠ 0 := fun he => h0 (by simp [← he])
    have hba : b.addr ≠ a.addr := by
      intro he
      simp [he] at hd
    rw [List.append_assoc, List.singleton_append] at hc hstop ⊢
    rw [Blocks.insertBlock_append hc (hu a (by simp)) hv]
    obtain ⟨z, k, hk, hkv⟩ := Blocks.join_eq_cons b v
    have hz : (⟨b.addr, z⟩ : Block).stop ≤ L.stop := by
      refine Blocks.forall_join (P := fun n => n.stop ≤ L.stop) ?_ (hstop b (by simp))
        (fun n hn => hstop n (by simp [hn])) _ (hk ▸ List.mem_cons_self)
      intro c n _ hn ht
      simp only [Block.stop] at ht hn ⊢
      omega
    have hbk : ∀ x ∈ addrs (⟨b.addr, z⟩ :: k), x ∈ A := by
      intro x hx
      rcases List.mem_cons.mp hx with rfl | hx
      · exact hb
      · exact hAv x ((hkv.map _).subset hx)
    have hhead : firstOf 0 (addrs (w ++ a :: v)) = firstOf 0 (addrs (w ++ join a (join b v))) := by
      rw [addrs_append, addrs_append, Linked.firstOf_append, Linked.firstOf_append, firstOf_join]
      rfl
    have hlast : lastOf 0 (addrs (w ++ [a])) = a.addr := by
      rw [addrs_append, Linked.lastOf_append]
      rfl
    rw [hk] at h₅ hhead ⊢
    rw [hlast] at h₄ h₅ h₆ ⊢
    rw [← hhead, if_pos ha0]
    exact h₆.joinPrev (b := ⟨b.addr, z⟩) h₄ h₅ ha hbk (hstop a (by simp)) hz hba

end Holds

end SdkPort.OSAlloc
