import SdkPort.OS.CellOps
import SdkPort.OS.Heaps

/-!
# Programs on heaps

Each operation of `OSAlloc.c` on one heap, in memory, against the operation on the
partition. Nothing is written but headers of cells of this heap and its descriptor.
-/
namespace SdkPort.OSAlloc

open Gc (u32)
open Linked (firstOf lastOf)
open Runs (Gives gives_bind gives_pure)
open Blocks (Block insertBlock takeFit total)
open OSThread (toS32 toU32)

variable {L : Layout} {A I : Set Nat} {s s₀ s' : Mach} {C D : Cells} {c i k p req : Nat} {l : List Block}

theorem roundDown_eq {x : Nat} (h : x < 2 ^ 32) : roundDown x ALIGNMENT = 32 * (x / 32) := by
  have hm : (2 ^ 32 - 32 : Nat) = 2 ^ 5 * (2 ^ 27 - 1) := by decide
  have hd : 32 * (x / 32) = 2 ^ 5 * (x / 2 ^ 5) := rfl
  rw [roundDown, ALIGNMENT, hm, hd]
  apply Nat.eq_of_testBit_eq
  intro i
  rw [Nat.testBit_and, Nat.testBit_two_pow_mul, Nat.testBit_two_pow_mul, Nat.testBit_two_pow_sub_one,
    Nat.testBit_div_two_pow]
  by_cases hi : 5 ≤ i
  · rw [show i - 5 + 5 = i by omega]
    by_cases hlt : i < 32
    · simp [hi, show i - 5 < 27 by omega]
    · rw [Nat.testBit_lt_two_pow (Nat.lt_of_lt_of_le h (Nat.pow_le_pow_right (by decide) (by omega)))]
      simp
  · simp [hi]

theorem roundUp_eq (x : Nat) : roundUp x ALIGNMENT = 32 * (u32 (x + 31) / 32) :=
  roundDown_eq (Nat.mod_lt _ (by decide))

theorem toS32_of_lt {v : Nat} (h : v < 2 ^ 31) : toS32 v = v := if_pos h

theorem toS32_neg {v : Nat} (h : 2 ^ 31 ≤ v) (hv : v < 2 ^ 32) : toS32 v < 0 := by
  rw [toS32, if_neg (by omega)]
  omega

theorem heapDesc_eq {a i : Nat} (hi : i < 2 ^ 31) (h : a + 12 * i < 2 ^ 32) :
    heapDesc a i = a + 12 * i := by
  rw [heapDesc, toU32, HEAPDESC_SIZE, u32]
  omega

namespace Cells

/-- Taking a cell whole off the free list of a heap. -/
def takeWhole (C : Cells) (i cell : Nat) : Cells :=
  if C.prev cell = 0 then (C.unlink cell).modDesc i ({ · with free := C.next cell })
  else C.unlink cell

/-- Putting the rest of a cell in its place on the free list of a heap. -/
def takePart (C : Cells) (i cell newCell req leftover : Nat) : Cells :=
  let D := C.splitCell cell newCell req leftover
  if C.prev cell ≠ 0 then D else D.modDesc i ({ · with free := newCell })

end Cells

/-- The last cell in front of another one is not null. -/
theorem lastOf_addrs_ne {a : Block} {u w : List Block} (h0 : 0 ∉ addrs (a :: u ++ w)) :
    lastOf 0 (addrs (a :: u)) ≠ 0 := by
  refine (Linked.lastOf_eq_nil fun hm => h0 ?_).not.mpr (by simp)
  rw [addrs_append]
  exact List.mem_append_left _ hm

/-- The head of a list once a cell was taken off it. -/
theorem Strand.head_without {u v : List Block} {b : Block} (hl : Strand C 0 (u ++ b :: v) 0)
    (h0 : 0 ∉ addrs (u ++ b :: v)) :
    (if C.prev b.addr = 0 then C.next b.addr else firstOf 0 (addrs (u ++ b :: v))) = firstOf 0 (addrs (u ++ v)) := by
  obtain ⟨hp, hn, -⟩ := hl.links
  rw [hp, hn]
  cases u with
  | nil => rfl
  | cons a u =>
    rw [if_neg (lastOf_addrs_ne h0)]
    rfl

/-- The free list of a heap after a cell was taken whole. -/
theorem Strand.takeWhole {u v : List Block} {b : Block} (hl : Strand C 0 (u ++ b :: v) 0)
    (h0 : 0 ∉ addrs (u ++ b :: v)) (hd : (addrs (u ++ b :: v)).Nodup)
    (hf : (C.desc i).free = firstOf 0 (addrs (u ++ b :: v))) :
    Strand (C.takeWhole i b.addr) 0 (u ++ v) 0 ∧ (C.takeWhole i b.addr).size b.addr = b.size ∧
      (C.takeWhole i b.addr).desc i = { C.desc i with free := firstOf 0 (addrs (u ++ v)) } := by
  obtain ⟨hp, hn, hs⟩ := hl.links
  refine ⟨?_, ?_, ?_⟩
  · have hun := hl.unlink h0 hd
    unfold Cells.takeWhole
    split
    · exact hun.congr (fun _ _ => rfl) (fun _ _ => rfl) fun _ _ => rfl
    · exact hun
  · rw [← hs, ← C.unlink_size b.addr]
    unfold Cells.takeWhole
    split <;> rfl
  · unfold Cells.takeWhole
    rw [hp, hn]
    cases u with
    | nil => simp [Cells.unlink_desc]
    | cons a u =>
      have ha : lastOf 0 (addrs (a :: u)) ≠ 0 := lastOf_addrs_ne h0
      rw [if_neg ha, Cells.unlink_desc]
      rw [addrs_append, addrs_cons, List.cons_append, Linked.firstOf_cons] at hf ⊢
      rw [← hf]

/-- The free list of a heap after a cell was split. -/
theorem Strand.takePart {u v : List Block} {b n : Block} (hl : Strand C 0 (u ++ b :: v) 0)
    (h0 : 0 ∉ addrs (u ++ b :: v)) (hd : (addrs (u ++ b :: v)).Nodup) (hn : n.addr ∉ addrs (u ++ b :: v))
    (hn0 : n.addr ≠ 0) (hf : (C.desc i).free = firstOf 0 (addrs (u ++ b :: v))) (req : Nat) :
    Strand (C.takePart i b.addr n.addr req n.size) 0 (u ++ n :: v) 0 ∧
      (C.takePart i b.addr n.addr req n.size).size b.addr = req ∧
      (C.takePart i b.addr n.addr req n.size).desc i =
        { C.desc i with free := firstOf 0 (addrs (u ++ n :: v)) } := by
  obtain ⟨hp, hnx, hs⟩ := hl.links
  obtain ⟨h₁, h₂⟩ := hl.splitCell h0 hd hn hn0 req
  refine ⟨?_, ?_, ?_⟩
  · unfold Cells.takePart
    split
    · exact h₁
    · exact h₁.congr (fun _ _ => rfl) (fun _ _ => rfl) fun _ _ => rfl
  · unfold Cells.takePart
    split
    · exact h₂
    · exact h₂
  · unfold Cells.takePart
    rw [hp]
    cases u with
    | nil => simp [Cells.splitCell_desc]
    | cons a u =>
      have ha : lastOf 0 (addrs (a :: u)) ≠ 0 := lastOf_addrs_ne h0
      simp only [if_pos ha, Cells.splitCell_desc]
      rw [addrs_append, addrs_cons, List.cons_append, Linked.firstOf_cons] at hf ⊢
      rw [← hf]

namespace Holds

theorem heapDesc (h : Holds L A I s₀ s C) (hi : i < L.n) : heapDesc L.array i = L.desc i := by
  have := h.desc_lt hi
  have hn := h.shows.fits.count_lt
  rw [heapDesc_eq (by omega) (by unfold Layout.desc at this; omega)]
  rfl

theorem descSize_lt (h : Holds L A I s₀ s C) (hi : i < L.n) : (C.desc i).size < 2 ^ 32 := by
  rw [← (h.shows.desc i hi).1]
  exact s.mem.load_lt _

/-- The descriptor of a heap that exists. -/
theorem openHeap (h : Holds L A I s₀ s C) (hi : i < L.n) (hs : (C.desc i).size < 2 ^ 31) :
    Gives (Holds L A I s₀) (OSAlloc.openHeap i s) (some (L.desc i)) C := by
  have h0 := h.shows.fits.nonnull
  unfold OSAlloc.openHeap
  refine gives_bind h.getHeapArray fun s₁ h₁ => gives_bind h₁.getNumHeaps fun s₂ h₂ => ?_
  rw [if_neg (by omega), h.heapDesc hi]
  refine gives_bind (gives_bind (h₂.getDescSize hi) fun s₃ h₃ => gives_pure _ h₃) fun s₃ h₃ => ?_
  rw [toS32_of_lt hs, if_neg (by omega)]
  exact gives_pure _ h₃

/-- Nothing for a heap that does not exist. -/
theorem openHeap_none (h : Holds L A I s₀ s C) {heap : Int}
    (hd : ∀ i < L.n, heap = i → 2 ^ 31 ≤ (C.desc i).size) :
    Gives (Holds L A I s₀) (OSAlloc.openHeap heap s) none C := by
  have h0 := h.shows.fits.nonnull
  unfold OSAlloc.openHeap
  refine gives_bind h.getHeapArray fun s₁ h₁ => gives_bind h₁.getNumHeaps fun s₂ h₂ => ?_
  split
  · exact gives_pure _ h₂
  · rename_i hr
    obtain ⟨i, rfl⟩ := Int.eq_ofNat_of_zero_le (show 0 ≤ heap by omega)
    have hi : i < L.n := by omega
    rw [h.heapDesc hi]
    refine gives_bind (gives_bind (h₂.getDescSize hi) fun s₃ h₃ => gives_pure _ h₃) fun s₃ h₃ => ?_
    rw [if_pos (toS32_neg (hd i hi rfl) (h.descSize_lt hi))]
    exact gives_pure _ h₃

theorem fitScan (h : Holds L A I s₀ s C) (hl : Strand C p l 0) (hA : ∀ x ∈ addrs l, L.Cell x)
    (h0 : 0 ∉ addrs l) (hs : ∀ b ∈ l, b.size < 2 ^ 31) (hr : req < 2 ^ 31) {n : Nat}
    (hn : l.length < n) : Gives (Holds L A I s₀) (OSAlloc.fitScan req n (firstOf 0 (addrs l)) s)
      (firstOf 0 (addrs (l.dropWhile (·.size < req)))) C := by
  induction l generalizing s p n with
  | nil =>
    obtain ⟨n, rfl⟩ := Nat.exists_eq_succ_of_ne_zero (Nat.ne_of_gt (Nat.zero_lt_of_lt hn))
    rw [OSAlloc.fitScan]
    exact gives_pure _ h
  | cons b l ih =>
    obtain ⟨n, rfl⟩ := Nat.exists_eq_succ_of_ne_zero (Nat.ne_of_gt (Nat.zero_lt_of_lt hn))
    obtain ⟨_, hnext, hsize, hl'⟩ := strand_cons.mp hl
    simp only [addrs_cons, List.mem_cons, not_or] at h0 hA
    have hcell := hA b.addr (.inl rfl)
    have hbs := hs b (by simp)
    rw [addrs_cons, Linked.firstOf_cons, OSAlloc.fitScan, if_neg (Ne.symm h0.1)]
    refine gives_bind (gives_bind (h.getSize hcell) fun s₁ h₁ => gives_pure _ h₁) fun s₁ h₁ => ?_
    rw [hsize, toS32_of_lt hr, toS32_of_lt hbs]
    by_cases hc : b.size < req
    · rw [if_neg (by omega), List.dropWhile_cons_of_pos (by simpa using hc)]
      refine gives_bind (h₁.getNext hcell) fun s₂ h₂ => ?_
      rw [hnext]
      exact ih h₂ hl' (fun x hx => hA x (.inr hx)) h0.2 (fun c hc => hs c (by simp [hc]))
        (Nat.lt_of_succ_lt_succ hn)
    · rw [if_pos (by omega), List.dropWhile_cons_of_neg (by simpa using hc)]
      exact gives_pure _ h₁

variable {u v : List Block} {b n : Block}

/-- The neighbours of a cell on a list are cells of it or null. -/
theorem neighbours (hl : Strand C 0 (u ++ b :: v) 0) (hA : ∀ x ∈ addrs (u ++ b :: v), x ∈ A) :
    (C.next b.addr ≠ 0 → C.next b.addr ∈ A) ∧ (C.prev b.addr ≠ 0 → C.prev b.addr ∈ A) := by
  obtain ⟨hp, hn, _⟩ := hl.links
  rw [hp, hn]
  refine ⟨fun h => hA _ ?_, fun h => hA _ ?_⟩
  · have := Linked.firstOf_mem_of_ne h
    simp [this]
  · have := Linked.lastOf_mem_of_ne h
    simp [this]

/-- Taking a cell whole off the free list of a heap. -/
theorem takeWhole (h : Holds L A I s₀ s C) (hi : i ∈ I) (hl : Strand C 0 (u ++ b :: v) 0)
    (hA : ∀ x ∈ addrs (u ++ b :: v), x ∈ A) :
    Gives (Holds L A I s₀) (OSAlloc.takeWhole (L.desc i) b.addr s) () (C.takeWhole i b.addr) := by
  obtain ⟨hnA, hpA⟩ := neighbours hl hA
  have hcell := h.cells b.addr (hA _ (by simp))
  -- the second half, in the state that the first half leaves
  have hrest : ∀ s', Holds L A I s₀ s'
      (if C.next b.addr ≠ 0 then C.setPrev (C.next b.addr) (C.prev b.addr) else C) →
      Gives (Holds L A I s₀) ((if C.prev b.addr = 0 then
          storeU32be (u32 (L.desc i + 4)) (C.next b.addr)
        else storeU32be (u32 (C.prev b.addr + 4)) (C.next b.addr) : M Unit) s') ()
        (C.takeWhole i b.addr) := by
    intro s' h'
    unfold Cells.takeWhole Cells.unlink
    by_cases hp0 : C.prev b.addr = 0
    · simp only [if_pos hp0]
      exact h'.setFree hi (h.next_lt hcell)
    · simp only [if_neg hp0]
      exact h'.setNext (hpA hp0) (h.next_lt hcell)
  unfold OSAlloc.takeWhole
  refine gives_bind (h.getPrev hcell) fun s₁ h₁ => gives_bind (h₁.getNext hcell) fun s₂ h₂ => ?_
  split
  · rename_i hn0
    refine gives_bind (h₂.setPrev (hnA hn0) (h.prev_lt hcell)) fun s₃ h₃ => ?_
    exact hrest s₃ (by rwa [if_pos hn0])
  · rename_i hn0
    exact hrest s₂ (by rwa [if_neg hn0])

/-- Putting the rest of a cell in its place on the free list of a heap. -/
theorem splitCell (h : Holds L A I s₀ s C) (hi : i ∈ I) (hl : Strand C 0 (u ++ b :: v) 0)
    (hA : ∀ x ∈ addrs (u ++ b :: v), x ∈ A) (hn : n.addr ∈ A) (he : b.addr + req = n.addr)
    (hs : n.size < 2 ^ 32) :
    Gives (Holds L A I s₀) (OSAlloc.splitCell (L.desc i) b.addr req n.size s) ()
      (C.takePart i b.addr n.addr req n.size) := by
  obtain ⟨hnA, hpA⟩ := neighbours hl hA
  have hb := hA b.addr (by simp)
  have hcell := h.cells b.addr hb
  have hlt := h.cell_lt (h.cells n.addr hn)
  have hu : u32 (b.addr + req) = n.addr := by
    rw [he, u32, Nat.mod_eq_of_lt (by omega)]
  unfold OSAlloc.splitCell
  refine gives_bind (h.getPrev hcell) fun s₁ h₁ => gives_bind (h₁.getNext hcell) fun s₂ h₂ => ?_
  refine gives_bind (h₂.setSize hb (by omega)) fun s₃ h₃ => ?_
  rw [hu]
  refine gives_bind (h₃.setSize hn hs) fun s₄ h₄ => ?_
  refine gives_bind (h₄.setPrev hn (h.prev_lt hcell)) fun s₅ h₅ => ?_
  refine gives_bind (h₅.setNext hn (h.next_lt hcell)) fun s₆ h₆ => ?_
  refine gives_bind (h₆.setHd hn (by decide)) fun s₇ h₇ => ?_
  -- the second half, in the state that the first half leaves
  have hrest : ∀ {s'} {D : Cells}, Holds L A I s₀ s' D →
      Gives (Holds L A I s₀) ((if C.prev b.addr ≠ 0 then storeU32be (u32 (C.prev b.addr + 4)) n.addr
        else storeU32be (u32 (L.desc i + 4)) n.addr : M Unit) s') ()
        (if C.prev b.addr ≠ 0 then D.setNext (C.prev b.addr) n.addr
        else D.modDesc i ({ · with free := n.addr })) := by
    intro s' D h'
    split
    · rename_i hp0
      exact h'.setNext (hpA hp0) (by omega)
    · exact h'.setFree hi (by omega)
  unfold Cells.takePart Cells.splitCell
  by_cases hn0 : C.next b.addr ≠ 0
  · simp only [if_pos hn0]
    refine gives_bind (h₇.setPrev (hnA hn0) (by omega)) fun s₈ h₈ => ?_
    have := hrest h₈
    by_cases hp0 : C.prev b.addr ≠ 0
    · simpa only [if_pos hp0] using this
    · simpa only [if_neg hp0] using this
  · simp only [if_neg hn0]
    have := hrest h₇
    by_cases hp0 : C.prev b.addr ≠ 0
    · simpa only [if_pos hp0] using this
    · simpa only [if_neg hp0] using this

/-- A list without cells that were written is still there. -/
theorem keeps (h : Holds L A I s₀ s D) (h₀ : Shows L s₀ C) {e : Nat} (hl : Strand C p l e)
    (hc : ∀ x ∈ addrs l, L.Cell x ∧ x ∉ A) : Strand D p l e := by
  have ha : ∀ x ∈ addrs l, C.Agree D x := fun x hx => h.agree h₀ (hc x hx).1 (hc x hx).2
  exact hl.congr (fun x hx => (ha x hx).prev) (fun x hx => (ha x hx).next) fun x hx => (ha x hx).size

/-- A part of a program that writes less than the whole. -/
theorem part {α : Type} {B J : Set Nat} {m : M α} {r : α} (h : Holds L A I s₀ s C) (hB : B ⊆ A)
    (hJ : J ⊆ I) (hm : Holds L B J s s C → Gives (Holds L B J s) (m s) r D) :
    Gives (Holds L A I s₀) (m s) r D ∧ (∀ {p e : Nat} {l : List Block}, Strand C p l e →
      (∀ x ∈ addrs l, L.Cell x ∧ x ∉ B) → Strand D p l e) ∧ ∀ j < L.n, j ∉ J → D.desc j = C.desc j := by
  obtain ⟨s', hrun, hs⟩ := hm (refl h.shows (fun c hc => h.cells c (hB hc)) fun j hj => h.descs j (hJ hj))
  exact ⟨⟨s', hrun, h.trans hs hB hJ⟩, fun hl hc => hs.keeps h.shows hl hc,
    fun j hj hJj => hs.desc_eq h.shows hj hJj⟩

/-- Adding a cell to the allocated list of a heap. -/
theorem pushAllocated (h : Holds L A I s₀ s C) (hi : i ∈ I) {f : List Block} {z : Nat}
    (hf : Strand C 0 f 0) (hl : Strand C 0 l 0) (hb : C.size b.addr = b.size)
    (hd : C.desc i = ⟨z, firstOf 0 (addrs f), firstOf 0 (addrs l)⟩)
    (hA : ∀ x ∈ addrs (b :: l), x ∈ A) (hfc : ∀ x ∈ addrs f, L.Cell x)
    (hn : (addrs (f ++ b :: l)).Nodup) :
    ∃ E, Gives (Holds L A I s₀) ((do
        let allocHead ← portDLAddFront (← loadU32be (u32 (L.desc i + 8))) b.addr
        storeU32be (u32 (b.addr + 12)) (L.desc i)
        storeU32be (u32 (L.desc i + 8)) allocHead
        pure (u32 (b.addr + 0x20)) : M Nat) s) (b.addr + 0x20) E ∧
      Strand E 0 f 0 ∧ Strand E 0 (b :: l) 0 ∧ E.desc i = ⟨z, firstOf 0 (addrs f), b.addr⟩ := by
  have hbA := hA b.addr (by simp)
  have hlt := h.cell_lt (h.cells _ hbA)
  have hdl := h.desc_lt (h.descs i hi)
  rw [addrs_append] at hn
  obtain ⟨_, hnl, hfl⟩ := List.nodup_append.mp hn
  have hhead : firstOf 0 (addrs l) ≠ 0 → firstOf 0 (addrs l) ∈ addrs (b :: l) := fun hk =>
    List.mem_cons_of_mem _ (Linked.firstOf_mem_of_ne hk)
  -- what is written: the cell and the old head
  obtain ⟨_, hkeep, _⟩ := h.part (B := {x | x ∈ addrs (b :: l)}) (fun x hx => hA x hx) Set.Subset.rfl fun h' =>
    h'.addFront (c := b.addr) (by simp) hhead
  have hf' := hkeep hf fun x hx => ⟨hfc x hx, fun hm => hfl x hx x hm rfl⟩
  have hl' := hl.addFront (h.zero_not_mem hA) hnl hb
  refine ⟨((C.addFront (firstOf 0 (addrs l)) b.addr).setHd b.addr (L.desc i)).modDesc i
    ({ · with allocated := b.addr }), ?_, ?_, ?_, ?_⟩
  · refine gives_bind (h.getAllocated (h.descs i hi)) fun s₁ h₁ => ?_
    rw [hd]
    refine gives_bind (h₁.addFront hbA fun hk => hA _ (hhead hk)) fun s₂ h₂ => ?_
    refine gives_bind (h₂.setHd hbA (by omega)) fun s₃ h₃ => ?_
    refine gives_bind (h₃.setAllocated hi (by omega)) fun s₄ h₄ => ?_
    rw [u32, Nat.mod_eq_of_lt (by omega)]
    exact gives_pure _ h₄
  · exact hf'.congr (fun _ _ => rfl) (fun _ _ => rfl) fun _ _ => rfl
  · exact hl'.congr (fun _ _ => rfl) (fun _ _ => rfl) fun _ _ => rfl
  · simp [Cells.addFront_desc, hd]

/-- Putting a cell on the free list of a heap. -/
theorem pushFree (h : Holds L A I s₀ s C) (hi : i ∈ I) {f : List Block} {z : Nat}
    (hf : Strand C 0 f 0) (hcanon : Blocks.Canon f) (hl : Strand C 0 l 0) (hb : C.size b.addr = b.size)
    (hd : C.desc i = ⟨z, firstOf 0 (addrs f), firstOf 0 (addrs l)⟩) (hA : ∀ x ∈ addrs (b :: f), x ∈ A)
    (hlc : ∀ x ∈ addrs l, L.Cell x) (hn : (addrs ((b :: f) ++ l)).Nodup)
    (hstop : ∀ n ∈ b :: f, n.stop ≤ L.stop) (hlen : f.length < cellFuel) :
    Gives (fun s' g => ∃ E, Holds L A I s₀ s' E ∧ Strand E 0 g 0 ∧ Strand E 0 l 0 ∧
        E.desc i = ⟨z, firstOf 0 (addrs g), firstOf 0 (addrs l)⟩) ((do
      let newFree ← portDLInsert (← loadU32be (u32 (L.desc i + 4))) b.addr
      storeU32be (u32 (L.desc i + 4)) newFree : M Unit) s) () (insertBlock b f) := by
  rw [addrs_append] at hn
  obtain ⟨hnf, _, hfl⟩ := List.nodup_append.mp hn
  refine gives_bind (h.getFree (h.descs i hi)) fun s₁ h₁ => ?_
  rw [hd]
  have hB : ∀ c ∈ {x | x ∈ addrs (b :: f)}, L.Cell c := fun c hc => h.cells c (hA c hc)
  obtain ⟨E, hg, hE⟩ := insert (refl h₁.shows hB (I := ∅) (by simp)) hf hcanon (fun x hx => hx) hb hstop
    hnf hlen
  obtain ⟨hgives, hkeep, hdesc⟩ := h₁.part (fun x hx => hA x hx) (by simp) fun _ => hg
  have hl' := hkeep hl fun x hx => ⟨hlc x hx, fun hm => hfl x hm x hx rfl⟩
  have hhead : firstOf 0 (addrs (insertBlock b f)) < 2 ^ 32 :=
    h₁.link_lt fun hne => hA _ (mem_addrs_insertBlock (Linked.firstOf_mem_of_ne hne))
  refine gives_bind hgives fun s₂ h₂ => ?_
  obtain ⟨s₃, hrun, h₃⟩ := h₂.setFree hi hhead
  refine ⟨s₃, hrun, _, h₃, hE.congr (fun _ _ => rfl) (fun _ _ => rfl) fun _ _ => rfl,
    hl'.congr (fun _ _ => rfl) (fun _ _ => rfl) fun _ _ => rfl, ?_⟩
  simp [hdesc i (h.descs i hi) (by simp), hd]

end Holds

/-- The size of the cell for a request. -/
def requestOf (size : Nat) : Nat := roundUp (u32 (size + 0x20)) ALIGNMENT

theorem requestOf_spec {size : Nat} (h : size ≤ 0x7FFFFFC0) :
    32 ∣ requestOf size ∧ size + 0x20 ≤ requestOf size ∧ requestOf size < 2 ^ 31 := by
  rw [requestOf, roundUp_eq, u32, u32]
  omega

theorem requestOf_least {size : Nat} (h0 : 0 < size) (h : size ≤ 0x7FFFFFC0) :
    0x40 ≤ requestOf size := by
  have := requestOf_spec h
  omega

namespace Heap

variable (h : Heap L) {size : Nat}

/-- A call of `OSAllocFromHeap` up to the search. -/
theorem alloc_search (hs : Holds L A I s₀ s C) (hi : i < L.n) (hat : h.At C i) (h0 : 0 < size)
    (hsize : size ≤ 0x7FFFFFC0) {δ : Type} {S : Mach → δ → Prop} {r : Nat} {e : δ}
    (hk : ∀ s', Holds L A I s₀ s' C → Gives S ((do
      let cell := firstOf 0 (addrs (h.free.dropWhile (·.size < requestOf size)))
      if cell = 0 then pure 0
      else
        let cellSize ← loadU32be (u32 (cell + 8))
        let leftover := u32 (cellSize + 2 ^ 32 - requestOf size)
        if leftover < 0x40 then takeWhole (L.desc i) cell
        else splitCell (L.desc i) cell (requestOf size) leftover
        let allocHead ← portDLAddFront (← loadU32be (u32 (L.desc i + 8))) cell
        storeU32be (u32 (cell + 12)) (L.desc i)
        storeU32be (u32 (L.desc i + 8)) allocHead
        pure (u32 (cell + 0x20)) : M Nat) s') r e) :
    Gives S (OSAllocFromHeap i size s) r e := by
  have hd := hat.desc
  have hlt := h.total_lt
  have hlen := h.length_lt
  rw [List.length_append] at hlen
  unfold OSAllocFromHeap
  rw [toS32_of_lt (by omega), if_neg (by omega)]
  refine gives_bind (hs.openHeap hi (by rw [hd]; exact hlt)) fun s₁ h₁ => ?_
  refine gives_bind (h₁.getFree hi) fun s₂ h₂ => ?_
  rw [hd]
  refine gives_bind (h₂.fitScan (n := cellFuel) hat.free ?_ ?_ ?_
    (requestOf_spec hsize).2.2 ?_) fun s₃ h₃ => hk s₃ h₃
  · exact fun x hx => h.cell_of_mem (by simp [hx])
  · exact fun hm => hs.not_cell_zero (h.cell_of_mem (by simp [hm]))
  · exact fun b hb => h.size_lt (by simp [hb])
  · unfold cellFuel
    omega

/-- No cell fits: nothing is written. -/
theorem alloc_none (hs : Holds L A I s₀ s C) (hi : i < L.n) (hat : h.At C i) (h0 : 0 < size)
    (hsize : size ≤ 0x7FFFFFC0) (hp : takeFit 0x40 (requestOf size) h.free = none) :
    Gives (Holds L A I s₀) (OSAllocFromHeap i size s) 0 C := by
  have hnone : h.free.dropWhile (·.size < requestOf size) = [] := by
    rw [List.dropWhile_eq_nil_iff]
    intro b hb
    have := Blocks.takeFit_eq_none hp b hb
    simpa using this
  refine h.alloc_search hs hi hat h0 hsize fun s' h' => ?_
  rw [hnone]
  exact gives_pure 0 h'

/-- Once a cell is off the free list it is put in front of the allocated ones. -/
theorem taken_push (hat : h.At C i) {h' : Heap L} {p : Block × List Block} (hfree : h'.free = p.2)
    (halloc : h'.alloc = p.1 :: h.alloc) (hregions : h'.regions = h.regions) {s' : Mach} {D : Cells}
    (h₁ : Holds L (h.Touched h') {i} s s' D) (hf : Strand D 0 p.2 0) (hl : Strand D 0 h.alloc 0)
    (hb : D.size p.1.addr = p.1.size) (hd : D.desc i = { C.desc i with free := firstOf 0 (addrs p.2) }) :
    Gives (h.Becomes i s) ((do
      let allocHead ← portDLAddFront (← loadU32be (u32 (L.desc i + 8))) p.1.addr
      storeU32be (u32 (p.1.addr + 12)) (L.desc i)
      storeU32be (u32 (L.desc i + 8)) allocHead
      pure (u32 (p.1.addr + 0x20)) : M Nat) s') (p.1.addr + 0x20) h' := by
  have hnd := h'.nodup
  have hc : ∀ x ∈ addrs (h'.free ++ h'.alloc), L.Cell x := fun x hx => h'.cell_of_mem hx
  have hT : ∀ x ∈ addrs (h'.free ++ h'.alloc), x ∈ h.Touched h' := fun x hx => .inr hx
  rw [hfree, halloc] at hnd hc hT
  rw [hat.desc] at hd
  obtain ⟨E, ⟨s₂, hrun, h₂⟩, hf₂, hl₂, hd₂⟩ := h₁.pushAllocated rfl hf hl hb hd
    (fun x hx => hT x (by simp at hx ⊢; tauto)) (fun x hx => hc x (by simp [hx])) hnd
  refine ⟨s₂, hrun, E, h₂, ?_⟩
  rw [← hfree] at hf₂ hd₂
  rw [← halloc] at hl₂
  refine ⟨hf₂, hl₂, ?_⟩
  rw [hd₂, halloc, hregions]
  rfl

/-- First fit: the cell found, or its first part. -/
theorem alloc_some (hs : Shows L s C) (hi : i < L.n) (hat : h.At C i) (h0 : 0 < size)
    (hsize : size ≤ 0x7FFFFFC0) {p : Block × List Block}
    (hp : takeFit 0x40 (requestOf size) h.free = some p) :
    Gives (h.Becomes i s) (OSAllocFromHeap i size s) (p.1.addr + 0x20)
      (h.taken hp (requestOf_spec hsize).1 (requestOf_least h0 hsize)) := by
  obtain ⟨hr32, _, hr31⟩ := requestOf_spec hsize
  generalize hh' : h.taken hp (requestOf_spec hsize).1 (requestOf_least h0 hsize) = h'
  have hfree' : h'.free = p.2 := hh' ▸ rfl
  have halloc' : h'.alloc = p.1 :: h.alloc := hh' ▸ rfl
  have hregions : h'.regions = h.regions := hh' ▸ rfl
  have hs₀ : Holds L (h.Touched h') {i} s s C :=
    .refl hs (fun c hc => h.cell_of_touched hc) (by simpa using hi)
  have hnd := h.nodup
  have hnd' := h'.nodup
  have hT' : ∀ x ∈ addrs (h'.free ++ h'.alloc), x ∈ h.Touched h' := fun x hx => .inr hx
  rw [hfree', halloc'] at hnd' hT'
  have hpush : ∀ {s' : Mach} {D : Cells}, Holds L (h.Touched h') {i} s s' D → Strand D 0 p.2 0 →
      Strand D 0 h.alloc 0 → D.size p.1.addr = p.1.size →
      D.desc i = { C.desc i with free := firstOf 0 (addrs p.2) } → _ :=
    h.taken_push hat hfree' halloc' hregions
  obtain ⟨u, b, v, hl, hu, hb, hp'⟩ := Blocks.takeFit_some hp
  have hdrop : h.free.dropWhile (·.size < requestOf size) = b :: v := by
    rw [hl, List.dropWhile_append_of_pos (by simpa using hu), List.dropWhile_cons_of_neg (by simpa using hb)]
  have hfree := hat.free
  have hdesc : (C.desc i).free = firstOf 0 (addrs h.free) := by rw [hat.desc]
  have hcellF : ∀ x ∈ addrs h.free, L.Cell x := fun x hx => h.cell_of_mem (by simp [hx])
  have hcellA : ∀ x ∈ addrs h.alloc, L.Cell x := fun x hx => h.cell_of_mem (by simp [hx])
  have hTF : ∀ x ∈ addrs h.free, x ∈ h.Touched h' := fun x hx => .inl (by simp [hx])
  have hsb : b.size < 2 ^ 31 := h.size_lt (by simp [hl])
  have h00 : 0 ∉ addrs h.free := fun hm => hs₀.not_cell_zero (hcellF 0 hm)
  rw [addrs_append] at hnd
  obtain ⟨hndF, _, hFA⟩ := List.nodup_append.mp hnd
  rw [hl] at hfree hdesc hcellF hTF h00 hndF hFA
  have hbF : b.addr ∈ addrs (u ++ b :: v) := by simp
  refine h.alloc_search hs₀ hi hat h0 hsize fun s₁ h₁ => ?_
  simp only [hdrop, addrs_cons, Linked.firstOf_cons]
  have hb0 : b.addr ≠ 0 := fun he => h00 (he ▸ hbF)
  rw [if_neg hb0]
  refine gives_bind (h₁.getSize (hcellF _ hbF)) fun s₂ h₂ => ?_
  have hleft : u32 (C.size b.addr + 2 ^ 32 - requestOf size) = b.size - requestOf size := by
    rw [hfree.links.2.2, u32]
    omega
  rw [hleft]
  split
  · rename_i hlt
    rw [if_pos hlt] at hp'
    subst hp'
    obtain ⟨k₁, k₂, k₃⟩ := hfree.takeWhole h00 hndF hdesc
    obtain ⟨hgives, hkeep, _⟩ := h₂.part (B := {x | x ∈ addrs (u ++ b :: v)}) (fun x hx => hTF x hx)
      Set.Subset.rfl fun h₃ => h₃.takeWhole rfl hfree fun x hx => hx
    refine gives_bind hgives fun s₃ h₃ => ?_
    exact hpush h₃ k₁ (hkeep hat.alloc fun x hx => ⟨hcellA x hx, fun hm => hFA x hm x hx rfl⟩) k₂ k₃
  · rename_i hlt
    rw [if_neg hlt] at hp'
    subst hp'
    have hnF : b.addr + requestOf size ∉ addrs (u ++ b :: v) := by
      have := requestOf_least h0 hsize
      simp only [addrs_append, addrs_cons, List.nodup_append, List.nodup_cons, List.mem_append,
        List.mem_cons] at hnd' ⊢
      grind
    have hn0 : b.addr + requestOf size ≠ 0 := by omega
    have hnA : b.addr + requestOf size ∉ addrs h.alloc := by
      simp only [addrs_append, addrs_cons, List.nodup_append, List.nodup_cons, List.mem_append,
        List.mem_cons] at hnd'
      grind
    obtain ⟨k₁, k₂, k₃⟩ := hfree.takePart (n := ⟨b.addr + requestOf size, b.size - requestOf size⟩)
      h00 hndF hnF hn0 hdesc (requestOf size)
    obtain ⟨hgives, hkeep, _⟩ := h₂.part
      (B := {x | x ∈ addrs (u ++ b :: v) ∨ x = b.addr + requestOf size})
      (fun x hx => hx.elim (hTF x) fun he => hT' x (by simp [he])) Set.Subset.rfl
      fun h₃ => h₃.splitCell rfl hfree (n := ⟨b.addr + requestOf size, b.size - requestOf size⟩)
        (fun x hx => .inl hx) (.inr rfl) rfl (show b.size - requestOf size < 2 ^ 32 by omega)
    refine gives_bind hgives fun s₃ h₃ => ?_
    refine hpush h₃ k₁ (hkeep hat.alloc fun x hx => ⟨hcellA x hx, ?_⟩) k₂ k₃
    rintro (hm | rfl)
    · exact hFA x hm x hx rfl
    · exact hnA hx

theorem erase_alloc {b : Block} {u v : List Block} (hl : h.alloc = u ++ b :: v) : h.alloc.erase b = u ++ v := by
  have hnd := h.nodup
  have hbu : b ∉ u := by
    intro hm
    have := mem_addrs hm
    simp only [hl, addrs_append, addrs_cons, List.nodup_append] at hnd
    exact hnd.2.1.2.2 _ this _ (by simp) rfl
  rw [hl, List.erase_append_right _ hbu, List.erase_cons_head]

/-- A cell given back is inserted in order and merged with the free cells it touches. -/
theorem free_gives (hs : Shows L s C) (hi : i < L.n) (hat : h.At C i) {b : Block} (hb : b ∈ h.alloc) :
    Gives (h.Becomes i s) (OSFreeToHeap i (b.addr + 0x20) s) () (h.released hb) := by
  generalize hh' : h.released hb = h'
  have hfree' : h'.free = insertBlock b h.free := hh' ▸ rfl
  have halloc' : h'.alloc = h.alloc.erase b := hh' ▸ rfl
  have hregions : h'.regions = h.regions := hh' ▸ rfl
  have hs₀ : Holds L (h.Touched h') {i} s s C :=
    .refl hs (fun c hc => h.cell_of_touched hc) (by simpa using hi)
  have hnd := h.nodup
  obtain ⟨u, v, hl⟩ := List.append_of_mem hb
  have herase := h.erase_alloc hl
  have hcellF : ∀ x ∈ addrs h.free, L.Cell x := fun x hx => h.cell_of_mem (by simp [hx])
  have hcellA : ∀ x ∈ addrs h.alloc, L.Cell x := fun x hx => h.cell_of_mem (by simp [hx])
  have hT : ∀ x ∈ addrs (h.free ++ h.alloc), x ∈ h.Touched h' := fun x hx => .inl hx
  have halloc := hat.alloc
  have hd := hat.desc
  have h00 : 0 ∉ addrs h.alloc := fun hm => hs₀.not_cell_zero (hcellA 0 hm)
  have hcell := (h.good_alloc hb).cell
  have hlt := hs₀.cell_lt hcell
  have hnd₀ := hnd
  rw [addrs_append] at hnd
  obtain ⟨hndF, hndA, hFA⟩ := List.nodup_append.mp hnd
  rw [hl] at halloc hd hcellA hT h00 hndA hFA
  obtain ⟨-, -, hsz⟩ := halloc.links
  unfold OSFreeToHeap
  rw [if_neg (by omega)]
  refine gives_bind (hs₀.openHeap hi (by rw [hd]; exact h.total_lt)) fun s₁ h₁ => ?_
  have hc : u32 (b.addr + 0x20 + 2 ^ 32 - 0x20) = b.addr := by
    rw [u32]
    omega
  rw [hc]
  refine gives_bind (h₁.getAllocated hi) fun s₂ h₂ => ?_
  rw [hd]
  obtain ⟨hnA, hpA⟩ := Holds.neighbours (A := {x | x ∈ addrs (u ++ b :: v)}) halloc fun x hx => hx
  obtain ⟨hgives, hkeep, _⟩ := h₂.part (B := {x | x ∈ addrs (u ++ b :: v)})
    (fun x hx => hT x (by rw [addrs_append]; exact List.mem_append_right _ hx)) Set.Subset.rfl
    fun h₃ => h₃.extract (k := firstOf 0 (addrs (u ++ b :: v))) (by simp) hnA hpA
  rw [halloc.head_without h00] at hgives
  refine gives_bind hgives fun s₃ h₃ => ?_
  have hsub : ∀ x ∈ addrs (u ++ v), x ∈ addrs (u ++ b :: v) := by
    have : (addrs (u ++ v)).Sublist (addrs (u ++ b :: v)) := by simp
    exact fun x hx => this.subset hx
  have hTA : ∀ x ∈ addrs (u ++ b :: v), x ∈ h.Touched h' := fun x hx =>
    hT x (by rw [addrs_append]; exact List.mem_append_right _ hx)
  refine gives_bind (h₃.setAllocated rfl ?_) fun s₄ h₄ => ?_
  · exact h₃.link_lt fun hne => hTA _ (hsub _ (Linked.firstOf_mem_of_ne hne))
  refine gives_bind (h₄.setHd (hTA _ (by simp)) (by decide)) fun s₅ h₅ => ?_
  have hperm : (addrs (h.free ++ h.alloc)).Perm (addrs ((b :: h.free) ++ (u ++ v))) := by
    rw [hl, ← List.append_assoc, List.cons_append, ← List.append_assoc]
    exact List.perm_middle.map _
  have hlen := h.length_lt
  rw [List.length_append] at hlen
  have hTf : ∀ x ∈ addrs (b :: h.free), x ∈ h.Touched h' := by
    intro x hx
    rcases List.mem_cons.mp hx with rfl | hx
    · exact hTA _ (by simp)
    · exact hT x (by rw [addrs_append]; exact List.mem_append_left _ hx)
  have hstop : ∀ n ∈ b :: h.free, n.stop ≤ L.stop := by
    intro n hn
    rcases List.mem_cons.mp hn with rfl | hn
    · exact (h.good_alloc hb).stop_le
    · exact (h.good_free hn).stop_le
  have hf₅ := hkeep hat.free fun x hx => ⟨hcellF x hx, fun hm => hFA x hx x hm rfl⟩
  have hl₅ := halloc.unlink h00 hndA
  have hfuel : h.free.length < cellFuel := by
    unfold cellFuel
    omega
  obtain ⟨s₆, hrun, E, h₆, hf₆, hl₆, hd₆⟩ := h₅.pushFree (b := b) (z := total h.regions) rfl
    (hf₅.congr (fun _ _ => rfl) (fun _ _ => rfl) fun _ _ => rfl) h.canon
    (hl₅.congr (fun _ _ => rfl) (fun _ _ => rfl) fun _ _ => rfl)
    (by simpa [Cells.unlink_size] using hsz) (by simp [Cells.unlink_desc, hd]) hTf
    (fun x hx => hcellA x (hsub x hx)) (hperm.nodup_iff.mp hnd₀) hstop hfuel
  refine ⟨s₆, hrun, E, h₆, ?_⟩
  rw [← hfree'] at hf₆ hd₆
  rw [← herase, ← halloc'] at hl₆ hd₆
  exact ⟨hf₆, hl₆, by rw [hd₆, hregions]⟩

end Heap

end SdkPort.OSAlloc
