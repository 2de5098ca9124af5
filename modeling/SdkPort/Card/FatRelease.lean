import SdkPort.Card.FatExact

/-!
# What a release does to the counter

A release follows the entries from any block, and makes each block it comes to free. The
counter stays right as long as no block it comes to is free already. Which blocks it comes
to is told by the table as it was.
-/
namespace SdkPort.Card

open Chains (Leaves)
open Function (update)

variable {s : Control} {g : Nat → Nat} {n x : Nat}

/-- A block in use is free after the step. -/
theorem freeCount_released (hx : x ∈ dataBlocks n) (hf : g x ≠ 0) :
    freeCount (released g x) n = freeCount g n + 1 := by
  have hsame : freeCount (released g x) n = freeCount (update g x 0) n :=
    freeCount_congr fun y hy => released_data hy g
  rw [hsame]
  exact Chains.countP_release (dataBlocks_nodup n) hx hf

/-- A free block is counted again. -/
theorem freeCount_released_free (hf : g x = 0) : freeCount (released g x) n = freeCount g n := by
  apply freeCount_congr
  intro y hy
  rw [released_data hy, ← hf, Function.update_eq_self]

/-- The step does not change which blocks the rest of the walk comes to. -/
theorem leaves_released (hx : x ∈ dataBlocks n) (hf : g x ≠ 0) :
    Leaves 0 (dataBlocks n) (released g x) (g x) ↔ Leaves 0 (dataBlocks n) g x := by
  rw [← Chains.leaves_step hx hf, ← Chains.leaves_release]
  constructor
  · intro h
    exact h.congr fun y hy => (released_data hy g).symm
  · intro h
    exact h.congr fun y hy => released_data hy g

/-- The loop ends where the walk leaves the data blocks. -/
theorem freeLoop_outside (n : Nat) (hx : x ∉ dataBlocks s.cBlock) : ∃ done, freeLoop (n + 1) s x = some (done, s) := by
  have hvalid : ¬ portCARDIsValidBlockNo s x := fun h => hx (mem_dataBlocks.mpr h)
  rw [freeLoop]
  by_cases hF : x = 0xFFFF
  · exact ⟨true, if_pos hF⟩
  · exact ⟨false, by rw [if_neg hF, if_pos hvalid]⟩

theorem zero_not_data (n : Nat) : 0 ∉ dataBlocks n := by
  rw [mem_dataBlocks]
  omega

/-- The blocks in use get fewer at each step but the last two. -/
theorem freeLoop_counts (hb : s.cBlock ≤ PORT_CARD_FAT_ENTRIES) (ht : Table s g)
    (hfree : g PORT_CARD_FAT_FREEBLOCKS = freeCount g s.cBlock) (hn : s.cBlock + 2 ≤ n + freeCount g s.cBlock) :
    ∃ done m g', freeLoop n s x = some (done, { s with mem := m }) ∧ Table { s with mem := m } g' ∧
      (g' PORT_CARD_FAT_FREEBLOCKS = freeCount g' s.cBlock ↔ Leaves 0 (dataBlocks s.cBlock) g x) := by
  have hle := freeCount_le g s.cBlock
  unfold PORT_CARD_NUM_SYSTEM_BLOCK at hle
  have hlt : g PORT_CARD_FAT_FREEBLOCKS + 1 < 2 ^ 16 := by
    unfold PORT_CARD_FAT_ENTRIES at hb
    omega
  induction n generalizing s g x with
  | zero => omega
  | succ n ih =>
    by_cases hx : x ∈ dataBlocks s.cBlock
    · obtain ⟨m, hstep, ht'⟩ := freeLoop_step n hb ht hx hlt
      rw [hstep]
      by_cases hf : g x = 0
      · -- the entry of a free block ends the walk, too late
        have hcount : freeCount (released g x) s.cBlock = freeCount g s.cBlock := freeCount_released_free hf
        obtain ⟨n, rfl⟩ : ∃ k, n = k + 1 := ⟨n - 1, by have := (mem_dataBlocks.mp hx).1; omega⟩
        obtain ⟨done, hr⟩ := freeLoop_outside (s := { s with mem := m }) n (zero_not_data s.cBlock)
        refine ⟨done, m, released g x, by rw [hf]; exact hr, ht', ?_⟩
        rw [released_counter, hcount, hfree]
        constructor
        · intro h
          omega
        · intro h
          exact absurd h (Chains.not_leaves_free hx hf)
      · have hcount : freeCount (released g x) s.cBlock = freeCount g s.cBlock + 1 := freeCount_released hx hf
        have hle' := freeCount_le (released g x) s.cBlock
        have hfree' : released g x PORT_CARD_FAT_FREEBLOCKS = freeCount (released g x) s.cBlock := by
          rw [released_counter, hcount, hfree]
        unfold PORT_CARD_NUM_SYSTEM_BLOCK at hle'
        obtain ⟨done, m', g', hr, h₁, h₂⟩ := @ih { s with mem := m } (released g x) (g x) hb ht' hfree'
          (by dsimp only; omega) hle' (by unfold PORT_CARD_FAT_ENTRIES at hb; omega)
        exact ⟨done, m', g', hr, h₁, h₂.trans (leaves_released hx hf)⟩
    · obtain ⟨done, hr⟩ := freeLoop_outside (s := s) n hx
      exact ⟨done, s.mem, g, hr, ht, iff_of_true hfree (Chains.leaves_outside hx)⟩

/-- The counter of a table, from the counter on. -/
theorem Table.counter {g' : Nat → Nat} (ht : Table s g') (hb : s.cBlock ≤ PORT_CARD_FAT_ENTRIES)
    (hg : ∀ i, 3 ≤ i → g' i = g i) : fatGet s PORT_CARD_FAT_FREEBLOCKS = freeCount (fatGet s) s.cBlock ↔
      g PORT_CARD_FAT_FREEBLOCKS = freeCount g s.cBlock := by
  have hcount : freeCount (fatGet s) s.cBlock = freeCount g s.cBlock := by
    apply freeCount_congr
    intro y hy
    have h5 := (mem_dataBlocks.mp hy).1
    rw [ht.eq y (data_lt hb hy), hg y (by omega)]
  rw [hcount, ht.eq _ (by decide), hg _ (by decide)]

/-- A release ends, and its counter is right exactly when following the entries from its
start block leaves the data blocks before it meets a free block or goes round. -/
theorem free_counts (h : Counted s) (nBlock : Nat) : ∃ r s', portCARDFreeBlock s nBlock = some (r, s') ∧
    (r = PORT_CARD_RESULT_READY ∨ r = PORT_CARD_RESULT_BROKEN) ∧
    (fatGet s' PORT_CARD_FAT_FREEBLOCKS = freeCount (fatGet s') s'.cBlock ↔
      Leaves PORT_CARD_FAT_AVAIL (dataBlocks s.cBlock) (fatGet s) nBlock) := by
  have hhi := h.hi
  unfold PORT_CARD_FAT_ENTRIES at hhi
  obtain ⟨done, m, g, hr, ht, hiff⟩ := freeLoop_counts (n := freeFuel) (x := nBlock) h.hi h.table h.free
    (by unfold freeFuel; omega)
  rw [portCARDFreeBlock, if_neg (not_not.mpr h.attached), hr]
  cases done with
  | true =>
    obtain ⟨g', hready, ht', hg, _⟩ := ht.update
    exact ⟨_, _, rfl, .inl hready, (ht'.counter h.hi hg).trans hiff⟩
  | false => exact ⟨_, _, rfl, .inr rfl, (ht.counter h.hi fun _ _ => rfl).trans hiff⟩

theorem trialCard_free_counts : ∃ r s', portCARDFreeBlock trialCard 5 = some (r, s') ∧
    (r = PORT_CARD_RESULT_READY ∨ r = PORT_CARD_RESULT_BROKEN) ∧
    (fatGet s' PORT_CARD_FAT_FREEBLOCKS = freeCount (fatGet s') s'.cBlock ↔
      Leaves PORT_CARD_FAT_AVAIL (dataBlocks trialCard.cBlock) (fatGet trialCard) 5) :=
  free_counts trialCard_counted 5

/-- A block that is free is counted a second time. -/
theorem free_twice : Counted trialCard ∧ ∃ s', portCARDFreeBlock trialCard 5 = some (PORT_CARD_RESULT_BROKEN, s') ∧
    fatGet s' PORT_CARD_FAT_FREEBLOCKS = 6 ∧ freeCount (fatGet s') s'.cBlock = 5 :=
  ⟨trialCard_counted, _, rfl, by decide +kernel, by decide +kernel⟩

end SdkPort.Card
