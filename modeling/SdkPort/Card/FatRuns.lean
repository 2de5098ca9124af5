import Mathlib.Logic.Relation
import SdkPort.Card.FatAlloc

/-!
# Runs of the allocator

A well-formed table stays so over every run of allocations and releases, and what a run
leaves behind passes the tests of a later check.
-/
namespace SdkPort.Card

open Chains (Chained Forest)
open Function (update update_self update_of_ne)
open Linked (firstOf)
open Relation (ReflTransGen)

variable {s s' : Control} {g g' : Nat → Nat} {n x : Nat} {c : List Nat} {cs : List (List Nat)}

/-- The table of an attached card: the blocks in use form chains, and the counter of free
blocks is right. -/
structure WellFormed (s : Control) (cs : List (List Nat)) : Prop where
  attached : s.attached
  lo : PORT_CARD_NUM_SYSTEM_BLOCK ≤ s.cBlock
  hi : s.cBlock ≤ PORT_CARD_FAT_ENTRIES
  fits : s.fatAddr + PORT_CARD_FAT_ENTRIES * 2 ≤ 2 ^ 32
  maps : s.mem.Maps s.fatAddr (s.fatAddr + PORT_CARD_FAT_ENTRIES * 2)
  files : Files s.cBlock (fatGet s) cs
  nonempty : ∀ c ∈ cs, c ≠ []
  free : fatGet s PORT_CARD_FAT_FREEBLOCKS = freeCount (fatGet s) s.cBlock

/-- What calls may do: allocate, or release a chain from its head. -/
inductive Step : Control → Control → Prop
  | alloc (s : Control) (cBlock : Nat) : Step s (portCARDAllocBlock s cBlock).2
  | free {s s' : Control} {cs : List (List Nat)} {nBlock : Nat} {c : List Nat} {r : Int} :
      WellFormed s cs → nBlock :: c ∈ cs → portCARDFreeBlock s nBlock = some (r, s') → Step s s'

theorem freeCount_congr {b : Nat} (hg : ∀ x ∈ dataBlocks b, g' x = g x) : freeCount g' b = freeCount g b := by
  apply List.countP_congr
  intro x hx
  rw [hg x hx]

/-- The words in front of the data blocks can change. -/
theorem update_header {b i x : Nat} (hx : x ∈ dataBlocks b) (hi : i < 5) (g : Nat → Nat) (v : Nat) :
    update g i v x = g x := by
  have := (mem_dataBlocks.mp hx).1
  exact update_of_ne (by omega) ..

/-- The words after one step of a release. -/
def released (g : Nat → Nat) (x : Nat) : Nat → Nat :=
  update (update g x 0) PORT_CARD_FAT_FREEBLOCKS (g PORT_CARD_FAT_FREEBLOCKS + 1)

theorem released_data {b x y : Nat} (hy : y ∈ dataBlocks b) (g : Nat → Nat) : released g x y = update g x 0 y :=
  update_header hy (by decide) ..

theorem released_counter (g : Nat → Nat) (x : Nat) :
    released g x PORT_CARD_FAT_FREEBLOCKS = g PORT_CARD_FAT_FREEBLOCKS + 1 := update_self ..

/-- A release goes on with the entry of the block. -/
theorem freeLoop_step {x : Nat} (n : Nat) (hb : s.cBlock ≤ PORT_CARD_FAT_ENTRIES) (ht : Table s g)
    (hx : x ∈ dataBlocks s.cBlock) (hfree : g PORT_CARD_FAT_FREEBLOCKS + 1 < 2 ^ 16) :
    ∃ m, freeLoop (n + 1) s x = freeLoop n { s with mem := m } (g x) ∧
      Table { s with mem := m } (released g x) := by
  have hx4 := data_lt hb hx
  have hvalid : portCARDIsValidBlockNo s x := mem_dataBlocks.mp hx
  have hxF : x ≠ 0xFFFF := by
    unfold PORT_CARD_FAT_ENTRIES at hx4
    omega
  have h3x : PORT_CARD_FAT_FREEBLOCKS ≠ x := by
    have := hvalid.1
    unfold PORT_CARD_FAT_FREEBLOCKS PORT_CARD_NUM_SYSTEM_BLOCK at *
    omega
  have ht₁ := ht.set hx4 (v := 0) (by decide)
  have hnew : u16 (fatGet (fatSet s x 0) PORT_CARD_FAT_FREEBLOCKS + 1) = g PORT_CARD_FAT_FREEBLOCKS + 1 := by
    rw [ht₁.eq _ (by decide), update_of_ne h3x]
    exact Nat.mod_eq_of_lt hfree
  have ht₂ := ht₁.set (i := PORT_CARD_FAT_FREEBLOCKS) (by decide) hfree
  refine ⟨_, ?_, ht₂⟩
  rw [freeLoop, if_neg hxF, if_neg (not_not.mpr hvalid), ht.eq x hx4]
  dsimp only
  rw [hnew]
  rfl

/-- Taking a chain apart, each block counted. -/
theorem freeLoop_spec (hb : s.cBlock ≤ PORT_CARD_FAT_ENTRIES) (ht : Table s g)
    (hF : Files s.cBlock g (c :: cs)) (hn : c.length < n)
    (hfree : g PORT_CARD_FAT_FREEBLOCKS + c.length < 2 ^ 16) :
    ∃ m g', freeLoop n s (firstOf 0xFFFF c) = some (true, { s with mem := m }) ∧
      Table { s with mem := m } g' ∧ Files s.cBlock g' cs ∧
      g' PORT_CARD_FAT_FREEBLOCKS = g PORT_CARD_FAT_FREEBLOCKS + c.length := by
  induction c generalizing s g n with
  | nil =>
    cases n with
    | zero => cases hn
    | succ n => exact ⟨s.mem, g, rfl, ht, Forest.nil_cons.mp hF, rfl⟩
  | cons x c ih =>
    cases n with
    | zero => cases hn
    | succ n =>
      have hx : x ∈ dataBlocks s.cBlock := ((hF.cover x).mp (by simp)).1
      have hnext : g x = firstOf 0xFFFF c := (hF.chained (x :: c) List.mem_cons_self).1
      rw [List.length_cons] at hn hfree
      obtain ⟨m₁, hstep, ht₁⟩ := freeLoop_step n hb ht hx (by omega)
      have hF₁ : Files s.cBlock (released g x) (c :: cs) := by
        apply hF.release
        · rw [released_data hx, update_self]
          rfl
        · intro y hy hyx
          rw [released_data hy, update_of_ne hyx]
      obtain ⟨m, g', hr, h₁, h₂, h₃⟩ := ih (by exact hb) ht₁ hF₁ (Nat.lt_of_succ_lt_succ hn)
        (by rw [released_counter]; omega)
      refine ⟨m, g', ?_, h₁, h₂, ?_⟩
      · rw [Linked.firstOf_cons, hstep, hnext]
        exact hr
      · rw [h₃, released_counter, List.length_cons]
        omega

namespace WellFormed

theorem table (h : WellFormed s cs) : Table s (fatGet s) := ⟨h.fits, h.maps, fun _ _ => rfl⟩

theorem of_table (ht : Table s g) (ha : s.attached) (hlo : PORT_CARD_NUM_SYSTEM_BLOCK ≤ s.cBlock)
    (hhi : s.cBlock ≤ PORT_CARD_FAT_ENTRIES) (hF : Files s.cBlock g cs) (hne : ∀ c ∈ cs, c ≠ [])
    (hfree : g PORT_CARD_FAT_FREEBLOCKS = freeCount g s.cBlock) : WellFormed s cs := by
  have hg : ∀ x ∈ dataBlocks s.cBlock, fatGet s x = g x := fun x hx => ht.eq x (data_lt hhi hx)
  refine ⟨ha, hlo, hhi, ht.fits, ht.maps, hF.congr hg, hne, ?_⟩
  rw [ht.eq _ (by decide), hfree]
  exact (freeCount_congr hg).symm

/-- The free count in the table is the one a later check counts. -/
theorem fatFreeMatches (h : WellFormed s cs) : fatFreeMatches s.mem.byte s.fatAddr s.cBlock = true := by
  have hb : u16 s.cBlock = s.cBlock := by
    have := h.hi
    unfold PORT_CARD_FAT_ENTRIES at this
    exact Nat.mod_eq_of_lt (by omega)
  have hr := h.table.rd16be_eq (i := CARD_FAT_FREEBLOCKS) (by decide)
  simp only [Card.fatFreeMatches, decide_eq_true_eq]
  rw [hb, countFree_eq h.table h.hi, hr]
  exact h.free.symm

/-- An update leaves a table that passes a later check. -/
theorem updated (ht : Table s g) (ha : s.attached) (hlo : PORT_CARD_NUM_SYSTEM_BLOCK ≤ s.cBlock)
    (hhi : s.cBlock ≤ PORT_CARD_FAT_ENTRIES) (hF : Files s.cBlock g cs) (hne : ∀ c ∈ cs, c ≠ [])
    (hfree : g PORT_CARD_FAT_FREEBLOCKS = freeCount g s.cBlock) :
    (portCARDUpdateFatBlock s).1 = PORT_CARD_RESULT_READY ∧ WellFormed (portCARDUpdateFatBlock s).2 cs ∧
      Passes (portCARDUpdateFatBlock s).2 := by
  obtain ⟨g', hr, ht', hg, hsums⟩ := ht.update
  have hg' : ∀ x ∈ dataBlocks s.cBlock, g' x = g x := by
    intro x hx
    have := (mem_dataBlocks.mp hx).1
    exact hg x (by omega)
  have hwf : WellFormed (portCARDUpdateFatBlock s).2 cs := by
    apply of_table ht' ha hlo hhi (hF.congr hg') hne
    rw [hg _ (by decide), hfree]
    exact (freeCount_congr hg').symm
  exact ⟨hr, hwf, hsums, hwf.fatFreeMatches⟩

/-- Enough free blocks become one new chain. -/
theorem alloc (h : WellFormed s cs) (hn : n ≤ freeCount (fatGet s) s.cBlock) :
    ∃ w, (portCARDAllocBlock s n).1 = PORT_CARD_RESULT_READY ∧ w.length = n ∧
      WellFormed (portCARDAllocBlock s n).2 (if w = [] then cs else w :: cs) ∧
      (portCARDAllocBlock s n).2.startBlock = firstOf 0xFFFF w ∧ Passes (portCARDAllocBlock s n).2 := by
  have hlt := fatGet_lt s PORT_CARD_FAT_FREEBLOCKS
  have hle : ¬ fatGet s PORT_CARD_FAT_FREEBLOCKS < n := by
    rw [h.free]
    omega
  have hnew : u16 (fatGet s PORT_CARD_FAT_FREEBLOCKS - n) = fatGet s PORT_CARD_FAT_FREEBLOCKS - n :=
    Nat.mod_eq_of_lt (by omega)
  have ht := h.table.set (i := PORT_CARD_FAT_FREEBLOCKS) (v := fatGet s PORT_CARD_FAT_FREEBLOCKS - n)
    (by decide) (by omega)
  have hdata : ∀ (g : Nat → Nat) (v : Nat), ∀ x ∈ dataBlocks s.cBlock, ∀ i, i < 5 → update g i v x = g x := by
    intro g v x hx i hi
    have := (mem_dataBlocks.mp hx).1
    exact update_of_ne (by omega) ..
  have hcount : freeCount (update (fatGet s) PORT_CARD_FAT_FREEBLOCKS
      (fatGet s PORT_CARD_FAT_FREEBLOCKS - n)) s.cBlock = freeCount (fatGet s) s.cBlock :=
    freeCount_congr fun x hx => hdata _ _ x hx _ (by decide)
  have hF : Files s.cBlock (update (fatGet s) PORT_CARD_FAT_FREEBLOCKS
      (fatGet s PORT_CARD_FAT_FREEBLOCKS - n)) ([] :: cs) :=
    Forest.nil_cons.mpr (h.files.congr fun x hx => hdata _ _ x hx _ (by decide))
  obtain ⟨m, g', i, w, hr, ht₁, hF₁, hw, hi, hg⟩ :=
    allocLoop_spec (n := s.cBlock - PORT_CARD_NUM_SYSTEM_BLOCK)
      (i := fatGet (fatSet s PORT_CARD_FAT_FREEBLOCKS (fatGet s PORT_CARD_FAT_FREEBLOCKS - n))
        PORT_CARD_FAT_LASTSLOT)
      (by exact h.hi) ht hF (fun h : [] ≠ [] => absurd rfl h) rfl (fatGet_lt _ _)
      (fun x hx _ => upcoming_all (by exact h.hi) hx _) (Nat.le_trans hn (Nat.le_of_eq hcount.symm))
  have ht₂ := ht₁.set (i := PORT_CARD_FAT_LASTSLOT) (v := i) (by decide) hi
  have hF₂ : Files s.cBlock (update g' PORT_CARD_FAT_LASTSLOT i) (w :: cs) :=
    hF₁.congr fun x hx => hdata _ _ x hx _ (by decide)
  have hfree : update g' PORT_CARD_FAT_LASTSLOT i PORT_CARD_FAT_FREEBLOCKS =
      freeCount (update g' PORT_CARD_FAT_LASTSLOT i) s.cBlock := by
    have hc := h.files.count (dataBlocks_nodup s.cBlock)
    have hc₂ := hF₂.count (dataBlocks_nodup s.cBlock)
    rw [List.flatten_cons, List.length_append, hw] at hc₂
    rw [update_of_ne (by decide), hg _ (by decide), update_self, h.free]
    unfold freeCount at hn ⊢
    unfold dataBlocks PORT_CARD_FAT_AVAIL at hc hc₂
    omega
  have hF₃ : Files s.cBlock (update g' PORT_CARD_FAT_LASTSLOT i) (if w = [] then cs else w :: cs) := by
    split
    · rename_i h0
      rw [h0] at hF₂
      exact Forest.nil_cons.mp hF₂
    · exact hF₂
  have hne : ∀ c ∈ if w = [] then cs else w :: cs, c ≠ [] := by
    intro c hc
    split at hc
    · exact h.nonempty c hc
    · rename_i h0
      cases List.mem_cons.mp hc with
      | inl he => exact he ▸ h0
      | inr hm => exact h.nonempty c hm
  have hs : portCARDAllocBlock s n = portCARDUpdateFatBlock { fatSet { s with mem := m } PORT_CARD_FAT_LASTSLOT i
      with startBlock := firstOf 0xFFFF w } := by
    rw [portCARDAllocBlock, if_neg (not_not.mpr h.attached)]
    dsimp only
    rw [if_neg hle, hnew]
    erw [hr]
    rfl
  rw [hs]
  obtain ⟨h₁, h₂, h₃⟩ := updated (s := { fatSet { s with mem := m } PORT_CARD_FAT_LASTSLOT i
    with startBlock := firstOf 0xFFFF w }) ⟨ht₂.fits, ht₂.maps, ht₂.eq⟩ h.attached h.lo h.hi hF₃ hne hfree
  exact ⟨w, h₁, hw, h₂, rfl, h₃⟩

/-- Too few free blocks change nothing. -/
theorem alloc_refused (h : WellFormed s cs) (hn : freeCount (fatGet s) s.cBlock < n) :
    portCARDAllocBlock s n = (PORT_CARD_RESULT_INSSPACE, s) := by
  rw [portCARDAllocBlock, if_neg (not_not.mpr h.attached)]
  dsimp only
  rw [if_pos (by rw [h.free]; exact hn)]

/-- A chain is released from its head. -/
theorem freed (h : WellFormed s cs) (hc : x :: c ∈ cs) :
    ∃ s', portCARDFreeBlock s x = some (PORT_CARD_RESULT_READY, s') ∧ WellFormed s' (cs.erase (x :: c)) ∧
      Passes s' := by
  have hF := h.files.perm (List.perm_cons_erase hc)
  have hcount := hF.count (dataBlocks_nodup s.cBlock)
  rw [List.flatten_cons, List.length_append, dataBlocks, List.length_range'] at hcount
  have hhi := h.hi
  unfold PORT_CARD_FAT_ENTRIES at hhi
  have hfree : fatGet s PORT_CARD_FAT_FREEBLOCKS + (x :: c).length < 2 ^ 16 := by
    rw [h.free]
    unfold freeCount
    unfold PORT_CARD_FAT_AVAIL at hcount
    omega
  obtain ⟨m, g', hr, ht, hF', h3⟩ := freeLoop_spec (n := freeFuel) h.hi h.table hF (by
    unfold freeFuel
    omega) hfree
  have hfree' : g' PORT_CARD_FAT_FREEBLOCKS = freeCount g' s.cBlock := by
    have hcount' := hF'.count (dataBlocks_nodup s.cBlock)
    rw [dataBlocks, List.length_range'] at hcount'
    rw [h3, h.free]
    unfold freeCount
    unfold PORT_CARD_FAT_AVAIL at hcount hcount'
    omega
  obtain ⟨h₁, h₂, h₃⟩ := updated (s := { s with mem := m }) ht h.attached h.lo h.hi hF'
    (fun k hk => h.nonempty k (List.mem_of_mem_erase hk)) hfree'
  refine ⟨_, ?_, h₂, h₃⟩
  rw [Linked.firstOf_cons] at hr
  rw [portCARDFreeBlock, if_neg (not_not.mpr h.attached), hr]
  exact congrArg some (Prod.ext h₁ rfl)

/-- One call. -/
theorem step (h : WellFormed s cs) (hs : Step s s') : ∃ cs', WellFormed s' cs' := by
  cases hs with
  | alloc n =>
    by_cases hn : n ≤ freeCount (fatGet s) s.cBlock
    · obtain ⟨w, _, _, hwf, _⟩ := h.alloc hn
      exact ⟨_, hwf⟩
    · rw [h.alloc_refused (Nat.not_le.mp hn)]
      exact ⟨cs, h⟩
  | free hwf hc hr =>
    obtain ⟨t, hr', hwf', _⟩ := hwf.freed hc
    cases hr.symm.trans hr'
    exact ⟨_, hwf'⟩

end WellFormed

/-- Every run of calls keeps the table well-formed. No call finds it broken, and the table a
successful call leaves passes a later check. -/
theorem wellFormed_runs (h : WellFormed s cs) (hr : ReflTransGen Step s s') :
    (∃ cs', WellFormed s' cs') ∧
    (∀ n, (portCARDAllocBlock s' n).1 ≠ PORT_CARD_RESULT_BROKEN ∧
      ((portCARDAllocBlock s' n).1 = PORT_CARD_RESULT_READY → Passes (portCARDAllocBlock s' n).2)) ∧
    ∀ cs' x c, WellFormed s' cs' → x :: c ∈ cs' →
      ∃ t, portCARDFreeBlock s' x = some (PORT_CARD_RESULT_READY, t) ∧ Passes t := by
  have hwf : ∃ cs', WellFormed s' cs' := by
    induction hr with
    | refl => exact ⟨cs, h⟩
    | tail _ hs ih =>
      obtain ⟨cs', hwf⟩ := ih
      exact hwf.step hs
  refine ⟨hwf, ?_, ?_⟩
  · intro n
    obtain ⟨cs', hwf⟩ := hwf
    by_cases hn : n ≤ freeCount (fatGet s') s'.cBlock
    · obtain ⟨w, hres, _, _, _, hp⟩ := hwf.alloc hn
      rw [hres]
      exact ⟨by decide, fun _ => hp⟩
    · rw [hwf.alloc_refused (Nat.not_le.mp hn)]
      exact ⟨show PORT_CARD_RESULT_INSSPACE ≠ PORT_CARD_RESULT_BROKEN by decide,
        fun he => absurd he (show PORT_CARD_RESULT_INSSPACE ≠ PORT_CARD_RESULT_READY by decide)⟩
  · intro cs' x c hwf hc
    obtain ⟨t, hres, _, hp⟩ := hwf.freed hc
    exact ⟨t, hres, hp⟩

section Trial

/-- A card of ten blocks with nothing on it. -/
def trialCard : Control where
  mem := ⟨256, 8192, fun x => if x = 7 then 5 else 0⟩
  attached := true
  cBlock := 10
  startBlock := 0
  fatAddr := 256

theorem trialCard_wellFormed : WellFormed trialCard [] := by
  refine ⟨rfl, by decide, by decide, by decide, ⟨by decide, by decide⟩, ⟨nofun, List.nodup_nil, ?_⟩, nofun,
    by decide +kernel⟩
  have hfree : ∀ x ∈ dataBlocks 10, fatGet trialCard x = 0 := by decide +kernel
  intro x
  constructor
  · nofun
  · intro ⟨hx, hn⟩
    exact absurd (hfree x hx) hn

/-- After two allocations a third one does not find the table broken. -/
theorem trialCard_runs : (∃ cs, WellFormed (portCARDAllocBlock (portCARDAllocBlock trialCard 2).2 3).2 cs) ∧
    (portCARDAllocBlock (portCARDAllocBlock (portCARDAllocBlock trialCard 2).2 3).2 1).1 ≠
      PORT_CARD_RESULT_BROKEN := by
  have hr : ReflTransGen Step trialCard (portCARDAllocBlock (portCARDAllocBlock trialCard 2).2 3).2 :=
    (ReflTransGen.single (.alloc trialCard 2)).tail (.alloc _ 3)
  obtain ⟨hwf, hn, _⟩ := wellFormed_runs trialCard_wellFormed hr
  exact ⟨hwf, (hn 1).1⟩

end Trial

end SdkPort.Card
