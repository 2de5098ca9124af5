import SdkPort.Card.FatRuns

/-!
# What an allocation takes

An allocation takes the first free blocks behind the last slot, in circular order, and
links them into one chain; a release of that chain puts back what was there.
-/
namespace SdkPort.Card

open Chains (Chained link)
open Function (update update_self update_of_ne)
open Linked (firstOf lastOf)

variable {s s' : Control} {g g' : Nat → Nat} {b i j k n v x need prev start : Nat} {c l w : List Nat}

section Order

/-- The data blocks in circular order behind a block, from the first one behind a block that
is none of them. -/
def circular (cBlock i : Nat) : List Nat :=
  let first := if 5 ≤ i + 1 ∧ i + 1 < cBlock then i + 1 else 5
  List.range' first (cBlock - first) ++ List.range' 5 (first - 5)

theorem upcoming_add (b j k i : Nat) :
    upcoming b (j + k) i = upcoming b j i ++ upcoming b k (lastOf i (upcoming b j i)) := by
  induction j generalizing i with
  | zero => simp [upcoming]
  | succ j ih =>
    rw [Nat.succ_add, upcoming, upcoming, ih, List.cons_append]
    rfl

/-- Up to the last block the search goes straight on. -/
theorem upcoming_run (hb : b ≤ 4096) (hv : 5 ≤ v) (hk : v + k < b) : upcoming b k v = List.range' (v + 1) k := by
  induction k generalizing v with
  | zero => rfl
  | succ k ih => rw [upcoming, scanNext_succ hb hv (by omega), ih (by omega) (by omega), List.range'_succ]

theorem lastOf_range' (v k : Nat) : lastOf v (List.range' (v + 1) k) = v + k := by
  induction k generalizing v with
  | zero => rfl
  | succ k ih =>
    rw [List.range'_succ, Linked.lastOf_cons, ih]
    omega

/-- The search from a first block on: to the last block, and around. -/
theorem upcoming_around (hb : b ≤ 4096) (hv : 5 ≤ v) (hvb : v < b) :
    v :: upcoming b (b - 6) v = List.range' v (b - v) ++ List.range' 5 (v - 5) := by
  have hsplit : b - 6 = (b - 1 - v) + (v - 5) := by omega
  have hlast : lastOf v (List.range' (v + 1) (b - 1 - v)) = b - 1 := by
    rw [lastOf_range']
    omega
  have hhead : v :: List.range' (v + 1) (b - 1 - v) = List.range' v (b - v) := by
    rw [← List.range'_succ]
    congr 1
    omega
  rw [hsplit, upcoming_add, upcoming_run hb hv (by omega), hlast, ← List.cons_append, hhead]
  congr 1
  cases hk : v - 5 with
  | zero => rfl
  | succ k => rw [upcoming, scanNext_last hb (by omega), upcoming_run hb (by omega) (by omega), List.range'_succ]

theorem scanNext_eq (hb : b ≤ 4096) (hi : i < 2 ^ 16) :
    scanNext b i = if 5 ≤ i + 1 ∧ i + 1 < b then i + 1 else 5 := by
  unfold scanNext PORT_CARD_NUM_SYSTEM_BLOCK u16
  dsimp only
  by_cases h : i + 1 < 2 ^ 16
  · rw [Nat.mod_eq_of_lt h]
  · rw [if_neg (by omega), if_neg (by omega)]

/-- The search passes the data blocks in circular order. -/
theorem upcoming_circular (hb5 : 5 ≤ b) (hb : b ≤ 4096) (hi : i < 2 ^ 16) : upcoming b (b - 5) i = circular b i := by
  by_cases h5 : b = 5
  · subst h5
    rw [circular, if_neg (by omega)]
    rfl
  · obtain ⟨h₁, h₂⟩ := mem_dataBlocks.mp (scanNext_mem (b := b) (by omega) i)
    rw [show b - 5 = b - 6 + 1 by omega, upcoming, upcoming_around hb h₁ h₂, scanNext_eq hb hi]
    rfl

theorem circular_nodup (b i : Nat) : (circular b i).Nodup := by
  rw [circular]
  generalize (if 5 ≤ i + 1 ∧ i + 1 < b then i + 1 else 5) = first
  apply List.nodup_append.mpr
  refine ⟨List.nodup_range', List.nodup_range', ?_⟩
  intro x hx y hy
  rw [List.mem_range'_1] at hx hy
  omega

theorem mem_circular (hb : 5 ≤ b) (i : Nat) : x ∈ circular b i ↔ x ∈ dataBlocks b := by
  rw [mem_dataBlocks, circular, List.mem_append, List.mem_range'_1, List.mem_range'_1]
  split <;> omega

/-- The free blocks behind a block, in circular order. -/
def freeBehind (cBlock : Nat) (g : Nat → Nat) (i : Nat) : List Nat := (circular cBlock i).filter fun x => g x = 0

theorem freeBehind_length (hb : 5 ≤ b) (g : Nat → Nat) (i : Nat) : (freeBehind b g i).length = freeCount g b := by
  have hp : (circular b i).Perm (dataBlocks b) :=
    (List.perm_ext_iff_of_nodup (circular_nodup b i) (dataBlocks_nodup b)).mpr fun x => mem_circular hb i
  rw [freeBehind, ← List.countP_eq_length_filter, hp.countP_eq]
  rfl

theorem mem_freeBehind (hb : 5 ≤ b) : x ∈ freeBehind b g i ↔ x ∈ dataBlocks b ∧ g x = 0 := by
  rw [freeBehind, List.mem_filter, mem_circular hb, decide_eq_true_eq]

end Order

section Take

/-- The next block of the search is free and joins the chain. -/
theorem allocLoop_free (n need : Nat) (hb : s.cBlock ≤ PORT_CARD_FAT_ENTRIES) (ht : Table s (link 0xFFFF l g))
    (hl : ∀ y ∈ l, y ∈ dataBlocks s.cBlock) (hd : l.Nodup) (hprev : l ≠ [] → prev = lastOf 0 l)
    (hstart : start = firstOf 0xFFFF l) (hx : x ∈ dataBlocks s.cBlock) (hxl : x ∉ l) (hf : g x = 0)
    (hscan : scanNext s.cBlock i = x) : ∃ m,
      allocLoop (n + 1) s i prev start (need + 1) =
        allocLoop n { s with mem := m } x x (firstOf 0xFFFF (l ++ [x])) need ∧
      Table { s with mem := m } (link 0xFFFF (l ++ [x]) g) := by
  have hx4 := data_lt hb hx
  have hx16 : x < 2 ^ 16 := by
    unfold PORT_CARD_FAT_ENTRIES at hx4
    omega
  have hget : fatGet s x = PORT_CARD_FAT_AVAIL := by
    rw [ht.eq x hx4, Chains.link_of_not_mem hxl, hf]
    rfl
  have hstep : allocLoop (n + 1) s i prev start (need + 1) =
      if fatGet s x = PORT_CARD_FAT_AVAIL then
        if start = 0xFFFF then allocLoop n (fatSet s x 0xFFFF) x x x need
        else allocLoop n (fatSet (fatSet s prev x) x 0xFFFF) x x start need
      else allocLoop n s x prev start (need + 1) := by
    rw [← hscan]
    rfl
  rw [hstep, if_pos hget]
  by_cases h0 : l = []
  · subst h0
    rw [if_pos (by exact hstart)]
    exact ⟨_, rfl, ht.set hx4 (by decide)⟩
  · have hp := data_lt hb (hl _ (Linked.lastOf_mem (p := 0) h0))
    have hfirst : firstOf 0xFFFF l ≠ 0xFFFF := by
      have hlt := data_lt hb (hl _ (Linked.firstOf_mem (e := 0xFFFF) h0))
      unfold PORT_CARD_FAT_ENTRIES at hlt
      omega
    have hsame : firstOf 0xFFFF (l ++ [x]) = start := by
      rw [hstart]
      cases l with
      | nil => exact absurd rfl h0
      | cons y l => rfl
    rw [if_neg (by rw [hstart]; exact hfirst), hprev h0, hsame, Chains.link_snoc (p := 0) hd hxl h0]
    exact ⟨_, rfl, (ht.set hp hx16).set hx4 (by decide)⟩

/-- The search takes the first free blocks it passes. -/
theorem allocLoop_exact (hb : s.cBlock ≤ PORT_CARD_FAT_ENTRIES) (hb5 : need ≠ 0 → 5 < s.cBlock)
    (ht : Table s (link 0xFFFF l g)) (hl : ∀ y ∈ l, y ∈ dataBlocks s.cBlock) (hd : (l ++ upcoming s.cBlock n i).Nodup)
    (hprev : l ≠ [] → prev = lastOf 0 l) (hstart : start = firstOf 0xFFFF l)
    (hneed : need ≤ ((upcoming s.cBlock n i).filter fun x => g x = 0).length)
    (hw : w = ((upcoming s.cBlock n i).filter fun x => g x = 0).take need) :
    ∃ m, allocLoop n s i prev start need = ({ s with mem := m }, some (lastOf i w, firstOf 0xFFFF (l ++ w))) ∧
      Table { s with mem := m } (link 0xFFFF (l ++ w) g) := by
  induction n generalizing s i l prev start need w with
  | zero =>
    have h0 : need = 0 := Nat.le_zero.mp hneed
    subst h0 hw
    exact ⟨s.mem, by simp [allocLoop, hstart], by simpa using ht⟩
  | succ n ih =>
    cases need with
    | zero =>
      subst hw
      exact ⟨s.mem, by simp [allocLoop, hstart], by simpa using ht⟩
    | succ need =>
      have hx := scanNext_mem (hb5 (Nat.succ_ne_zero _)) i
      generalize hscan : scanNext s.cBlock i = x at hx
      have hup : upcoming s.cBlock (n + 1) i = x :: upcoming s.cBlock n x := by rw [upcoming, hscan]
      rw [hup] at hd hneed hw
      have hxl : x ∉ l := fun hm => (List.nodup_append.mp hd).2.2 x hm x List.mem_cons_self rfl
      have hd' : ((l ++ [x]) ++ upcoming s.cBlock n x).Nodup := by
        rw [List.append_assoc]
        exact hd
      by_cases hf : g x = 0
      · obtain ⟨m, hstep, ht'⟩ := allocLoop_free n need hb ht hl hd.of_append_left hprev hstart hx hxl hf hscan
        rw [List.filter_cons_of_pos (by simpa using hf)] at hneed hw
        rw [List.take_succ_cons] at hw
        have hl' : ∀ y ∈ l ++ [x], y ∈ dataBlocks s.cBlock := by
          intro y hy
          cases List.mem_append.mp hy with
          | inl hy => exact hl y hy
          | inr hy => exact List.mem_singleton.mp hy ▸ hx
        obtain ⟨m', hr, ht''⟩ := @ih { s with mem := m } x need x (firstOf 0xFFFF (l ++ [x])) (l ++ [x]) _ hb
          (fun _ => hb5 (Nat.succ_ne_zero _)) ht' hl' hd' (by simp) rfl (Nat.le_of_succ_le_succ hneed) rfl
        rw [List.append_assoc] at hr ht''
        rw [hw, hstep]
        exact ⟨m', hr, ht''⟩
      · have hx4 := data_lt hb hx
        rw [List.filter_cons_of_neg (by simpa using hf)] at hneed hw
        have hstep : allocLoop (n + 1) s i prev start (need + 1) = allocLoop n s x prev start (need + 1) := by
          rw [allocLoop, ← hscan]
          apply if_neg
          have hget : fatGet s x ≠ PORT_CARD_FAT_AVAIL := by
            rw [ht.eq x hx4, Chains.link_of_not_mem hxl]
            exact hf
          rw [← hscan] at hget
          exact hget
        have hd'' : (l ++ upcoming s.cBlock n x).Nodup := hd.sublist (by simp)
        obtain ⟨m, hr, ht'⟩ := ih hb hb5 ht hl hd'' hprev hstart hneed hw
        have hlast : lastOf x w = lastOf i w := by
          apply lastOf_default
          rintro rfl
          have hlen := congrArg List.length hw
          rw [List.length_take, Nat.min_eq_left hneed] at hlen
          cases hlen
        rw [hstep, ← hlast]
        exact ⟨m, hr, ht'⟩

end Take

section Release

/-- A chain is taken apart: its blocks are free and counted, the others as before. -/
theorem freeLoop_chain (hb : s.cBlock ≤ PORT_CARD_FAT_ENTRIES) (ht : Table s g) (hc : Chained 0xFFFF g c)
    (hd : c.Nodup) (hdata : ∀ x ∈ c, x ∈ dataBlocks s.cBlock) (hn : c.length < n)
    (hfree : g PORT_CARD_FAT_FREEBLOCKS + c.length < 2 ^ 16) :
    ∃ m g', freeLoop n s (firstOf 0xFFFF c) = some (true, { s with mem := m }) ∧ Table { s with mem := m } g' ∧
      (∀ x ∈ dataBlocks s.cBlock, g' x = if x ∈ c then 0 else g x) ∧
      g' PORT_CARD_FAT_FREEBLOCKS = g PORT_CARD_FAT_FREEBLOCKS + c.length := by
  induction c generalizing s g n with
  | nil =>
    obtain ⟨n, rfl⟩ : ∃ k, n = k + 1 := ⟨n - 1, by rw [List.length_nil] at hn; omega⟩
    exact ⟨s.mem, g, rfl, ht, fun x _ => (if_neg nofun).symm, rfl⟩
  | cons x c ih =>
    obtain ⟨n, rfl⟩ : ∃ k, n = k + 1 := ⟨n - 1, by rw [List.length_cons] at hn; omega⟩
    have hx := hdata x List.mem_cons_self
    rw [List.length_cons] at hn hfree
    rw [List.nodup_cons] at hd
    obtain ⟨m₁, hstep, ht₁⟩ := freeLoop_step n hb ht hx (by omega)
    have hc₁ : Chained 0xFFFF (released g x) c := by
      apply hc.2.congr
      intro y hy
      rw [released_data (hdata y (List.mem_cons_of_mem _ hy)), update_of_ne fun he => hd.1 (by rwa [he] at hy)]
    obtain ⟨m, g', hr, h₁, h₂, h₃⟩ := ih (by exact hb) ht₁ hc₁ hd.2 (fun y hy => hdata y (List.mem_cons_of_mem _ hy))
      (Nat.lt_of_succ_lt_succ hn) (by rw [released_counter]; omega)
    refine ⟨m, g', ?_, h₁, ?_, ?_⟩
    · rw [Linked.firstOf_cons, hstep, hc.1]
      exact hr
    · intro y hy
      rw [h₂ y hy, released_data hy]
      by_cases hyx : y = x
      · subst hyx
        rw [if_neg hd.1, if_pos List.mem_cons_self, update_self]
      · simp only [List.mem_cons, hyx, false_or, update_of_ne hyx]
    · rw [h₃, released_counter]
      show _ = g PORT_CARD_FAT_FREEBLOCKS + (c.length + 1)
      omega

end Release

/-- The table of an attached card with a right counter of free blocks, and anything else. -/
structure Counted (s : Control) : Prop where
  attached : s.attached
  lo : PORT_CARD_NUM_SYSTEM_BLOCK ≤ s.cBlock
  hi : s.cBlock ≤ PORT_CARD_FAT_ENTRIES
  fits : s.fatAddr + PORT_CARD_FAT_ENTRIES * 2 ≤ 2 ^ 32
  maps : s.mem.Maps s.fatAddr (s.fatAddr + PORT_CARD_FAT_ENTRIES * 2)
  free : fatGet s PORT_CARD_FAT_FREEBLOCKS = freeCount (fatGet s) s.cBlock

/-- The blocks an allocation of so many takes. -/
def taken (s : Control) (n : Nat) : List Nat :=
  (freeBehind s.cBlock (fatGet s) (fatGet s PORT_CARD_FAT_LASTSLOT)).take n

/-- The table after an allocation. -/
structure Allocated (s s' : Control) (n : Nat) : Prop where
  length : (taken s n).length = n
  start : s'.startBlock = firstOf 0xFFFF (taken s n)
  chained : Chained 0xFFFF (fatGet s') (taken s n)
  counter : fatGet s' PORT_CARD_FAT_FREEBLOCKS + n = fatGet s PORT_CARD_FAT_FREEBLOCKS
  last : fatGet s' PORT_CARD_FAT_LASTSLOT = lastOf (fatGet s PORT_CARD_FAT_LASTSLOT) (taken s n)
  others : ∀ x ∈ dataBlocks s.cBlock, x ∉ taken s n → fatGet s' x = fatGet s x

namespace Counted

theorem table (h : Counted s) : Table s (fatGet s) := ⟨h.fits, h.maps, fun _ _ => rfl⟩

theorem taken_mem (h : Counted s) (hx : x ∈ taken s n) : x ∈ dataBlocks s.cBlock ∧ fatGet s x = 0 :=
  (mem_freeBehind h.lo).mp (List.mem_of_mem_take hx)

theorem taken_length (h : Counted s) (hn : n ≤ freeCount (fatGet s) s.cBlock) : (taken s n).length = n := by
  rw [taken, List.length_take, freeBehind_length h.lo]
  omega

end Counted

theorem taken_nodup (s : Control) (n : Nat) : (taken s n).Nodup :=
  ((circular_nodup s.cBlock _).filter _).sublist (List.take_sublist ..)

/-- The search of an allocation. -/
theorem Counted.search (h : Counted s) (hn : n ≤ freeCount (fatGet s) s.cBlock) (hi : i < 2 ^ 16)
    (ht : Table s' (update (fatGet s) PORT_CARD_FAT_FREEBLOCKS v)) (hs : s'.cBlock = s.cBlock)
    (hlast : i = fatGet s PORT_CARD_FAT_LASTSLOT) :
    ∃ m, allocLoop (s.cBlock - PORT_CARD_NUM_SYSTEM_BLOCK) s' i 0 0xFFFF n =
        ({ s' with mem := m }, some (lastOf i (taken s n), firstOf 0xFFFF (taken s n))) ∧
      Table { s' with mem := m }
        (link 0xFFFF (taken s n) (update (fatGet s) PORT_CARD_FAT_FREEBLOCKS v)) := by
  have hup : upcoming s'.cBlock (s.cBlock - PORT_CARD_NUM_SYSTEM_BLOCK) i = circular s.cBlock i := by
    rw [hs]
    exact upcoming_circular h.lo h.hi hi
  have hfilter : ((upcoming s'.cBlock (s.cBlock - PORT_CARD_NUM_SYSTEM_BLOCK) i).filter fun x =>
      update (fatGet s) PORT_CARD_FAT_FREEBLOCKS v x = 0) = freeBehind s.cBlock (fatGet s) i := by
    rw [hup, freeBehind]
    apply List.filter_congr
    intro x hx
    rw [update_header ((mem_circular h.lo i).mp hx) (by decide)]
  apply allocLoop_exact (l := []) (g := update (fatGet s) PORT_CARD_FAT_FREEBLOCKS v) (hs ▸ h.hi) _ ht nofun _
    (fun h0 => absurd rfl h0) rfl
  · rw [hfilter, freeBehind_length h.lo]
    exact hn
  · rw [hfilter, hlast]
    rfl
  · intro h0
    have hle := freeCount_le (fatGet s) s.cBlock
    rw [hs]
    unfold PORT_CARD_NUM_SYSTEM_BLOCK at hle
    omega
  · rw [List.nil_append, hup]
    exact circular_nodup s.cBlock i

/-- Enough free blocks are taken as they come. -/
theorem Counted.alloc (h : Counted s) (hn : n ≤ freeCount (fatGet s) s.cBlock) :
    ∃ s', portCARDAllocBlock s n = (PORT_CARD_RESULT_READY, s') ∧ Allocated s s' n ∧ s'.attached ∧
      s'.cBlock = s.cBlock ∧ Table s' (fatGet s') := by
  have hlt := fatGet_lt s PORT_CARD_FAT_FREEBLOCKS
  have hfree := h.free
  have hnew : u16 (fatGet s PORT_CARD_FAT_FREEBLOCKS - n) = fatGet s PORT_CARD_FAT_FREEBLOCKS - n :=
    Nat.mod_eq_of_lt (by omega)
  have ht := h.table.set (i := PORT_CARD_FAT_FREEBLOCKS) (v := fatGet s PORT_CARD_FAT_FREEBLOCKS - n)
    (by decide) (by omega)
  have hlast : fatGet (fatSet s PORT_CARD_FAT_FREEBLOCKS (fatGet s PORT_CARD_FAT_FREEBLOCKS - n))
      PORT_CARD_FAT_LASTSLOT = fatGet s PORT_CARD_FAT_LASTSLOT := by
    rw [ht.eq _ (by decide), update_of_ne (by decide)]
  obtain ⟨m, hr, ht₁⟩ := h.search hn (fatGet_lt _ _) ht rfl hlast
  rw [hlast] at hr
  have hdata : ∀ x ∈ taken s n, x ∈ dataBlocks s.cBlock := fun x hx => (h.taken_mem hx).1
  have hw16 : lastOf (fatGet s PORT_CARD_FAT_LASTSLOT) (taken s n) < 2 ^ 16 := by
    by_cases h0 : taken s n = []
    · rw [h0]
      exact fatGet_lt _ _
    · have hlt := data_lt h.hi (hdata _ (Linked.lastOf_mem (p := fatGet s PORT_CARD_FAT_LASTSLOT) h0))
      unfold PORT_CARD_FAT_ENTRIES at hlt
      omega
  have ht₂ := ht₁.set (i := PORT_CARD_FAT_LASTSLOT) (by decide) hw16
  let t : Control := { fatSet { fatSet s PORT_CARD_FAT_FREEBLOCKS (fatGet s PORT_CARD_FAT_FREEBLOCKS - n) with
    mem := m } PORT_CARD_FAT_LASTSLOT (lastOf (fatGet s PORT_CARD_FAT_LASTSLOT) (taken s n)) with
    startBlock := firstOf 0xFFFF (taken s n) }
  have hs : portCARDAllocBlock s n = portCARDUpdateFatBlock t := by
    rw [portCARDAllocBlock, if_neg (not_not.mpr h.attached)]
    dsimp only
    rw [if_neg (by omega), hnew, hlast]
    erw [hr]
  obtain ⟨g', hres, ht', hg, _⟩ := Table.update (s := t) ⟨ht₂.fits, ht₂.maps, ht₂.eq⟩
  have hlink : ∀ x ∈ dataBlocks s.cBlock, fatGet (portCARDUpdateFatBlock t).2 x =
      link 0xFFFF (taken s n) (update (fatGet s) PORT_CARD_FAT_FREEBLOCKS (fatGet s PORT_CARD_FAT_FREEBLOCKS - n)) x := by
    intro x hx
    have h5 := (mem_dataBlocks.mp hx).1
    rw [ht'.eq x (data_lt h.hi hx), hg x (by omega), update_header hx (by decide)]
  refine ⟨(portCARDUpdateFatBlock t).2, hs.trans (Prod.ext hres rfl), ⟨h.taken_length hn, rfl, ?_, ?_, ?_, ?_⟩,
    h.attached, rfl, ht'.fits, ht'.maps, fun _ _ => rfl⟩
  · exact (Chains.link_chained (taken_nodup s n)).congr fun x hx => hlink x (hdata x hx)
  · have h3 : PORT_CARD_FAT_FREEBLOCKS ∉ taken s n := fun hm => absurd (mem_dataBlocks.mp (hdata _ hm)).1 (by decide)
    rw [ht'.eq _ (by decide), hg _ (by decide), update_of_ne (by decide), Chains.link_of_not_mem h3, update_self]
    omega
  · rw [ht'.eq _ (by decide), hg _ (by decide), update_self]
  · intro x hx hxw
    rw [hlink x hx, Chains.link_of_not_mem hxw, update_header hx (by decide)]

/-- A release of the new chain undoes the allocation. -/
theorem Allocated.undone (ha : Allocated s s' n) (h : Counted s) (hs : s'.attached) (hb : s'.cBlock = s.cBlock)
    (ht : Table s' (fatGet s')) : ∃ t, portCARDFreeBlock s' s'.startBlock = some (PORT_CARD_RESULT_READY, t) ∧
      (∀ x ∈ dataBlocks s.cBlock, fatGet t x = fatGet s x) ∧
      fatGet t PORT_CARD_FAT_FREEBLOCKS = fatGet s PORT_CARD_FAT_FREEBLOCKS := by
  have hlt := fatGet_lt s PORT_CARD_FAT_FREEBLOCKS
  have hcount := ha.counter
  have hlen := ha.length
  obtain ⟨m, g', hr, ht', hg', h3⟩ := freeLoop_chain (n := freeFuel) (hb ▸ h.hi) ht ha.chained (taken_nodup s n)
    (fun x hx => hb ▸ (h.taken_mem hx).1) (by unfold freeFuel; omega) (by omega)
  obtain ⟨g'', hres, ht'', hg, _⟩ := Table.update ht'
  refine ⟨(portCARDUpdateFatBlock { s' with mem := m }).2, ?_, ?_, ?_⟩
  · rw [← ha.start] at hr
    rw [portCARDFreeBlock, if_neg (not_not.mpr hs), hr, Option.map_some]
    exact congrArg some (Prod.ext hres rfl)
  · intro x hx
    have h5 := (mem_dataBlocks.mp hx).1
    rw [ht''.eq x (data_lt h.hi hx), hg x (by omega), hg' x (hb.symm ▸ hx)]
    split
    · rename_i hm
      exact (h.taken_mem hm).2.symm
    · rename_i hm
      exact ha.others x hx hm
  · rw [ht''.eq _ (by decide), hg _ (by decide), h3]
    omega

/-- An allocation takes exactly the first free blocks behind the last slot, if there are
enough, and a release of what it took puts everything back. -/
theorem alloc_exact (h : Counted s) (n : Nat) :
    (freeCount (fatGet s) s.cBlock < n → portCARDAllocBlock s n = (PORT_CARD_RESULT_INSSPACE, s)) ∧
    (n ≤ freeCount (fatGet s) s.cBlock → ∃ s' t, portCARDAllocBlock s n = (PORT_CARD_RESULT_READY, s') ∧
      Allocated s s' n ∧ portCARDFreeBlock s' s'.startBlock = some (PORT_CARD_RESULT_READY, t) ∧
      (∀ x ∈ dataBlocks s.cBlock, fatGet t x = fatGet s x) ∧
      fatGet t PORT_CARD_FAT_FREEBLOCKS = fatGet s PORT_CARD_FAT_FREEBLOCKS) := by
  constructor
  · intro hn
    rw [portCARDAllocBlock, if_neg (not_not.mpr h.attached)]
    dsimp only
    rw [if_pos (by rw [h.free]; exact hn)]
  · intro hn
    obtain ⟨s', hr, ha, hs, hb, ht⟩ := h.alloc hn
    obtain ⟨t, hr', hdata, hfree⟩ := ha.undone h hs hb ht
    exact ⟨s', t, hr, ha, hr', hdata, hfree⟩

theorem trialCard_counted : Counted trialCard :=
  ⟨rfl, by decide, by decide, by decide, ⟨by decide, by decide⟩, by decide +kernel⟩

theorem trialCard_exact : ∃ s' t, portCARDAllocBlock trialCard 2 = (PORT_CARD_RESULT_READY, s') ∧
    Allocated trialCard s' 2 ∧ portCARDFreeBlock s' s'.startBlock = some (PORT_CARD_RESULT_READY, t) ∧
    (∀ x ∈ dataBlocks trialCard.cBlock, fatGet t x = fatGet trialCard x) ∧
    fatGet t PORT_CARD_FAT_FREEBLOCKS = fatGet trialCard PORT_CARD_FAT_FREEBLOCKS :=
  (alloc_exact trialCard_counted 2).2 (by decide +kernel)

end SdkPort.Card
