import SdkPort.Card.FatTable

/-!
# Allocating and releasing chains

The circular search passes every data block once before its steps run out, so it finds
as many free blocks as there are. What it takes becomes one chain.
-/
namespace SdkPort.Card

open Chains (Chained Forest)
open Function (update update_self update_of_ne)
open Linked (firstOf lastOf)

def dataBlocks (cBlock : Nat) : List Nat :=
  List.range' PORT_CARD_NUM_SYSTEM_BLOCK (cBlock - PORT_CARD_NUM_SYSTEM_BLOCK)

/-- The chains of the data blocks in use. -/
abbrev Files (cBlock : Nat) (g : Nat → Nat) (cs : List (List Nat)) : Prop :=
  Forest PORT_CARD_FAT_AVAIL 0xFFFF (dataBlocks cBlock) g cs

/-- The block the search looks at after a block. -/
def scanNext (cBlock i : Nat) : Nat :=
  let i := u16 (i + 1)
  if PORT_CARD_NUM_SYSTEM_BLOCK ≤ i ∧ i < cBlock then i else PORT_CARD_NUM_SYSTEM_BLOCK

def upcoming (cBlock : Nat) : Nat → Nat → List Nat
  | 0, _ => []
  | n + 1, i => scanNext cBlock i :: upcoming cBlock n (scanNext cBlock i)

variable {s s' : Control} {g g' : Nat → Nat} {b i n v x need prev start : Nat} {c l : List Nat}
  {cs : List (List Nat)}

theorem mem_dataBlocks : x ∈ dataBlocks b ↔ 5 ≤ x ∧ x < b := by
  unfold dataBlocks PORT_CARD_NUM_SYSTEM_BLOCK
  rw [List.mem_range'_1]
  omega

theorem dataBlocks_nodup (b : Nat) : (dataBlocks b).Nodup := List.nodup_range'

theorem data_lt (hb : b ≤ PORT_CARD_FAT_ENTRIES) (hx : x ∈ dataBlocks b) : x < PORT_CARD_FAT_ENTRIES :=
  Nat.lt_of_lt_of_le (mem_dataBlocks.mp hx).2 hb

theorem scanNext_mem (hb : 5 < b) (i : Nat) : scanNext b i ∈ dataBlocks b := by
  rw [mem_dataBlocks]
  unfold scanNext PORT_CARD_NUM_SYSTEM_BLOCK
  dsimp only
  split <;> omega

theorem scanNext_succ (hb : b ≤ 4096) (hv : 5 ≤ v) (h : v + 1 < b) : scanNext b v = v + 1 := by
  have hu : u16 (v + 1) = v + 1 := Nat.mod_eq_of_lt (by omega)
  unfold scanNext PORT_CARD_NUM_SYSTEM_BLOCK
  dsimp only
  rw [hu, if_pos (by omega)]

theorem scanNext_last (hb : b ≤ 4096) (h : v + 1 = b) : scanNext b v = 5 := by
  have hu : u16 (v + 1) = v + 1 := Nat.mod_eq_of_lt (by omega)
  unfold scanNext PORT_CARD_NUM_SYSTEM_BLOCK
  dsimp only
  rw [hu, if_neg (by omega)]

/-- The blocks ahead come first. -/
theorem upcoming_ahead (hb : b ≤ 4096) (hv : 5 ≤ v) (hx : v < x) (hxb : x < b) (hn : x - v ≤ n) :
    x ∈ upcoming b n v := by
  induction n generalizing v with
  | zero => omega
  | succ n ih =>
    rw [upcoming, scanNext_succ hb hv (by omega)]
    by_cases hxv : x = v + 1
    · exact List.mem_cons.mpr (.inl hxv)
    · exact List.mem_cons_of_mem _ (ih (by omega) (by omega) (by omega))

/-- The blocks behind come after the last block. -/
theorem upcoming_behind (hb : b ≤ 4096) (hv : 5 ≤ v) (hvb : v < b) (hx : 5 ≤ x) (hxv : x ≤ v)
    (hn : b - v + (x - 5) ≤ n) : x ∈ upcoming b n v := by
  induction n generalizing v with
  | zero => omega
  | succ n ih =>
    rw [upcoming]
    by_cases hlast : v + 1 = b
    · rw [scanNext_last hb hlast]
      by_cases h5 : x = 5
      · exact List.mem_cons.mpr (.inl h5)
      · exact List.mem_cons_of_mem _ (upcoming_ahead hb (Nat.le_refl 5) (by omega) (by omega) (by omega))
    · rw [scanNext_succ hb hv (by omega)]
      exact List.mem_cons_of_mem _ (ih (by omega) (by omega) (by omega) (by omega))

/-- As many steps as there are data blocks pass all of them. -/
theorem upcoming_all (hb : b ≤ 4096) (hx : x ∈ dataBlocks b) (i : Nat) : x ∈ upcoming b (b - 5) i := by
  obtain ⟨hx₁, hx₂⟩ := mem_dataBlocks.mp hx
  obtain ⟨hv₁, hv₂⟩ := mem_dataBlocks.mp (scanNext_mem (b := b) (by omega) i)
  rw [show b - 5 = b - 6 + 1 by omega, upcoming]
  rcases Nat.lt_trichotomy x (scanNext b i) with h | h | h
  · exact List.mem_cons_of_mem _ (upcoming_behind hb hv₁ hv₂ hx₁ (by omega) (by omega))
  · exact List.mem_cons.mpr (.inl h)
  · exact List.mem_cons_of_mem _ (upcoming_ahead hb hv₁ h hx₂ (by omega))

theorem lastOf_default {p q : Nat} (h : l ≠ []) : lastOf p l = lastOf q l := by
  cases l with
  | nil => exact absurd rfl h
  | cons x l => rfl

/-- Taking a free block into the new chain. -/
theorem Forest_take (hF : Files b g (l :: cs)) (hx : x ∈ dataBlocks b) (hf : g x = 0)
    (hgx : g' x = 0xFFFF) (hlast : l ≠ [] → g' (lastOf 0 l) = x)
    (hg : ∀ y, y ≠ x → (l ≠ [] → y ≠ lastOf 0 l) → g' y = g y) :
    Files b g' ((l ++ [x]) :: cs) ∧ freeCount g' b + 1 = freeCount g b := by
  have hx0 : x ≠ 0 := by
    have := mem_dataBlocks.mp hx
    omega
  have hF' : Files b g' ((l ++ [x]) :: cs) := by
    apply hF.take (by decide) hx hf hgx _ hx0
    · intro y _ hyx hyl
      apply hg y hyx
      intro h0
      rw [lastOf_default (q := x) h0]
      exact hyl h0
    · intro h0
      rw [lastOf_default (q := 0) h0]
      exact hlast h0
  have hc := hF.count (dataBlocks_nodup b)
  have hc' := hF'.count (dataBlocks_nodup b)
  refine ⟨hF', ?_⟩
  simp only [List.flatten_cons, List.length_append, List.length_cons, List.length_nil] at hc hc'
  unfold freeCount
  unfold dataBlocks PORT_CARD_FAT_AVAIL at hc hc'
  omega

/-- An entry that is free after another was set was free before. -/
theorem free_update {g : Nat → Nat} {x y v : Nat} (hv : v ≠ 0) (h0 : update g x v y = 0) : y ≠ x ∧ g y = 0 := by
  by_cases hyx : y = x
  · rw [hyx, update_self] at h0
    exact absurd h0 hv
  · rw [update_of_ne hyx] at h0
    exact ⟨hyx, h0⟩

/-- One block is taken: the entry of the block before it and its own change. -/
theorem allocLoop_take (n need : Nat) (hb : s.cBlock ≤ PORT_CARD_FAT_ENTRIES) (ht : Table s g)
    (hF : Files s.cBlock g (l :: cs)) (hprev : l ≠ [] → prev = lastOf 0 l)
    (hstart : start = firstOf 0xFFFF l) (hx : scanNext s.cBlock i ∈ dataBlocks s.cBlock)
    (hf : g (scanNext s.cBlock i) = 0) :
    ∃ m g', allocLoop (n + 1) s i prev start (need + 1) =
        allocLoop n { s with mem := m } (scanNext s.cBlock i) (scanNext s.cBlock i)
          (firstOf 0xFFFF (l ++ [scanNext s.cBlock i])) need ∧
      Table { s with mem := m } g' ∧ Files s.cBlock g' ((l ++ [scanNext s.cBlock i]) :: cs) ∧
      freeCount g' s.cBlock + 1 = freeCount g s.cBlock ∧
      (∀ y ∈ dataBlocks s.cBlock, g' y = 0 → y ≠ scanNext s.cBlock i ∧ g y = 0) ∧ ∀ j, j < 5 → g' j = g j := by
  have hx4 := data_lt hb hx
  have hx5 := (mem_dataBlocks.mp hx).1
  have hstep : allocLoop (n + 1) s i prev start (need + 1) =
      if fatGet s (scanNext s.cBlock i) = PORT_CARD_FAT_AVAIL then
        if start = 0xFFFF then allocLoop n (fatSet s (scanNext s.cBlock i) 0xFFFF)
          (scanNext s.cBlock i) (scanNext s.cBlock i) (scanNext s.cBlock i) need
        else allocLoop n (fatSet (fatSet s prev (scanNext s.cBlock i)) (scanNext s.cBlock i) 0xFFFF)
          (scanNext s.cBlock i) (scanNext s.cBlock i) start need
      else allocLoop n s (scanNext s.cBlock i) prev start (need + 1) := rfl
  rw [hstep, ht.eq _ hx4, if_pos (by exact hf)]
  generalize scanNext s.cBlock i = x at hx hf hx4 hx5
  by_cases hl : l = []
  · subst hl
    obtain ⟨hF', hc⟩ := Forest_take hF hx hf (update_self x 0xFFFF g) (fun h => absurd rfl h)
      fun y hy _ => update_of_ne hy 0xFFFF g
    rw [if_pos (by exact hstart)]
    refine ⟨_, _, rfl, ht.set hx4 (by decide), hF', hc, ?_, ?_⟩
    · exact fun y _ h0 => free_update (by decide) h0
    · intro j hj
      exact update_of_ne (by omega) ..
  · have hmem : lastOf 0 l ∈ dataBlocks s.cBlock ∧ g (lastOf 0 l) ≠ 0 := by
      apply (hF.cover _).mp
      rw [List.flatten_cons]
      exact List.mem_append_left _ (Linked.lastOf_mem hl)
    have hp := data_lt hb hmem.1
    have hp5 := (mem_dataBlocks.mp hmem.1).1
    have hpx : lastOf 0 l ≠ x := fun he => hmem.2 (he ▸ hf)
    have hx16 : x < 2 ^ 16 := by
      unfold PORT_CARD_FAT_ENTRIES at hx4
      omega
    have hfirst : firstOf 0xFFFF l = firstOf 0xFFFF (l ++ [x]) := by
      cases l with
      | nil => exact absurd rfl hl
      | cons y l => rfl
    have hne : start ≠ 0xFFFF := by
      have hm : firstOf 0xFFFF l ∈ dataBlocks s.cBlock := by
        apply ((hF.cover _).mp ?_).1
        rw [List.flatten_cons]
        exact List.mem_append_left _ (Linked.firstOf_mem hl)
      have hlt := data_lt hb hm
      unfold PORT_CARD_FAT_ENTRIES at hlt
      omega
    have hlast : update (update g (lastOf 0 l) x) x 0xFFFF (lastOf 0 l) = x := by
      rw [update_of_ne hpx, update_self]
    obtain ⟨hF', hc⟩ := Forest_take hF hx hf (update_self x 0xFFFF (update g (lastOf 0 l) x))
      (fun _ => hlast) fun y hy hyl => by rw [update_of_ne hy, update_of_ne (hyl hl)]
    rw [if_neg hne, hprev hl, hstart, hfirst]
    refine ⟨_, _, rfl, (ht.set hp hx16).set hx4 (by decide), hF', hc, ?_, ?_⟩
    · intro y _ h0
      obtain ⟨hyx, h0⟩ := free_update (by decide) h0
      exact ⟨hyx, (free_update (by omega) h0).2⟩
    · intro j hj
      rw [update_of_ne (by omega), update_of_ne (by omega)]

/-- The search with enough free blocks ahead of it. -/
theorem allocLoop_spec (hb : s.cBlock ≤ PORT_CARD_FAT_ENTRIES) (ht : Table s g)
    (hF : Files s.cBlock g (l :: cs)) (hprev : l ≠ [] → prev = lastOf 0 l)
    (hstart : start = firstOf 0xFFFF l) (hi : i < 2 ^ 16)
    (hscan : ∀ x ∈ dataBlocks s.cBlock, g x = 0 → x ∈ upcoming s.cBlock n i)
    (hneed : need ≤ freeCount g s.cBlock) :
    ∃ m g' i' w, allocLoop n s i prev start need =
        ({ s with mem := m }, some (i', firstOf 0xFFFF (l ++ w))) ∧
      Table { s with mem := m } g' ∧ Files s.cBlock g' ((l ++ w) :: cs) ∧ w.length = need ∧ i' < 2 ^ 16 ∧
      ∀ j, j < 5 → g' j = g j := by
  induction n generalizing s g i prev start need l with
  | zero =>
    cases need with
    | zero => exact ⟨s.mem, g, i, [], by simp [allocLoop, hstart], ht, by simpa using hF, rfl, hi, fun _ _ => rfl⟩
    | succ need =>
      have h0 : freeCount g s.cBlock = 0 := by
        apply List.countP_eq_zero.mpr
        intro x hx hf
        have hm := hscan x hx (by simpa using hf)
        cases hm
      omega
  | succ n ih =>
    cases need with
    | zero => exact ⟨s.mem, g, i, [], by simp [allocLoop, hstart], ht, by simpa using hF, rfl, hi, fun _ _ => rfl⟩
    | succ need =>
      have hb5 : 5 < s.cBlock := by
        have hle := freeCount_le g s.cBlock
        unfold PORT_CARD_NUM_SYSTEM_BLOCK at hle
        omega
      have hx := scanNext_mem hb5 i
      have hx16 : scanNext s.cBlock i < 2 ^ 16 := by
        have hx4 := data_lt hb hx
        unfold PORT_CARD_FAT_ENTRIES at hx4
        omega
      by_cases hf : g (scanNext s.cBlock i) = 0
      · obtain ⟨m, g₁, hstep, ht₁, hF₁, hc, hfree, hhead⟩ :=
          allocLoop_take n need hb ht hF hprev hstart hx hf
        rw [hstep]
        have hscan₁ : ∀ y ∈ dataBlocks s.cBlock, g₁ y = 0 → y ∈ upcoming s.cBlock n (scanNext s.cBlock i) := by
          intro y hy h0
          obtain ⟨hne, h0⟩ := hfree y hy h0
          exact (List.mem_cons.mp (hscan y hy h0)).resolve_left hne
        have hlast : l ++ [scanNext s.cBlock i] ≠ [] → scanNext s.cBlock i = lastOf 0 (l ++ [scanNext s.cBlock i]) := by
          simp
        obtain ⟨m', g', i', w, hr, h₁, h₂, h₃, h₄, h₅⟩ :=
          ih (by exact hb) ht₁ hF₁ hlast rfl hx16 hscan₁ (by exact Nat.le_of_succ_le_succ (hc ▸ hneed))
        rw [List.append_assoc] at hr h₂
        exact ⟨m', g', i', _, hr, h₁, h₂, by simp [h₃], h₄, fun j hj => (h₅ j hj).trans (hhead j hj)⟩
      · have hx4 := data_lt hb hx
        have hstep : allocLoop (n + 1) s i prev start (need + 1) =
            allocLoop n s (scanNext s.cBlock i) prev start (need + 1) := by
          rw [allocLoop]
          exact if_neg (by rw [ht.eq _ (by exact hx4)]; exact hf)
        rw [hstep]
        apply ih hb ht hF hprev hstart hx16 _ hneed
        intro y hy h0
        cases List.mem_cons.mp (hscan y hy h0) with
        | inl he => exact absurd (he ▸ h0) hf
        | inr hm => exact hm

end SdkPort.Card
