import SdkPort.OS.HeapRuns

/-!
# What one call does

Every allowed call returns, and leads from heaps on regions of their own to such heaps. It
writes nothing in the regions of a heap that it does not name.
-/
namespace SdkPort.OSAlloc

open Linked (firstOf)
open Runs (Gives gives_bind gives_pure run_bind_ok)
open Blocks (Block cover total cover_cons)

variable {L : Layout} {A : Set Nat} {s s' : Mach} {G : Accounts} {C : Cells} {i : Nat} {r : Block}
  {H : Nat → Option (Heap L)} {h h' : Heap L} {start stop : Nat}

theorem dvd_roundDown (x : Nat) : 32 ∣ roundDown x ALIGNMENT := by
  apply Nat.dvd_of_mod_eq_zero
  have hm : roundDown x ALIGNMENT % 2 ^ 5 = (x % 2 ^ 5) &&& ((2 ^ 32 - ALIGNMENT) % 2 ^ 5) :=
    Nat.and_mod_two_pow
  rw [show (2 ^ 32 - ALIGNMENT) % 2 ^ 5 = 0 by decide, Nat.and_zero] at hm
  exact hm

/-- A vacant range can be a cell. -/
theorem Vacant.good (hv : Vacant L G (rangeOf start stop)) (hL : L.stop = 32 * (L.hi / 32)) :
    L.Good (rangeOf start stop) := by
  have h₁ := hv.low
  have h₂ := hv.high
  have h₃ := hv.array
  have h₄ := hv.least
  have h₅ : 32 ∣ (rangeOf start stop).addr := dvd_roundDown _
  have h₆ : 32 ∣ (rangeOf start stop).size := Nat.dvd_sub (dvd_roundDown _) h₅
  have h₇ : (rangeOf start stop).stop ≤ L.stop := by
    have h₈ : 32 ∣ (rangeOf start stop).stop := Nat.dvd_add h₅ h₆
    omega
  simp only [Blocks.Disjoint, Block.stop] at h₂ h₃ h₇
  refine ⟨⟨h₅, by omega, by omega⟩, h₆, h₄, h₇⟩

/-- The bytes of a vacant range are in no region. -/
theorem Vacant.cover_eq (hT : Tracks L s G C H) (hv : Vacant L G r) {k : Heap L} {j : Nat}
    (hk : H j = some k) {x : Nat} (hx : r.Has x) : cover k.regions x = 0 := by
  have hj := (hT.live j k hk).1
  have hG : k.account ∈ G j := by
    rw [hT.account, hk]
    rfl
  rw [Blocks.cover_eq_zero]
  intro b hb hbx
  have := hv.apart j hj _ hG b hb
  simp only [Blocks.Disjoint, Block.Has, Block.stop] at this hx hbx
  omega

/-- The header of a cell lies in the regions of its heap. -/
theorem Heap.header_covered (h : Heap L) {c y : Nat} (hc : c ∈ addrs (h.free ++ h.alloc)) (h₁ : c ≤ y)
    (h₂ : y < c + 32) : cover h.regions y ≠ 0 := by
  obtain ⟨b, hb, rfl⟩ := exists_of_mem_addrs hc
  have := (h.good b hb).least
  refine h.covers hb ?_
  simp only [Block.Has, Block.stop]
  omega

/-- One heap has changed, in regions of its own. -/
theorem Tracks.lands (hT : Tracks L s G C H) (hi : i < L.n) (hl : Lands A i s s' h')
    (hA : ∀ x ∈ A, ∀ y, x ≤ y → y < x + 32 → cover h'.regions y ≠ 0)
    (ho : ∀ j k, j ≠ i → H j = some k → ∀ x, cover h'.regions x = 0 ∨ cover k.regions x = 0) :
    ∃ D, Tracks L s' (Function.update G i (some h'.account)) D (Function.update H i (some h')) := by
  obtain ⟨D, hh, hat⟩ := hl
  have hcells : ∀ j k, j ≠ i → H j = some k → ∀ x ∈ addrs (k.free ++ k.alloc), L.Cell x ∧ x ∉ A := by
    intro j k hj hk x hx
    refine ⟨k.cell_of_mem hx, fun hm => ?_⟩
    have h₁ := hA x hm x (by omega) (by omega)
    have h₂ := k.header_covered hx (y := x) (by omega) (by omega)
    exact (ho j k hj hk x).elim h₁ h₂
  have hdesc : ∀ j < L.n, j ≠ i → D.desc j = C.desc j := fun j hj hji =>
    hh.desc_eq hT.shows hj (by simpa using hji)
  refine ⟨D, hh.shows, hT.stop_eq, ?_, ?_, ?_, ?_⟩
  · intro j k hk
    by_cases hj : j = i
    · subst hj
      rw [Function.update_self] at hk
      cases hk
      exact ⟨hi, hat⟩
    · rw [Function.update_of_ne hj] at hk
      obtain ⟨hjn, hk'⟩ := hT.live j k hk
      have hc := hcells j k hj hk
      simp only [addrs_append, List.mem_append] at hc
      refine ⟨hjn, hh.keeps hT.shows hk'.free fun x hx => hc x (.inl hx),
        hh.keeps hT.shows hk'.alloc fun x hx => hc x (.inr hx), ?_⟩
      rw [hdesc j hjn hj]
      exact hk'.desc
  · intro j hj hn
    by_cases hji : j = i
    · subst hji
      rw [Function.update_self] at hn
      cases hn
    · rw [Function.update_of_ne hji] at hn
      rw [hdesc j hj hji]
      exact hT.dead j hj hn
  · intro j
    by_cases hj : j = i
    · subst hj
      simp
    · rw [Function.update_of_ne hj, Function.update_of_ne hj]
      exact hT.account j
  · intro j l k m hjl hk hm x
    by_cases hj : j = i <;> by_cases hl : l = i
    · exact absurd (hj.trans hl.symm) hjl
    · rw [hj, Function.update_self] at hk
      rw [Function.update_of_ne hl] at hm
      cases hk
      exact ho l m hl hm x
    · rw [hl, Function.update_self] at hm
      rw [Function.update_of_ne hj] at hk
      cases hm
      exact (ho j k hj hk x).symm
    · rw [Function.update_of_ne hj] at hk
      rw [Function.update_of_ne hl] at hm
      exact hT.apart j l k m hjl hk hm x

/-- What a change of one heap leaves alone. -/
theorem Tracks.effect {c : Call} {v : Int} (hi : i < L.n) (hl : Lands A i s s' h') (hnames : c.names v = i)
    (hA : ∀ x ∈ A, ∀ y, x ≤ y → y < x + 32 → cover h'.regions y ≠ 0)
    (ho : ∀ j k, j ≠ i → H j = some k → ∀ x, cover h'.regions x = 0 ∨ cover k.regions x = 0)
    (hown : ∀ x ∈ A, ∀ h ∈ H i, ∀ b ∈ h.alloc, c ≠ .free i (b.addr + 0x20) → x ≤ b.addr ∨ b.stop ≤ x) :
    Effect A s s' c v H (Function.update H i (some h')) (L := L) := by
  obtain ⟨D, hh, _⟩ := hl
  refine ⟨hh.cells, ?_, ?_, ?_, ?_⟩
  · refine hh.within.mono (written_mono Set.Subset.rfl ?_)
    rintro j rfl
    exact ⟨hi, hnames.symm⟩
  · intro j hj
    rw [Function.update_of_ne (by omega)]
  · intro x hx y h₁ h₂ j hj k hk
    exact (ho j k (by omega) hk y).resolve_left (hA x hx y h₁ h₂)
  · intro x hx j hj k hk b hb hne
    have hji : j = i := by omega
    subst hji
    exact hown x hx k hk b hb hne

/-- What a call leads to. -/
structure Leads (L : Layout) (s : Mach) (G : Accounts) (H : Nat → Option (Heap L)) (c : Call) (v : Int)
    (s' : Mach) (D : Cells) (H' : Nat → Option (Heap L)) : Prop where
  run : c.run s = .ok (v, s')
  tracks : Tracks L s' (c.settle G v) D H'
  effect : ∃ A, Effect A s s' c v H H' (L := L)

theorem Accounts.of_natCast (G : Accounts) (i : Nat) : G.of i = G i := if_pos (Int.natCast_nonneg i)

theorem Accounts.set_natCast (G : Accounts) (i : Nat) (a : Option Account) :
    G.set i a = Function.update G i a := if_pos (Int.natCast_nonneg i)

/-- A call that writes nothing and returns what settles nothing. -/
theorem Tracks.idle (hT : Tracks L s G C H) {c : Call} {v : Int} (hrun : c.run s = .ok (v, s'))
    (hh : Holds L ∅ ∅ s s' C) (hG : c.settle G v = G) : Leads L s G H c v s' C H := by
  refine ⟨hrun, ⟨hh.shows, hT.stop_eq, hT.live, hT.dead, by rw [hG]; exact hT.account, hT.apart⟩, ∅,
    nofun, hh.within.mono (written_mono (Set.empty_subset _) (Set.empty_subset _)), fun _ _ => rfl, ?_, ?_⟩
  · exact fun x hx => hx.elim
  · exact fun x hx => hx.elim

/-- A change of one heap in the accounts. -/
theorem Tracks.lead (hT : Tracks L s G C H) {c : Call} {v : Int} (hi : i < L.n)
    (hrun : c.run s = .ok (v, s')) (hl : Lands A i s s' h') (hnames : c.names v = i)
    (hG : c.settle G v = Function.update G i (some h'.account))
    (hA : ∀ x ∈ A, ∀ y, x ≤ y → y < x + 32 → cover h'.regions y ≠ 0)
    (ho : ∀ j k, j ≠ i → H j = some k → ∀ x, cover h'.regions x = 0 ∨ cover k.regions x = 0)
    (hown : ∀ x ∈ A, ∀ h ∈ H i, ∀ b ∈ h.alloc, c ≠ .free i (b.addr + 0x20) → x ≤ b.addr ∨ b.stop ≤ x) :
    ∃ v s' D H', Leads L s G H c v s' D H' := by
  obtain ⟨D, hD⟩ := hT.lands hi hl hA ho
  refine ⟨v, s', D, Function.update H i (some h'), hrun, ?_, A, ?_⟩
  · rwa [hG]
  · exact Tracks.effect hi hl hnames hA ho hown

/-- A heap that does not exist. -/
theorem Tracks.dead_of (hT : Tracks L s G C H) {heap : Int} (hn : G.of heap = none) :
    ∀ i < L.n, heap = i → 2 ^ 31 ≤ (C.desc i).size := by
  rintro i hi rfl
  rw [Accounts.of_natCast, hT.account, Option.map_eq_none_iff] at hn
  exact hT.dead i hi hn

/-- A heap that exists. -/
theorem Tracks.live_of (hT : Tracks L s G C H) {heap : Int} {a : Account} (ha : G.of heap = some a) :
    ∃ (i : Nat) (h : Heap L), heap = i ∧ H i = some h ∧ a = h.account ∧ i < L.n ∧ h.At C i := by
  unfold Accounts.of at ha
  split at ha
  · rw [hT.account, Option.map_eq_some_iff] at ha
    obtain ⟨h, hh, rfl⟩ := ha
    exact ⟨heap.toNat, h, by omega, hh, rfl, hT.live _ h hh⟩
  · cases ha

theorem Accounts.set_none (G : Accounts) {heap : Int} (hn : G.of heap = none) : G.set heap none = G := by
  unfold Accounts.set
  split
  · rename_i h0
    rw [Accounts.of, if_pos h0] at hn
    rw [← hn, Function.update_eq_self]
  · rfl

/-- The cells of a heap and of the one it becomes are apart from what stays in use. -/
theorem Heap.touched_apart {x : Nat} (hx : x ∈ h.Touched h') {b : Block} (hb : b ∈ h.alloc)
    (hb' : b ∈ h'.alloc) : x ≤ b.addr ∨ b.stop ≤ x := by
  rcases hx with hx | hx
  · exact h.addr_apart hx (List.mem_append_right _ hb)
  · exact h'.addr_apart hx (List.mem_append_right _ hb')

theorem Heap.touched_covered {x y : Nat} (hx : x ∈ h.Touched h')
    (hr : ∀ x, cover h.regions x ≠ 0 → cover h'.regions x ≠ 0) (h₁ : x ≤ y) (h₂ : y < x + 32) :
    cover h'.regions y ≠ 0 := by
  rcases hx with hx | hx
  · exact hr y (h.header_covered hx h₁ h₂)
  · exact h'.header_covered hx h₁ h₂

theorem Tracks.alloc (hT : Tracks L s G C H) {heap : Int} {size : Nat} (hs : size ≤ 0x7FFFFFC0) :
    ∃ v s' D H', Leads L s G H (.alloc heap size) v s' D H' := by
  have hh₀ : Holds L ∅ ∅ s s C := .refl hT.shows (by simp) (by simp)
  -- no memory: nothing is written
  have hnone : Gives (Holds L ∅ ∅ s) (OSAllocFromHeap heap size s) 0 C →
      ∃ v s' D H', Leads L s G H (.alloc heap size) v s' D H' := by
    rintro ⟨s', hrun, hh⟩
    exact ⟨0, s', C, H, hT.idle (run_bind_ok hrun) hh rfl⟩
  rcases Nat.eq_zero_or_pos size with rfl | h0
  · exact hnone ⟨s, rfl, hh₀⟩
  cases hG : G.of heap with
  | none =>
    apply hnone
    unfold OSAllocFromHeap
    rw [toS32_of_lt (by omega), if_neg (by omega)]
    exact gives_bind (hh₀.openHeap_none (hT.dead_of hG)) fun s₁ h₁ => gives_pure 0 h₁
  | some a =>
    obtain ⟨i, h, rfl, hh, rfl, hi, hat⟩ := hT.live_of hG
    cases hp : Blocks.takeFit 0x40 (requestOf size) h.free with
    | none => exact hnone (h.alloc_none hh₀ hi hat h0 hs hp)
    | some p =>
      obtain ⟨s', hrun, hl⟩ := h.alloc_some hT.shows hi hat h0 hs hp
      refine hT.lead hi (run_bind_ok hrun) hl rfl ?_ (fun x hx y h₁ h₂ =>
        Heap.touched_covered hx (fun _ hx => hx) h₁ h₂) (fun j k hj hk => hT.apart i j h k hj.symm hh hk) ?_
      · show (if ((p.1.addr + 0x20 : Nat) : Int) = 0 then G else _) = _
        rw [if_neg (by omega), hG, Accounts.set_natCast]
        rfl
      · intro x hx k hk b hb _
        rw [hh] at hk
        cases hk
        exact Heap.touched_apart hx hb (List.mem_cons_of_mem _ hb)

theorem Tracks.free (hT : Tracks L s G C H) {heap : Int} {ptr : Nat} {a : Account}
    (ha : G.of heap = some a) (hp : ptr ∈ a.live) :
    ∃ v s' D H', Leads L s G H (.free heap ptr) v s' D H' := by
  have ha₀ := ha
  obtain ⟨i, h, rfl, hh, rfl, hi, hat⟩ := hT.live_of ha
  obtain ⟨b, hb, rfl⟩ := List.mem_map.mp hp
  obtain ⟨s', hrun, hl⟩ := h.free_gives hT.shows hi hat hb
  have hlive : (h.account.live.erase (b.addr + 0x20)) = (h.released hb).account.live :=
    (h.live_erase hb).symm
  refine hT.lead hi (run_bind_ok (k := fun _ => pure 0) hrun) hl rfl ?_ (fun x hx y h₁ h₂ =>
    Heap.touched_covered hx (fun _ hx => hx) h₁ h₂) (fun j k hj hk => hT.apart i j h k hj.symm hh hk) ?_
  · show G.set i ((G.of i).map _) = _
    rw [ha₀, Accounts.set_natCast, Option.map_some, hlive]
    rfl
  · intro x hx k hk c hc hne
    rw [hh] at hk
    cases hk
    have hcb : c ≠ b := fun he => hne (by rw [he])
    exact Heap.touched_apart hx hc ((List.mem_erase_of_ne hcb).mpr hc)

theorem Tracks.addToHeap (hT : Tracks L s G C H) {heap : Int} (hv : Vacant L G (rangeOf start stop))
    (ht : ∀ a ∈ G.of heap, total a.regions + (rangeOf start stop).size < 2 ^ 31) :
    ∃ v s' D H', Leads L s G H (.addToHeap heap start stop) v s' D H' := by
  cases hG : G.of heap with
  | none =>
    have hh₀ : Holds L ∅ ∅ s s C := .refl hT.shows (by simp) (by simp)
    have hg : Gives (Holds L ∅ ∅ s) (OSAddToHeap heap start stop s) () C := by
      unfold OSAddToHeap
      exact gives_bind (hh₀.openHeap_none (hT.dead_of hG)) fun s₁ h₁ => gives_pure () h₁
    obtain ⟨s', hrun, hh⟩ := hg
    refine ⟨0, s', C, H, hT.idle (run_bind_ok (k := fun _ => pure 0) hrun) hh ?_⟩
    show G.set heap ((G.of heap).map _) = G
    rw [hG]
    exact G.set_none hG
  | some a =>
    obtain ⟨i, h, rfl, hh, rfl, hi, hat⟩ := hT.live_of hG
    have hgood := hv.good hT.stop_eq
    have hcover : ∀ {j k}, H j = some k → ∀ x, (rangeOf start stop).Has x → cover k.regions x = 0 :=
      fun hk x hx => hv.cover_eq hT hk hx
    obtain ⟨s', hrun, hl⟩ := h.add_gives hT.shows hi hat hgood (hcover hh) (ht _ hG)
    generalize hh' : h.extended hgood (hcover hh) (ht _ hG) = h' at hl
    have hregions : h'.regions = rangeOf start stop :: h.regions := hh' ▸ rfl
    have halloc : h'.alloc = h.alloc := hh' ▸ rfl
    refine hT.lead hi (run_bind_ok (k := fun _ => pure 0) hrun) hl rfl ?_ ?_ ?_ ?_
    · show G.set i ((G.of i).map _) = _
      have hacc : h'.account = ⟨rangeOf start stop :: h.regions, h.account.live⟩ := by
        rw [Heap.account, hregions, halloc]
        rfl
      rw [hG, Accounts.set_natCast, hacc]
      rfl
    · rintro x (rfl | hx) y h₁ h₂
      · have hin : (rangeOf start stop).Has y := by
          have := hgood.least
          simp only [Block.Has, Block.stop]
          omega
        rw [hregions, cover_cons, if_pos hin]
        omega
      · refine Heap.touched_covered hx (fun y hy => ?_) h₁ h₂
        rw [hregions, cover_cons]
        omega
    · intro j k hj hk x
      rw [hregions, cover_cons]
      by_cases hx : (rangeOf start stop).Has x
      · exact .inr (hcover hk x hx)
      · rw [if_neg hx]
        exact hT.apart i j h k hj.symm hh hk x
    · rintro x (rfl | hx) k hk b hb _
      · rw [hh] at hk
        cases hk
        by_contra hn
        have hin : b.Has (rangeOf start stop).addr := by
          simp only [Block.Has]
          omega
        refine h.covers (List.mem_append_right _ hb) hin (hcover hh _ ⟨by omega, ?_⟩)
        have := hgood.least
        simp only [Block.stop]
        omega
      · rw [hh] at hk
        cases hk
        exact Heap.touched_apart hx hb (by rwa [halloc])

theorem Tracks.create (hT : Tracks L s G C H) (hv : Vacant L G (rangeOf start stop))
    (hlt : (rangeOf start stop).size < 2 ^ 31) :
    ∃ v s' D H', Leads L s G H (.create start stop) v s' D H' := by
  have hsize : ∀ i h, H i = some h → (C.desc i).size < 2 ^ 31 := by
    intro i h hh
    rw [(hT.live i h hh).2.desc]
    exact h.total_lt
  by_cases hfull : ∃ i, i < L.n ∧ H i = none
  · -- the first descriptor that is not in use
    have hi := Nat.find_spec hfull
    have hmin : ∀ j < Nat.find hfull, (C.desc j).size < 2 ^ 31 := by
      intro j hj
      have hjn := Nat.find_min hfull hj
      cases hH : H j with
      | none => exact absurd ⟨Nat.lt_trans hj hi.1, hH⟩ hjn
      | some h => exact hsize j h hH
    generalize Nat.find hfull = i at hi hmin
    obtain ⟨hi, hnone⟩ := hi
    have hgood := hv.good hT.stop_eq
    obtain ⟨s', hrun, hl⟩ := create_some hT.shows hi hgood hlt (hT.dead i hi hnone) hmin
    refine hT.lead (c := .create start stop) hi hrun hl rfl ?_ ?_ ?_ ?_
    · exact G.set_natCast i _
    · rintro x rfl y h₁ h₂
      have hin : (rangeOf start stop).Has y := by
        have := hgood.least
        simp only [Block.Has, Block.stop]
        omega
      show cover [rangeOf start stop] y ≠ 0
      rw [cover_cons, if_pos hin]
      omega
    · intro j k _ hk x
      show cover [rangeOf start stop] x = 0 ∨ _
      rw [cover_cons, Blocks.cover_nil]
      by_cases hx : (rangeOf start stop).Has x
      · exact .inr (hv.cover_eq hT hk hx)
      · rw [if_neg hx]
        exact .inl rfl
    · intro x _ k hk
      rw [hnone] at hk
      cases hk
  · have hh₀ : Holds L ∅ ∅ s s C := .refl hT.shows (by simp) (by simp)
    have hlive : ∀ i < L.n, (C.desc i).size < 2 ^ 31 := by
      intro i hi
      cases hH : H i with
      | none => exact absurd ⟨i, hi, hH⟩ hfull
      | some h => exact hsize i h hH
    obtain ⟨s', hrun, hh⟩ := hh₀.create_none start stop hlive
    exact ⟨-1, s', C, H, hT.idle (c := .create start stop) hrun hh rfl⟩

theorem Tracks.destroy (hT : Tracks L s G C H) {heap : Int} :
    ∃ v s' D H', Leads L s G H (.destroy heap) v s' D H' := by
  by_cases hout : ∀ i < L.n, heap ≠ (i : Nat)
  · have hh₀ : Holds L ∅ ∅ s s C := .refl hT.shows (by simp) (by simp)
    obtain ⟨s', hrun, hh⟩ := hh₀.destroy_none hout
    refine ⟨0, s', C, H, hT.idle (run_bind_ok (k := fun _ => pure 0) hrun) hh (G.set_none ?_)⟩
    unfold Accounts.of
    split
    · rw [hT.account, Option.map_eq_none_iff]
      cases hH : H heap.toNat with
      | none => rfl
      | some h => exact absurd (by omega) (hout heap.toNat (hT.live _ h hH).1)
    · rfl
  · obtain ⟨i, hi, rfl⟩ : ∃ i < L.n, heap = (i : Nat) := by
      by_contra hn
      exact hout fun i hi he => hn ⟨i, hi, he⟩
    have hh₀ : Holds L ∅ {i} s s C := .refl hT.shows (by simp) (by simpa using hi)
    obtain ⟨s', hrun, hh⟩ := hh₀.destroy hi rfl
    have hne : ∀ {j k}, Function.update H i none j = some k → j ≠ i ∧ H j = some k := by
      intro j k hk
      by_cases hj : j = i
      · subst hj
        rw [Function.update_self] at hk
        cases hk
      · rw [Function.update_of_ne hj] at hk
        exact ⟨hj, hk⟩
    refine ⟨0, s', C.modDesc i ({ · with size := 0xFFFFFFFF }), Function.update H i none,
      run_bind_ok (k := fun _ => pure 0) hrun, ⟨hh.shows, hT.stop_eq, ?_, ?_, ?_, ?_⟩, ∅, ?_⟩
    · intro j k hk
      obtain ⟨hj, hk⟩ := hne hk
      obtain ⟨hjn, hat⟩ := hT.live j k hk
      refine ⟨hjn, hat.free.congr (fun _ _ => rfl) (fun _ _ => rfl) fun _ _ => rfl,
        hat.alloc.congr (fun _ _ => rfl) (fun _ _ => rfl) fun _ _ => rfl, ?_⟩
      rw [← hat.desc, Cells.modDesc_desc, Function.update_of_ne hj]
    · intro j hj hn
      rw [Cells.modDesc_desc]
      by_cases hji : j = i
      · subst hji
        rw [Function.update_self]
        show 2 ^ 31 ≤ 0xFFFFFFFF
        decide
      · rw [Function.update_of_ne hji] at hn ⊢
        exact hT.dead j hj hn
    · intro j
      show G.set i none j = _
      rw [Accounts.set_natCast]
      by_cases hji : j = i
      · subst hji
        simp
      · rw [Function.update_of_ne hji, Function.update_of_ne hji]
        exact hT.account j
    · intro j l k m hjl hk hm x
      exact hT.apart j l k m hjl (hne hk).2 (hne hm).2 x
    · refine ⟨nofun, ?_, fun j hj => ?_, fun x hx => hx.elim, fun x hx => hx.elim⟩
      · refine hh.within.mono (written_mono Set.Subset.rfl ?_)
        rintro j rfl
        exact ⟨hi, rfl⟩
      · have hji : j ≠ i := fun he => hj (by rw [he]; rfl)
        rw [Function.update_of_ne hji]

/-- Every allowed call returns and keeps track. -/
theorem Tracks.step (hT : Tracks L s G C H) {c : Call} (hc : c.Allowed L G) :
    ∃ v s' D H', Leads L s G H c v s' D H' := by
  cases c with
  | create start stop => exact hT.create hc.1 hc.2
  | addToHeap heap start stop => exact hT.addToHeap hc.1 hc.2
  | alloc heap size => exact hT.alloc hc
  | free heap ptr =>
    obtain ⟨a, ha, hp⟩ := hc
    exact hT.free ha hp
  | destroy heap => exact hT.destroy

/-- Every state of a run holds heaps on regions of their own. -/
theorem Reached.tracks {lo hi : Nat} {maxHeaps : Int} (h : Reached lo hi maxHeaps s G) :
    ∃ C H, Tracks (layoutOf lo hi maxHeaps) s G C H := by
  induction h with
  | init ha hrun =>
    obtain ⟨s', hrun', hs, hd⟩ := init_shows ha
    rw [hrun] at hrun'
    cases hrun'
    refine ⟨_, fun _ => none, hs, roundDown_eq ha.hi_lt, nofun, ?_, fun _ => rfl, nofun⟩
    intro i hi _
    show 2 ^ 31 ≤ Gc.GcMem.load _ _
    rw [hd i hi]
    decide
  | call c _ hc hrun ih =>
    obtain ⟨C, H, hT⟩ := ih
    obtain ⟨v, s', D, H', hl⟩ := hT.step hc
    have hrun' := hl.run
    rw [hrun] at hrun'
    cases hrun'
    exact ⟨D, H', hl.tracks⟩

end SdkPort.OSAlloc
