import SdkPort.OS.HeapCheck

/-!
# The arena

`OSInitAlloc` records the array of descriptors and the arena, and marks all descriptors as
not in use. From then on memory shows some cells and no heap.
-/
namespace SdkPort.OSAlloc

open Gc (u32 GcMem)
open OSThread (toS32 toU32)
open Runs (run_bind_ok)

/-- What `OSInitAlloc` is given: room for the array, mapped, and apart from the state page. -/
structure Arena (m : GcMem) (lo hi : Nat) (maxHeaps : Int) : Prop where
  nonnull : 0 < lo
  count : 0 ≤ maxHeaps ∧ maxHeaps < 2 ^ 31
  array_le : lo + 12 * maxHeaps.toNat ≤ hi
  hi_lt : hi < 2 ^ 32
  maps : m.Maps lo hi
  page : hi ≤ GC_SDK_STATE_BASE + GC_SDK_OFF_OS_CURR_HEAP ∨
    GC_SDK_STATE_BASE + GC_SDK_OFF_OSALLOC_ARENA_END + 4 ≤ lo

/-- The layout that `OSInitAlloc` records. -/
def layoutOf (lo hi : Nat) (maxHeaps : Int) : Layout where
  array := lo
  n := maxHeaps.toNat
  first := roundUp (u32 (lo + u32 (toU32 maxHeaps * HEAPDESC_SIZE))) ALIGNMENT
  stop := roundDown hi ALIGNMENT
  hi := hi

/-- All words of memory where cells and descriptors can be. -/
def viewOf (L : Layout) (s : Mach) : Cells where
  prev := fun c => s.mem.load c
  next := fun c => s.mem.load (c + 4)
  size := fun c => s.mem.load (c + 8)
  hd := fun c => s.mem.load (c + 12)
  desc := fun i => ⟨s.mem.load (L.desc i), s.mem.load (L.desc i + 4), s.mem.load (L.desc i + 8)⟩

variable {s s' : Mach} {lo hi off k v fallback : Nat} {maxHeaps : Int} {m : GcMem}

theorem Arena.fits (h : Arena m lo hi maxHeaps) : (layoutOf lo hi maxHeaps).Fits m := by
  have hc := h.count
  have ha := h.array_le
  have hlt := h.hi_lt
  have hstop : roundDown hi ALIGNMENT = 32 * (hi / 32) := roundDown_eq hlt
  have hfirst : roundUp (u32 (lo + u32 (toU32 maxHeaps * HEAPDESC_SIZE))) ALIGNMENT =
      32 * (u32 (lo + 12 * maxHeaps.toNat + 31) / 32) := by
    have hu : u32 (lo + u32 (toU32 maxHeaps * HEAPDESC_SIZE)) = lo + 12 * maxHeaps.toNat := by
      rw [toU32, HEAPDESC_SIZE, u32, u32]
      omega
    rw [hu, roundUp_eq]
  refine ⟨h.nonnull, ha, ?_, hlt, ?_, h.maps, ?_, ?_, h.page⟩
  · show roundDown hi ALIGNMENT ≤ hi
    omega
  · show maxHeaps.toNat < 2 ^ 31
    omega
  · rintro c ⟨hal, hlow, _⟩
    obtain ⟨d, rfl⟩ := hal
    show roundUp _ ALIGNMENT ≤ 32 * d
    have hlow' : lo + 12 * maxHeaps.toNat ≤ 32 * d := hlow
    rw [hfirst, u32]
    omega
  · show 32 ∣ roundDown hi ALIGNMENT
    rw [hstop]
    exact Nat.dvd_mul_right 32 _

/-- A word of the state page that is stored, or its global, is read back. -/
theorem stateWord_stored (h : s'.mem = s.mem.store (GC_SDK_STATE_BASE + off) v) (hv : v < 2 ^ 32) :
    stateWord s' off v = v := by
  unfold stateWord
  rw [h]
  split
  · rename_i hp
    exact GcMem.load_store_self (GcMem.maps_of_ptr (by simpa using hp)) hv
  · rfl

theorem stateWord_kept (h : s'.mem = s.mem.store (GC_SDK_STATE_BASE + k) v)
    (ho : off + 4 ≤ k ∨ k + 4 ≤ off) : stateWord s' off fallback = stateWord s off fallback := by
  unfold stateWord
  rw [h, GcMem.store_ptr, GcMem.load_store_other (by omega)]

/-- One descriptor marked as not in use. -/
def markFree (m : GcMem) (d : Nat) : GcMem := ((m.store d 0xFFFFFFFF).store (d + 4) 0).store (d + 8) 0

theorem markFree_load_other {d x : Nat} (hx : x + 4 ≤ d) : (markFree m d).load x = m.load x := by
  unfold markFree
  rw [GcMem.load_store_other (by omega), GcMem.load_store_other (by omega),
    GcMem.load_store_other (by omega)]

theorem markFree_load_self {d : Nat} (hd : m.Maps d (d + 4)) : (markFree m d).load d = 0xFFFFFFFF := by
  unfold markFree
  rw [GcMem.load_store_other (by omega), GcMem.load_store_other (by omega)]
  exact GcMem.load_store_self hd (by decide)

theorem markFree_maps {d a b : Nat} (h : m.Maps a b) : (markFree m d).Maps a b := by
  simpa [GcMem.Maps, markFree] using h

theorem Within.markFree {T : Set Nat} {d : Nat} (hT : ∀ x, d ≤ x → x < d + 12 → x ∈ T) :
    Within T s { s with mem := OSAlloc.markFree s.mem d } :=
  (((Within.refl T s).store (a := d) (fun x h₁ h₂ => hT x (by omega) (by omega)) 0xFFFFFFFF).store
    (a := d + 4) (fun x h₁ h₂ => hT x (by omega) (by omega)) 0).store (a := d + 8)
    (fun x h₁ h₂ => hT x (by omega) (by omega)) 0

/-- The loop over the descriptors writes nothing else, and marks them all. -/
theorem clearHeaps_spec {T : Set Nat} {j : Nat} (lo : Nat) (hlt : lo + 12 * (j + k) < 2 ^ 32) (hk : j + k < 2 ^ 31)
    (hm : s.mem.Maps lo (lo + 12 * (j + k))) (hT : ∀ x, lo ≤ x → x < lo + 12 * (j + k) → x ∈ T) :
    ∃ s', clearHeaps lo k j s = .ok ((), s') ∧ Within T s s' ∧
      (∀ i, j ≤ i → i < j + k → s'.mem.load (lo + 12 * i) = 0xFFFFFFFF) ∧
      ∀ x, x + 4 ≤ lo + 12 * j → s'.mem.load x = s.mem.load x := by
  induction k generalizing s j with
  | zero => exact ⟨s, rfl, .refl T s, fun i h₁ h₂ => by omega, fun _ _ => rfl⟩
  | succ k ih =>
    rw [clearHeaps, heapDesc_eq (by omega) (by omega)]
    have h₄ : u32 (lo + 12 * j + 4) = lo + 12 * j + 4 := by
      rw [u32]
      omega
    have h₈ : u32 (lo + 12 * j + 8) = lo + 12 * j + 8 := by
      rw [u32]
      omega
    simp only [h₄, h₈]
    have hw₁ := Within.markFree (s := s) (T := T) (d := lo + 12 * j)
      fun x h₁ h₂ => hT x (by omega) (by omega)
    have hself := markFree_load_self (m := s.mem) (d := lo + 12 * j)
      ⟨by have := hm.1; omega, by have := hm.2; omega⟩
    obtain ⟨s', hrun, hw, hload, hframe⟩ := ih (s := { s with mem := markFree s.mem (lo + 12 * j) })
      (j := j + 1) (by omega) (by omega)
      (markFree_maps (by rwa [show j + 1 + k = j + (k + 1) by omega]))
      (fun x h₁ h₂ => hT x h₁ (by omega))
    refine ⟨s', hrun, hw₁.trans hw, ?_, ?_⟩
    · intro i h₁ h₂
      rcases Nat.eq_or_lt_of_le h₁ with rfl | h₁
      · rw [hframe _ (by omega), hself]
      · exact hload i (by omega) (by omega)
    · intro x hx
      rw [hframe x (by omega), markFree_load_other hx]

/-- Writing the array does not touch the state page. -/
theorem Arena.stateWord_within {T : Set Nat} (ha : Arena m lo hi maxHeaps) (h : Within T s s')
    (hT : ∀ x ∈ T, lo ≤ x ∧ x < lo + 12 * maxHeaps.toNat) (h₁ : GC_SDK_OFF_OS_CURR_HEAP ≤ off)
    (h₂ : off ≤ GC_SDK_OFF_OSALLOC_ARENA_END) :
    stateWord s' off fallback = stateWord s off fallback := by
  have hpage := ha.page
  have harray := ha.array_le
  have hp : s'.mem.ptr (GC_SDK_STATE_BASE + off) 4 = s.mem.ptr (GC_SDK_STATE_BASE + off) 4 := by
    simp only [GcMem.ptr, h.base, h.size]
  have hl : s'.mem.load (GC_SDK_STATE_BASE + off) = s.mem.load (GC_SDK_STATE_BASE + off) := by
    refine GcMem.load_congr h.base h.size fun x h₃ h₄ h₅ => h.byte x h₅ fun hx => ?_
    have := hT x hx
    omega
  unfold stateWord
  rw [hp, hl]

/-- The array of descriptors recorded. -/
def recordArray (lo : Nat) (maxHeaps : Int) (s : Mach) : Mach :=
  { s with
    heapArray := lo
    numHeaps := maxHeaps
    mem := (s.mem.store (GC_SDK_STATE_BASE + GC_SDK_OFF_OSALLOC_HEAP_ARRAY) lo).store
      (GC_SDK_STATE_BASE + GC_SDK_OFF_OSALLOC_NUM_HEAPS) (toU32 maxHeaps) }

/-- No heap current, and the arena recorded. -/
def recordArena (first stop : Nat) (s : Mach) : Mach :=
  { s with
    osCurrHeap := -1
    arenaStart := first
    arenaEnd := stop
    mem := ((s.mem.store (GC_SDK_STATE_BASE + GC_SDK_OFF_OS_CURR_HEAP) (toU32 (-1))).store
      (GC_SDK_STATE_BASE + GC_SDK_OFF_OSALLOC_ARENA_START) first).store
      (GC_SDK_STATE_BASE + GC_SDK_OFF_OSALLOC_ARENA_END) stop }

theorem OSInitAlloc_run (h : clearHeaps lo maxHeaps.toNat 0 (recordArray lo maxHeaps s) = .ok ((), s')) :
    OSInitAlloc lo hi maxHeaps s = .ok ((layoutOf lo hi maxHeaps).first,
      recordArena (layoutOf lo hi maxHeaps).first (layoutOf lo hi maxHeaps).stop s') := by
  have hf : roundUp (u32 (lo + u32 (toU32 maxHeaps * HEAPDESC_SIZE))) ALIGNMENT =
      (layoutOf lo hi maxHeaps).first := rfl
  have he : roundDown hi ALIGNMENT = (layoutOf lo hi maxHeaps).stop := rfl
  unfold OSInitAlloc
  simp only [hf, he]
  generalize (layoutOf lo hi maxHeaps).first = f
  generalize (layoutOf lo hi maxHeaps).stop = e
  unfold recordArray at h
  refine (run_bind_ok rfl).trans ?_
  refine (run_bind_ok rfl).trans ?_
  refine (run_bind_ok rfl).trans ?_
  refine (run_bind_ok rfl).trans ?_
  refine (run_bind_ok h).trans ?_
  unfold recordArena
  refine (run_bind_ok rfl).trans ?_
  refine (run_bind_ok rfl).trans ?_
  refine (run_bind_ok rfl).trans ?_
  refine (run_bind_ok rfl).trans ?_
  refine (run_bind_ok rfl).trans ?_
  exact run_bind_ok rfl

theorem recordArray_array (h : lo < 2 ^ 32) :
    stateWord (recordArray lo maxHeaps s) GC_SDK_OFF_OSALLOC_HEAP_ARRAY lo = lo := by
  rw [stateWord_kept (s := { s with mem := s.mem.store _ lo }) rfl (by decide)]
  exact stateWord_stored rfl h

theorem recordArray_numHeaps :
    stateWord (recordArray lo maxHeaps s) GC_SDK_OFF_OSALLOC_NUM_HEAPS (toU32 maxHeaps) = toU32 maxHeaps := by
  apply stateWord_stored (s := { s with mem := s.mem.store _ lo }) rfl
  rw [toU32]
  omega

/-- The two words of the array stay when the arena is recorded. -/
theorem recordArena_kept {first stop : Nat} (h₁ : GC_SDK_OFF_OSALLOC_HEAP_ARRAY ≤ off)
    (h₂ : off ≤ GC_SDK_OFF_OSALLOC_NUM_HEAPS) :
    stateWord (recordArena first stop s) off fallback = stateWord s off fallback := by
  simp only [GC_SDK_OFF_OSALLOC_HEAP_ARRAY, GC_SDK_OFF_OSALLOC_NUM_HEAPS] at h₁ h₂
  have hkept : ∀ (b : Mach) (k v : Nat), off + 4 ≤ k ∨ k + 4 ≤ off →
      stateWord { b with mem := b.mem.store (GC_SDK_STATE_BASE + k) v } off fallback = stateWord b off fallback :=
    fun b k v ho => stateWord_kept rfl ho
  refine (hkept { s with mem := _ } _ stop (.inl ?_)).trans ((hkept { s with mem := _ } _ first (.inl ?_)).trans
    (hkept s _ (toU32 (-1)) (.inr ?_)))
  · rw [GC_SDK_OFF_OSALLOC_ARENA_END]
    omega
  · rw [GC_SDK_OFF_OSALLOC_ARENA_START]
    omega
  · rw [GC_SDK_OFF_OS_CURR_HEAP]
    omega

theorem recordArena_start {first stop : Nat} (h : first < 2 ^ 32) :
    stateWord (recordArena first stop s) GC_SDK_OFF_OSALLOC_ARENA_START first = first := by
  rw [stateWord_kept (s := { s with mem := (s.mem.store _ (toU32 (-1))).store _ first }) rfl (by decide)]
  exact stateWord_stored (s := { s with mem := s.mem.store _ (toU32 (-1)) }) rfl h

theorem recordArena_end {first stop : Nat} (h : stop < 2 ^ 32) :
    stateWord (recordArena first stop s) GC_SDK_OFF_OSALLOC_ARENA_END stop = stop :=
  stateWord_stored (s := { s with mem := (s.mem.store _ (toU32 (-1))).store _ first }) rfl h

theorem recordArena_load {first stop x : Nat} (h : x + 4 ≤ GC_SDK_STATE_BASE + GC_SDK_OFF_OS_CURR_HEAP ∨
    GC_SDK_STATE_BASE + GC_SDK_OFF_OSALLOC_ARENA_END + 4 ≤ x) :
    (recordArena first stop s).mem.load x = s.mem.load x := by
  simp only [GC_SDK_OFF_OS_CURR_HEAP, GC_SDK_OFF_OSALLOC_ARENA_END] at h
  simp only [recordArena, GC_SDK_OFF_OS_CURR_HEAP, GC_SDK_OFF_OSALLOC_ARENA_END, GC_SDK_OFF_OSALLOC_ARENA_START]
  rw [GcMem.load_store_other (by omega), GcMem.load_store_other (by omega), GcMem.load_store_other (by omega)]

/-- After `OSInitAlloc` memory shows the layout and no heap. -/
theorem init_shows (ha : Arena s.mem lo hi maxHeaps) :
    ∃ s', OSInitAlloc lo hi maxHeaps s = .ok ((layoutOf lo hi maxHeaps).first, s') ∧
      Shows (layoutOf lo hi maxHeaps) s' (viewOf (layoutOf lo hi maxHeaps) s') ∧
      ∀ i < maxHeaps.toNat, s'.mem.load ((layoutOf lo hi maxHeaps).desc i) = 0xFFFFFFFF := by
  have hc := ha.count
  have harray := ha.array_le
  have hhi := ha.hi_lt
  have hpage := ha.page
  -- the descriptors are cleared in between
  have hmaps : (recordArray lo maxHeaps s).mem.Maps lo hi := by simpa [GcMem.Maps, recordArray] using ha.maps
  obtain ⟨s₂, hrun, hw, hdead, _⟩ := clearHeaps_spec lo (k := maxHeaps.toNat) (j := 0)
    (s := recordArray lo maxHeaps s) (T := {x | lo ≤ x ∧ x < lo + 12 * maxHeaps.toNat}) (by omega) (by omega)
    ⟨hmaps.1, by have := hmaps.2; omega⟩ (fun x h₁ h₂ => ⟨h₁, by simpa using h₂⟩)
  have hglobals := hw.globals
  have hword : ∀ {off fallback : Nat}, GC_SDK_OFF_OSALLOC_HEAP_ARRAY ≤ off →
      off ≤ GC_SDK_OFF_OSALLOC_NUM_HEAPS →
      stateWord (recordArena (layoutOf lo hi maxHeaps).first (layoutOf lo hi maxHeaps).stop s₂) off fallback =
        stateWord (recordArray lo maxHeaps s) off fallback := by
    intro off fallback h₁ h₂
    rw [recordArena_kept h₁ h₂]
    exact ha.stateWord_within hw (fun x hx => hx) (le_trans (by decide) h₁) (h₂.trans (by decide))
  have hA : s₂.heapArray = lo := by rw [hglobals]; rfl
  have hN : s₂.numHeaps = maxHeaps := by rw [hglobals]; rfl
  refine ⟨_, OSInitAlloc_run hrun, ⟨?_, ?_, ?_, ?_, ?_, ?_, fun i _ => ⟨rfl, rfl, rfl⟩,
    fun c _ => ⟨rfl, rfl, rfl, rfl⟩⟩, ?_⟩
  · have ha₃ : Arena (recordArena (layoutOf lo hi maxHeaps).first (layoutOf lo hi maxHeaps).stop s₂).mem
        lo hi maxHeaps := by
      refine { ha with maps := ?_ }
      simpa [GcMem.Maps, recordArena, hw.base, hw.size] using hmaps
    exact ha₃.fits
  · show stateWord _ _ s₂.heapArray = lo
    rw [hA, hword le_rfl (by decide)]
    exact recordArray_array (by omega)
  · show stateWord _ _ (toU32 s₂.numHeaps) = maxHeaps.toNat
    rw [hN, hword (by decide) le_rfl, recordArray_numHeaps, toU32]
    omega
  · show s₂.numHeaps = (maxHeaps.toNat : Int)
    rw [hN]
    omega
  · apply recordArena_start
    show roundUp _ ALIGNMENT < 2 ^ 32
    rw [roundUp_eq, u32]
    omega
  · apply recordArena_end
    show roundDown hi ALIGNMENT < 2 ^ 32
    rw [roundDown_eq hhi]
    omega
  · intro i hi'
    rw [recordArena_load (by
      show lo + 12 * i + 4 ≤ _ ∨ _ ≤ lo + 12 * i
      omega)]
    exact hdead i (Nat.zero_le i) (by omega)

end SdkPort.OSAlloc
