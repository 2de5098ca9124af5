import SdkPort.OS.GcMem

/-!
# State in emulated memory

`sdk_state.h`: words of SDK state live in a page of emulated memory, each beside a global that
mirrors it. Where the page is not mapped the globals stand for it.
-/
namespace SdkPort.State

open Gc (u32 GcMem)
open Function (update update_self update_of_ne)

def GC_SDK_STATE_BASE : Nat := 0x817FE000

/-- The emulated memory, and the globals by the offsets of their words. -/
structure SdkState where
  mem : GcMem
  mirror : Nat → BitVec 32

namespace SdkState

def mapped (s : SdkState) (off : Nat) : Bool := (s.mem.ptr (GC_SDK_STATE_BASE + off) 4).isSome

/-- `gc_sdk_state_load_u32be`. -/
def load (s : SdkState) (off : Nat) : Nat := s.mem.load (GC_SDK_STATE_BASE + off)

/-- `gc_sdk_state_store_u32be`. -/
def store (s : SdkState) (off v : Nat) : SdkState := { s with mem := s.mem.store (GC_SDK_STATE_BASE + off) v }

/-- `gc_sdk_state_load_u32_or`. -/
def loadOr (s : SdkState) (off fallback : Nat) : Nat := if s.mapped off then s.load off else fallback

/-- `gc_sdk_state_store_u32_mirror` without a global. -/
def storeMapped (s : SdkState) (off v : Nat) : SdkState := if s.mapped off then s.store off v else s

/-- `gc_sdk_state_store_u32_mirror`. -/
def storeMirror (s : SdkState) (off v : Nat) : SdkState :=
  { s with mirror := update s.mirror off (BitVec.ofNat 32 v) }.storeMapped off v

/-- `gc_sdk_state_load_u16be_or`. -/
def loadU16Or (s : SdkState) (off fallback : Nat) : Nat :=
  match s.mem.ptr (GC_SDK_STATE_BASE + off) 2 with
  | none => fallback
  | some p => (s.mem.buf p).toNat * 2 ^ 8 + (s.mem.buf (p + 1)).toNat

/-- The word as it is read: from the page, else from its global. -/
def value (s : SdkState) (off : Nat) : Nat := s.loadOr off (s.mirror off).toNat

def add (s : SdkState) (off n : Nat) : SdkState := s.storeMirror off (u32 (s.value off + n))

/-- A word that is read into its global. -/
def refresh (s : SdkState) (off : Nat) : Nat × SdkState :=
  (s.value off, { s with mirror := update s.mirror off (BitVec.ofNat 32 (s.value off)) })

/-- A counter of calls with a global. -/
def count (s : SdkState) (off : Nat) : SdkState := s.add off 1

/-- A counter that is lost where the page is not mapped. -/
def countMapped (s : SdkState) (off : Nat) : SdkState := s.storeMapped off (u32 (s.loadOr off 0 + 1))

variable {s : SdkState} {off off' v : Nat}

theorem value_mirror (s : SdkState) (f : Nat → BitVec 32) (off : Nat) :
    { s with mirror := f }.value off = if s.mapped off then s.load off else (f off).toNat := rfl

theorem value_lt (s : SdkState) (off : Nat) : s.value off < 2 ^ 32 := by
  unfold value loadOr
  split
  · exact GcMem.load_lt _ _
  · exact (s.mirror off).isLt

@[simp] theorem storeMapped_mirror (s : SdkState) (off v : Nat) : (s.storeMapped off v).mirror = s.mirror := by
  unfold storeMapped
  split <;> rfl

@[simp] theorem storeMapped_mapped (s : SdkState) (off v off' : Nat) :
    (s.storeMapped off v).mapped off' = s.mapped off' := by
  unfold storeMapped
  split
  · simp [mapped, store]
  · rfl

@[simp] theorem storeMirror_mirror (s : SdkState) (off v : Nat) :
    (s.storeMirror off v).mirror = update s.mirror off (BitVec.ofNat 32 v) := by
  rw [storeMirror, storeMapped_mirror]

@[simp] theorem storeMirror_mapped (s : SdkState) (off v off' : Nat) :
    (s.storeMirror off v).mapped off' = s.mapped off' := storeMapped_mapped _ off v off'

@[simp] theorem refresh_mapped (s : SdkState) (off off' : Nat) : (s.refresh off).2.mapped off' = s.mapped off' := rfl

theorem mapped_of_maps (h : s.mem.Maps GC_SDK_STATE_BASE (GC_SDK_STATE_BASE + 0x2000)) (ho : off + 4 ≤ 0x2000) :
    s.mapped off = true := by
  obtain ⟨h₁, h₂⟩ := h
  rw [mapped, GcMem.ptr_eq ⟨by omega, by omega⟩]
  rfl

theorem load_storeMapped_self (hm : s.mapped off = true) (hv : v < 2 ^ 32) : (s.storeMapped off v).load off = v := by
  rw [storeMapped, if_pos hm]
  exact GcMem.load_store_self (GcMem.maps_of_ptr hm) hv

theorem load_storeMapped_other (h : off + 4 ≤ off' ∨ off' + 4 ≤ off) :
    (s.storeMapped off v).load off' = s.load off' := by
  unfold storeMapped
  split
  · exact GcMem.load_store_other (by omega)
  · rfl

theorem load_storeMirror_other (h : off + 4 ≤ off' ∨ off' + 4 ≤ off) :
    (s.storeMirror off v).load off' = s.load off' := load_storeMapped_other h

/-- Words do not meet. -/
theorem words_apart (h : off % 4 = 0) (h' : off' % 4 = 0) (hne : off ≠ off') : off + 4 ≤ off' ∨ off' + 4 ≤ off := by
  omega

theorem value_storeMapped_other (h : off + 4 ≤ off' ∨ off' + 4 ≤ off) :
    (s.storeMapped off v).value off' = s.value off' := by
  unfold value loadOr
  rw [storeMapped_mapped, storeMapped_mirror, load_storeMapped_other h]

theorem value_storeMirror_other (h : off + 4 ≤ off' ∨ off' + 4 ≤ off) :
    (s.storeMirror off v).value off' = s.value off' := by
  have hne : off' ≠ off := by omega
  rw [storeMirror, value_storeMapped_other h, value_mirror, update_of_ne hne]
  rfl

theorem value_add_other {n : Nat} (h : off + 4 ≤ off' ∨ off' + 4 ≤ off) : (s.add off n).value off' = s.value off' :=
  value_storeMirror_other h

theorem value_count_other (h : off + 4 ≤ off' ∨ off' + 4 ≤ off) : (s.count off).value off' = s.value off' :=
  value_add_other h

theorem value_countMapped_other (h : off + 4 ≤ off' ∨ off' + 4 ≤ off) :
    (s.countMapped off).value off' = s.value off' := value_storeMapped_other h

theorem value_storeMirror_self (hv : v < 2 ^ 32) : (s.storeMirror off v).value off = v := by
  rw [value, loadOr, storeMirror, storeMapped_mapped, storeMapped_mirror]
  split
  · rename_i hm
    exact load_storeMapped_self hm hv
  · simp only [update_self, BitVec.toNat_ofNat, Nat.mod_eq_of_lt hv]

theorem value_add_self (n : Nat) : (s.add off n).value off = u32 (s.value off + n) :=
  value_storeMirror_self (Nat.mod_lt _ (by decide))

/-- A word that is kept reads as written, in the page or in its global. -/
theorem value_storeMirror (hv : v < 2 ^ 32) (h : off % 4 = 0) (h' : off' % 4 = 0) :
    (s.storeMirror off v).value off' = update s.value off v off' := by
  by_cases he : off' = off
  · rw [he, value_storeMirror_self hv, update_self]
  · rw [update_of_ne he, value_storeMirror_other (words_apart h h' (Ne.symm he))]

theorem loadU16Or_storeMapped (h : off + 4 ≤ off' ∨ off' + 2 ≤ off) (fallback : Nat) :
    (s.storeMapped off v).loadU16Or off' fallback = s.loadU16Or off' fallback := by
  unfold storeMapped
  split
  · unfold loadU16Or store
    rw [GcMem.store_ptr]
    cases hp : s.mem.ptr (GC_SDK_STATE_BASE + off') 2 with
    | none => rfl
    | some p =>
      unfold GcMem.ptr at hp
      split at hp
      · cases hp
      split at hp
      · cases hp
      · cases hp
        have h₀ := GcMem.byte_store (m := s.mem) (a := GC_SDK_STATE_BASE + off) (v := v)
          (b := GC_SDK_STATE_BASE + off') (by omega) (by omega)
        have h₁ := GcMem.byte_store (m := s.mem) (a := GC_SDK_STATE_BASE + off) (v := v)
          (b := GC_SDK_STATE_BASE + off' + 1) (by omega) (by omega)
        simp only [GcMem.byte, GcMem.store_base] at h₀ h₁
        rw [show GC_SDK_STATE_BASE + off' + 1 - s.mem.base = GC_SDK_STATE_BASE + off' - s.mem.base + 1 by omega] at h₁
        simp only [h₀, h₁]
  · rfl

theorem loadU16Or_storeMirror (h : off + 4 ≤ off' ∨ off' + 2 ≤ off) (fallback : Nat) :
    (s.storeMirror off v).loadU16Or off' fallback = s.loadU16Or off' fallback := by
  rw [storeMirror, loadU16Or_storeMapped h]
  rfl

theorem loadU16Or_add (h : off + 4 ≤ off' ∨ off' + 2 ≤ off) (n fallback : Nat) :
    (s.add off n).loadU16Or off' fallback = s.loadU16Or off' fallback := loadU16Or_storeMirror h fallback

theorem loadU16Or_count (h : off + 4 ≤ off' ∨ off' + 2 ≤ off) (fallback : Nat) :
    (s.count off).loadU16Or off' fallback = s.loadU16Or off' fallback := loadU16Or_add h 1 fallback

theorem loadU16Or_countMapped (h : off + 4 ≤ off' ∨ off' + 2 ≤ off) (fallback : Nat) :
    (s.countMapped off).loadU16Or off' fallback = s.loadU16Or off' fallback := loadU16Or_storeMapped h fallback

theorem value_refresh (s : SdkState) (off off' : Nat) : (s.refresh off).2.value off' = s.value off' := by
  rw [refresh, value_mirror]
  by_cases he : off' = off
  · rw [he, update_self, BitVec.toNat_ofNat, Nat.mod_eq_of_lt (s.value_lt off), value, loadOr]
    split <;> rfl
  · rw [update_of_ne he]
    rfl

theorem refresh_mirror_self (s : SdkState) (off : Nat) : (s.refresh off).2.mirror off = BitVec.ofNat 32 (s.value off) :=
  update_self ..

theorem refresh_mirror_other (s : SdkState) (h : off' ≠ off) : (s.refresh off).2.mirror off' = s.mirror off' :=
  update_of_ne h ..

theorem loadU16Or_refresh (s : SdkState) (off off' fallback : Nat) :
    (s.refresh off).2.loadU16Or off' fallback = s.loadU16Or off' fallback := by
  rw [refresh, loadU16Or, loadU16Or]

/-! ### Stores beside the page -/

theorem store_eq_storeMapped (s : SdkState) (off v : Nat) : s.store off v = s.storeMapped off v := by
  unfold storeMapped
  split
  · rfl
  · rename_i h
    rw [mapped, Option.not_isSome_iff_eq_none] at h
    rw [store, GcMem.store, h]

/-- A page that is mapped as before, with its bytes. -/
structure SamePage (m m' : GcMem) : Prop where
  base : m'.base = m.base
  size : m'.size = m.size
  bytes : ∀ x, GC_SDK_STATE_BASE ≤ x → x < GC_SDK_STATE_BASE + 0x2000 → m.base ≤ x → m'.byte x = m.byte x

theorem samePage_store {m m' : GcMem} (h : SamePage m m') {a : Nat} (v : Nat)
    (ha : a + 4 ≤ GC_SDK_STATE_BASE ∨ GC_SDK_STATE_BASE + 0x2000 ≤ a) : SamePage m (m'.store a v) := by
  refine ⟨(GcMem.store_base m' a v).trans h.base, (GcMem.store_size m' a v).trans h.size, fun x hx hx' hb => ?_⟩
  rw [GcMem.byte_store (by rw [h.base]; exact hb) (by omega), h.bytes x hx hx' hb]

theorem value_samePage {m : GcMem} (h : SamePage s.mem m) (ho : off + 4 ≤ 0x2000) :
    { s with mem := m }.value off = s.value off := by
  have hp : { s with mem := m }.mapped off = s.mapped off := by
    simp only [mapped, GcMem.ptr, h.base, h.size]
  have hl : { s with mem := m }.load off = s.load off :=
    GcMem.load_congr h.base h.size fun x h₁ h₂ h₃ => h.bytes x (by omega) (by omega) h₃
  rw [value, value, loadOr, loadOr, hp, hl]

theorem loadU16Or_samePage {m : GcMem} (h : SamePage s.mem m) (ho : off + 2 ≤ 0x2000) (fallback : Nat) :
    { s with mem := m }.loadU16Or off fallback = s.loadU16Or off fallback := by
  have hp : m.ptr (GC_SDK_STATE_BASE + off) 2 = s.mem.ptr (GC_SDK_STATE_BASE + off) 2 := by
    simp only [GcMem.ptr, h.base, h.size]
  unfold loadU16Or
  rw [hp]
  cases hq : s.mem.ptr (GC_SDK_STATE_BASE + off) 2 with
  | none => rfl
  | some p =>
    unfold GcMem.ptr at hq
    split at hq
    · cases hq
    split at hq
    · cases hq
    · cases hq
      have h₀ := h.bytes (GC_SDK_STATE_BASE + off) (by omega) (by omega) (by omega)
      have h₁ := h.bytes (GC_SDK_STATE_BASE + off + 1) (by omega) (by omega) (by omega)
      simp only [GcMem.byte, h.base] at h₀ h₁
      rw [show GC_SDK_STATE_BASE + off + 1 - s.mem.base = GC_SDK_STATE_BASE + off - s.mem.base + 1 by omega] at h₁
      simp only [h₀, h₁]

/-- Stores into the page leave what lies elsewhere. -/
theorem memLoad_storeMapped {a : Nat} (ha : a + 4 ≤ GC_SDK_STATE_BASE + off ∨ GC_SDK_STATE_BASE + off + 4 ≤ a) :
    (s.storeMapped off v).mem.load a = s.mem.load a := by
  unfold storeMapped
  split
  · exact GcMem.load_store_other ha
  · rfl

@[simp] theorem storeMapped_base (s : SdkState) (off v : Nat) : (s.storeMapped off v).mem.base = s.mem.base := by
  unfold storeMapped
  split
  · exact GcMem.store_base _ _ _
  · rfl

@[simp] theorem storeMapped_size (s : SdkState) (off v : Nat) : (s.storeMapped off v).mem.size = s.mem.size := by
  unfold storeMapped
  split
  · exact GcMem.store_size _ _ _
  · rfl

@[simp] theorem storeMirror_base (s : SdkState) (off v : Nat) : (s.storeMirror off v).mem.base = s.mem.base :=
  storeMapped_base _ off v

@[simp] theorem storeMirror_size (s : SdkState) (off v : Nat) : (s.storeMirror off v).mem.size = s.mem.size :=
  storeMapped_size _ off v

theorem memLoad_storeMirror {a : Nat} (ha : a + 4 ≤ GC_SDK_STATE_BASE + off ∨ GC_SDK_STATE_BASE + off + 4 ≤ a) :
    (s.storeMirror off v).mem.load a = s.mem.load a := memLoad_storeMapped ha

/-- Only words of the page are stored. -/
structure PageOnly (s₁ s₂ : SdkState) : Prop where
  base : s₂.mem.base = s₁.mem.base
  size : s₂.mem.size = s₁.mem.size
  outside : ∀ a, (a + 4 ≤ GC_SDK_STATE_BASE ∨ GC_SDK_STATE_BASE + 0x2000 ≤ a) → s₂.mem.load a = s₁.mem.load a

theorem PageOnly.refl (s : SdkState) : PageOnly s s := ⟨rfl, rfl, fun _ _ => rfl⟩

section
variable {s₁ s₂ : SdkState} (h : PageOnly s₁ s₂)
include h

theorem PageOnly.storeMapped (v : Nat) (ho : off + 4 ≤ 0x2000) : PageOnly s₁ (s₂.storeMapped off v) :=
  ⟨(storeMapped_base s₂ off v).trans h.base, (storeMapped_size s₂ off v).trans h.size,
    fun a ha => (memLoad_storeMapped (by omega)).trans (h.outside a ha)⟩

theorem PageOnly.storeMirror (v : Nat) (ho : off + 4 ≤ 0x2000) : PageOnly s₁ (s₂.storeMirror off v) :=
  ⟨(storeMirror_base s₂ off v).trans h.base, (storeMirror_size s₂ off v).trans h.size,
    fun a ha => (memLoad_storeMirror (by omega)).trans (h.outside a ha)⟩

theorem PageOnly.refresh (off : Nat) : PageOnly s₁ (s₂.refresh off).2 := ⟨h.base, h.size, h.outside⟩

end

/-- Memory that is the same below the page. -/
structure SameBelow (m m' : GcMem) : Prop where
  base : m'.base = m.base
  size : m'.size = m.size
  bytes : ∀ x, x < GC_SDK_STATE_BASE → m.base ≤ x → m'.byte x = m.byte x

theorem SameBelow.refl (m : GcMem) : SameBelow m m := ⟨rfl, rfl, fun _ _ _ => rfl⟩

theorem SameBelow.load {m m' : GcMem} (h : SameBelow m m') {a : Nat} (ha : a + 4 ≤ GC_SDK_STATE_BASE) :
    m'.load a = m.load a :=
  GcMem.load_congr h.base h.size fun x _ hx hb => h.bytes x (by omega) hb

theorem SameBelow.storeMirror {m : GcMem} (h : SameBelow m s.mem) (off v : Nat) :
    SameBelow m (s.storeMirror off v).mem := by
  refine ⟨(storeMirror_base s off v).trans h.base, (storeMirror_size s off v).trans h.size, fun x hx hb => ?_⟩
  rw [← h.bytes x hx hb, SdkState.storeMirror]
  unfold SdkState.storeMapped
  split
  · exact GcMem.byte_store (by rw [h.base]; exact hb) (by omega)
  · rfl

/-! ### The page and its globals -/

/-- The words read alike, but for those in `lost`, which have no global. -/
def Like (lost : List Nat) (s₁ s₂ : SdkState) : Prop :=
  ∀ off, off % 4 = 0 → off ∉ lost → s₁.value off = s₂.value off

variable {lost : List Nat} {s₁ s₂ : SdkState}

theorem Like.storeMirror (h : Like lost s₁ s₂) (ho : off % 4 = 0) (hv : v < 2 ^ 32) :
    Like lost (s₁.storeMirror off v) (s₂.storeMirror off v) := by
  intro off' ho' hl
  rw [value_storeMirror hv ho ho', value_storeMirror hv ho ho']
  by_cases he : off' = off
  · rw [he, update_self, update_self]
  · rw [update_of_ne he, update_of_ne he, h off' ho' hl]

theorem Like.add (h : Like lost s₁ s₂) (ho : off % 4 = 0) (hl : off ∉ lost) (n : Nat) :
    Like lost (s₁.add off n) (s₂.add off n) := by
  rw [SdkState.add, SdkState.add, h off ho hl]
  exact h.storeMirror ho (Nat.mod_lt _ (by decide))

theorem Like.count (h : Like lost s₁ s₂) (ho : off % 4 = 0) (hl : off ∉ lost) :
    Like lost (s₁.count off) (s₂.count off) := h.add ho hl 1

theorem Like.countMapped (h : Like lost s₁ s₂) (ho : off % 4 = 0) (hl : off ∈ lost) :
    Like lost (s₁.countMapped off) (s₂.countMapped off) := by
  intro off' ho' hl'
  have hw := words_apart ho ho' fun he => hl' (he ▸ hl)
  rw [SdkState.countMapped, SdkState.countMapped, value_storeMapped_other hw, value_storeMapped_other hw, h off' ho' hl']

end SdkState

end SdkPort.State
