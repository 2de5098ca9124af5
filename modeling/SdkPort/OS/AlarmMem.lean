import SdkPort.OS.Alarm

/-!
# Alarm structures in memory

Alarm structures that do not overlap behave like records: a store to one field changes
that field of that alarm and nothing else.
-/
namespace SdkPort.OSAlarm

open Function (update update_self update_of_ne)
open Gc (GcMem)
open OSThread (toS32 toU32)

/-- The values of `int64_t`. -/
def Fits64 (v : Int) : Prop := -2 ^ 63 ≤ v ∧ v < 2 ^ 63

instance (v : Int) : Decidable (Fits64 v) := inferInstanceAs (Decidable (_ ∧ _))

/-- The fields of an alarm structure that the queue uses. -/
structure Alarm where
  handler : Nat
  fire : Int
  prev : Nat
  next : Nat
  period : Int
  start : Int

def alarmAt (m : GcMem) (a : Nat) : Alarm where
  handler := m.load (a + PORT_ALARM_HANDLER)
  fire := loadS64 m (a + PORT_ALARM_FIRE)
  prev := m.load (a + PORT_ALARM_PREV)
  next := m.load (a + PORT_ALARM_NEXT)
  period := loadS64 m (a + PORT_ALARM_PERIOD)
  start := loadS64 m (a + PORT_ALARM_START)

/-- What an alarm holds besides its links. -/
def Alarm.data (r : Alarm) : Nat × Int × Int × Int := (r.handler, r.fire, r.period, r.start)

def setHandler (f : Nat → Alarm) (a v : Nat) : Nat → Alarm := update f a { f a with handler := v }
def setFire (f : Nat → Alarm) (a : Nat) (t : Int) : Nat → Alarm := update f a { f a with fire := t }
def setPeriod (f : Nat → Alarm) (a : Nat) (t : Int) : Nat → Alarm := update f a { f a with period := t }
def setStart (f : Nat → Alarm) (a : Nat) (t : Int) : Nat → Alarm := update f a { f a with start := t }
def setNext (f : Nat → Alarm) (a v : Nat) : Nat → Alarm := update f a { f a with next := v }
def setPrev (f : Nat → Alarm) (a v : Nat) : Nat → Alarm := update f a { f a with prev := v }

@[simp] theorem setNext_next (f : Nat → Alarm) (a v b : Nat) :
    (setNext f a v b).next = if b = a then v else (f b).next := by
  by_cases h : b = a <;> simp [setNext, h]

@[simp] theorem setNext_prev (f : Nat → Alarm) (a v b : Nat) :
    (setNext f a v b).prev = (f b).prev := by
  by_cases h : b = a <;> simp [setNext, h]

@[simp] theorem setPrev_next (f : Nat → Alarm) (a v b : Nat) :
    (setPrev f a v b).next = (f b).next := by
  by_cases h : b = a <;> simp [setPrev, h]

@[simp] theorem setPrev_prev (f : Nat → Alarm) (a v b : Nat) :
    (setPrev f a v b).prev = if b = a then v else (f b).prev := by
  by_cases h : b = a <;> simp [setPrev, h]

@[simp] theorem setNext_data (f : Nat → Alarm) (a v b : Nat) :
    (setNext f a v b).data = (f b).data := by
  by_cases h : b = a <;> simp [setNext, Alarm.data, h]

@[simp] theorem setPrev_data (f : Nat → Alarm) (a v b : Nat) :
    (setPrev f a v b).data = (f b).data := by
  by_cases h : b = a <;> simp [setPrev, Alarm.data, h]

@[simp] theorem setHandler_next (f : Nat → Alarm) (a v b : Nat) :
    (setHandler f a v b).next = (f b).next := by
  by_cases h : b = a <;> simp [setHandler, h]

@[simp] theorem setHandler_prev (f : Nat → Alarm) (a v b : Nat) :
    (setHandler f a v b).prev = (f b).prev := by
  by_cases h : b = a <;> simp [setHandler, h]

/-- The alarms of a program: mapped, and no two overlap. -/
structure Arena (A : Nat → Prop) (m : GcMem) : Prop where
  pos : ∀ a, A a → 0 < a
  fits : ∀ a, A a → a + PORT_ALARM_SIZE ≤ 2 ^ 32
  maps : ∀ a, A a → m.Maps a (a + PORT_ALARM_SIZE)
  apart : ∀ a b, A a → A b → a ≠ b → a + PORT_ALARM_SIZE ≤ b ∨ b + PORT_ALARM_SIZE ≤ a

/-- The memory holds the records `f`. -/
structure Views (A : Nat → Prop) (m : GcMem) (f : Nat → Alarm) : Prop where
  arena : Arena A m
  eq : ∀ a, A a → alarmAt m a = f a

variable {A : Nat → Prop} {m : GcMem} {f : Nat → Alarm} {a b o v : Nat} {t : Int}

theorem toU32_lt (t : Int) : toU32 t < 2 ^ 32 := by
  unfold toU32
  omega

/-- Two words hold a 64-bit number. -/
theorem join_words (h : Fits64 t) : toS32 (toU32 (t / 2 ^ 32)) * 2 ^ 32 + (toU32 t : Nat) = t := by
  obtain ⟨h₁, h₂⟩ := h
  unfold toS32 toU32
  split <;> omega

theorem Arena.store (h : Arena A m) (a v : Nat) : Arena A (m.store a v) := by
  refine ⟨h.pos, h.fits, fun b hb => ?_, h.apart⟩
  have hm := h.maps b hb
  rwa [GcMem.Maps, GcMem.store_base, GcMem.store_size]

theorem Arena.maps_word (h : Arena A m) (ha : A a) (ho : o + 4 ≤ PORT_ALARM_SIZE) :
    m.Maps (a + o) (a + o + 4) := by
  obtain ⟨h₁, h₂⟩ := h.maps a ha
  exact ⟨by omega, by omega⟩

theorem loadS64_store_other (h : b + 8 ≤ a ∨ a + 4 ≤ b) : loadS64 (m.store a v) b = loadS64 m b := by
  unfold loadS64
  rw [GcMem.load_store_other (by omega), GcMem.load_store_other (by omega)]

theorem loadS64_storeS64_self (h : m.Maps a (a + 8)) (ht : Fits64 t) :
    loadS64 (storeS64 m a t) a = t := by
  obtain ⟨h₁, h₂⟩ := h
  have hlo : (m.store a (toU32 (t / 2 ^ 32))).Maps (a + 4) (a + 4 + 4) := by
    rw [GcMem.Maps, GcMem.store_base, GcMem.store_size]
    exact ⟨by omega, by omega⟩
  unfold loadS64 storeS64
  rw [GcMem.load_store_other (by omega), GcMem.load_store_self ⟨h₁, by omega⟩ (toU32_lt _),
    GcMem.load_store_self hlo (toU32_lt _)]
  exact join_words ht

theorem load_storeS64_other (h : b + 4 ≤ a ∨ a + 8 ≤ b) : (storeS64 m a t).load b = m.load b := by
  unfold storeS64
  rw [GcMem.load_store_other (by omega), GcMem.load_store_other (by omega)]

theorem loadS64_storeS64_other (h : b + 8 ≤ a ∨ a + 8 ≤ b) :
    loadS64 (storeS64 m a t) b = loadS64 m b := by
  unfold storeS64
  rw [loadS64_store_other (by omega), loadS64_store_other (by omega)]

/-- A store that stays outside an alarm leaves it as it is. -/
theorem alarmAt_store_other (h : b + PORT_ALARM_SIZE ≤ a ∨ a + 4 ≤ b) :
    alarmAt (m.store a v) b = alarmAt m b := by
  unfold PORT_ALARM_SIZE at h
  simp only [alarmAt, PORT_ALARM_HANDLER, PORT_ALARM_FIRE, PORT_ALARM_PREV, PORT_ALARM_NEXT,
    PORT_ALARM_PERIOD, PORT_ALARM_START]
  rw [GcMem.load_store_other (by omega), GcMem.load_store_other (by omega),
    GcMem.load_store_other (by omega), loadS64_store_other (by omega),
    loadS64_store_other (by omega), loadS64_store_other (by omega)]

theorem alarmAt_storeS64_other (h : b + PORT_ALARM_SIZE ≤ a ∨ a + 8 ≤ b) :
    alarmAt (storeS64 m a t) b = alarmAt m b := by
  unfold storeS64
  rw [alarmAt_store_other (by omega), alarmAt_store_other (by omega)]

section Fields

variable {o' : Nat}

-- Fields of one alarm, by their offsets.

theorem load_store_field (h : o' + 4 ≤ o ∨ o + 4 ≤ o') : (m.store (a + o) v).load (a + o') = m.load (a + o') :=
  GcMem.load_store_other (by omega)

theorem loadS64_store_field (h : o' + 8 ≤ o ∨ o + 4 ≤ o') :
    loadS64 (m.store (a + o) v) (a + o') = loadS64 m (a + o') := loadS64_store_other (by omega)

theorem load_storeS64_field (h : o' + 4 ≤ o ∨ o + 8 ≤ o') :
    (storeS64 m (a + o) t).load (a + o') = m.load (a + o') := load_storeS64_other (by omega)

theorem loadS64_storeS64_field (h : o' + 8 ≤ o ∨ o + 8 ≤ o') :
    loadS64 (storeS64 m (a + o) t) (a + o') = loadS64 m (a + o') := loadS64_storeS64_other (by omega)

end Fields

namespace Views

/-- A word of one alarm is written, with the given effect on that alarm. -/
theorem word (h : Views A m f) (ha : A a) (ho : o + 4 ≤ PORT_ALARM_SIZE) {r : Alarm}
    (hr : alarmAt (m.store (a + o) v) a = r) : Views A (m.store (a + o) v) (update f a r) := by
  refine ⟨h.arena.store _ _, fun b hb => ?_⟩
  by_cases hab : b = a
  · subst hab
    rw [hr, update_self]
  · rw [update_of_ne hab, ← h.eq b hb]
    have := h.arena.apart a b ha hb (Ne.symm hab)
    exact alarmAt_store_other (by omega)

theorem long (h : Views A m f) (ha : A a) (ho : o + 8 ≤ PORT_ALARM_SIZE) {r : Alarm}
    (hr : alarmAt (OSAlarm.storeS64 m (a + o) t) a = r) :
    Views A (OSAlarm.storeS64 m (a + o) t) (update f a r) := by
  refine ⟨(h.arena.store _ _).store _ _, fun b hb => ?_⟩
  by_cases hab : b = a
  · subst hab
    rw [hr, update_self]
  · rw [update_of_ne hab, ← h.eq b hb]
    have := h.arena.apart a b ha hb (Ne.symm hab)
    exact alarmAt_storeS64_other (by omega)

theorem handler (h : Views A m f) (ha : A a) (hv : v < 2 ^ 32) :
    Views A (m.store (a + PORT_ALARM_HANDLER) v) (setHandler f a v) := by
  apply h.word ha (by decide)
  rw [← h.eq a ha, alarmAt, GcMem.load_store_self (h.arena.maps_word ha (by decide)) hv]
  simp (disch := decide) only [load_store_field, loadS64_store_field]
  rfl

theorem prev (h : Views A m f) (ha : A a) (hv : v < 2 ^ 32) :
    Views A (m.store (a + PORT_ALARM_PREV) v) (setPrev f a v) := by
  apply h.word ha (by decide)
  rw [← h.eq a ha, alarmAt, GcMem.load_store_self (h.arena.maps_word ha (by decide)) hv]
  simp (disch := decide) only [load_store_field, loadS64_store_field]
  rfl

theorem next (h : Views A m f) (ha : A a) (hv : v < 2 ^ 32) :
    Views A (m.store (a + PORT_ALARM_NEXT) v) (setNext f a v) := by
  apply h.word ha (by decide)
  rw [← h.eq a ha, alarmAt, GcMem.load_store_self (h.arena.maps_word ha (by decide)) hv]
  simp (disch := decide) only [load_store_field, loadS64_store_field]
  rfl

theorem maps_long (h : Views A m f) (ha : A a) (ho : o + 8 ≤ PORT_ALARM_SIZE) :
    m.Maps (a + o) (a + o + 8) := by
  obtain ⟨h₁, h₂⟩ := h.arena.maps a ha
  exact ⟨by omega, by omega⟩

theorem fire (h : Views A m f) (ha : A a) (ht : Fits64 t) :
    Views A (OSAlarm.storeS64 m (a + PORT_ALARM_FIRE) t) (setFire f a t) := by
  apply h.long ha (by decide)
  rw [← h.eq a ha, alarmAt, loadS64_storeS64_self (h.maps_long ha (by decide)) ht]
  simp (disch := decide) only [load_storeS64_field, loadS64_storeS64_field]
  rfl

theorem period (h : Views A m f) (ha : A a) (ht : Fits64 t) :
    Views A (OSAlarm.storeS64 m (a + PORT_ALARM_PERIOD) t) (setPeriod f a t) := by
  apply h.long ha (by decide)
  rw [← h.eq a ha, alarmAt, loadS64_storeS64_self (h.maps_long ha (by decide)) ht]
  simp (disch := decide) only [load_storeS64_field, loadS64_storeS64_field]
  rfl

theorem start (h : Views A m f) (ha : A a) (ht : Fits64 t) :
    Views A (OSAlarm.storeS64 m (a + PORT_ALARM_START) t) (setStart f a t) := by
  apply h.long ha (by decide)
  rw [← h.eq a ha, alarmAt, loadS64_storeS64_self (h.maps_long ha (by decide)) ht]
  simp (disch := decide) only [load_storeS64_field, loadS64_storeS64_field]
  rfl

end Views

end SdkPort.OSAlarm
