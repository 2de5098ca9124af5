import Mathlib.Data.List.Perm.Subperm
import SdkPort.Lib.Linked
import SdkPort.OS.AlarmMem
import SdkPort.OS.AlarmSchedule

/-!
# Linking and unlinking alarms

What the four ways to edit the list do to its members. None of them touches more than
the link words.
-/
namespace SdkPort.OSAlarm

open Function (update update_self update_of_ne)
open Gc (GcMem)
open Linked (Dll Seg firstOf lastOf)
open StableInsert (behind)

/-- The records of the memory link the list. -/
structure Chain (A : Nat → Prop) (s : St) (f : Nat → Alarm) (l : List Nat) : Prop where
  views : Views A s.mem f
  within : ∀ a ∈ l, A a
  dll : Dll 0 (fun a => (f a).next) (fun a => (f a).prev) s.queueHead s.queueTail l

variable {A : Nat → Prop} {m : GcMem} {s : St} {f : Nat → Alarm} {a b y v : Nat} {t : Int}
  {l u w : List Nat}

section Records

variable (h : Views A m f) (ha : A a)
include h ha

theorem Views.load_handler : m.load (a + PORT_ALARM_HANDLER) = (f a).handler :=
  congrArg Alarm.handler (h.eq a ha)
theorem Views.load_prev : m.load (a + PORT_ALARM_PREV) = (f a).prev := congrArg Alarm.prev (h.eq a ha)
theorem Views.load_next : m.load (a + PORT_ALARM_NEXT) = (f a).next := congrArg Alarm.next (h.eq a ha)
theorem Views.load_fire : loadS64 m (a + PORT_ALARM_FIRE) = (f a).fire := congrArg Alarm.fire (h.eq a ha)
theorem Views.load_period : loadS64 m (a + PORT_ALARM_PERIOD) = (f a).period :=
  congrArg Alarm.period (h.eq a ha)
theorem Views.load_start : loadS64 m (a + PORT_ALARM_START) = (f a).start :=
  congrArg Alarm.start (h.eq a ha)

theorem Views.lt : a < 2 ^ 32 := by
  have hs := h.arena.fits a ha
  unfold PORT_ALARM_SIZE at hs
  omega

theorem Views.ne_zero : a ≠ 0 := Nat.ne_of_gt (h.arena.pos a ha)

end Records

/-- A store through a pointer that may be null. -/
theorem Views.next_if (h : Views A m f) (hb : b ≠ 0 → A b) (hv : v < 2 ^ 32) :
    Views A (if b ≠ 0 then m.store (b + PORT_ALARM_NEXT) v else m) (setNext f b v) := by
  split
  · rename_i h0
    exact h.next (hb h0) hv
  · rename_i h0
    refine ⟨h.arena, fun c hc => ?_⟩
    have hcb : c ≠ b := fun he => h0 (he ▸ h.ne_zero hc)
    rw [h.eq c hc, setNext, update_of_ne hcb]

theorem Views.prev_if (h : Views A m f) (hb : b ≠ 0 → A b) (hv : v < 2 ^ 32) :
    Views A (if b ≠ 0 then m.store (b + PORT_ALARM_PREV) v else m) (setPrev f b v) := by
  split
  · rename_i h0
    exact h.prev (hb h0) hv
  · rename_i h0
    refine ⟨h.arena, fun c hc => ?_⟩
    have hcb : c ≠ b := fun he => h0 (he ▸ h.ne_zero hc)
    rw [h.eq c hc, setPrev, update_of_ne hcb]

namespace Chain

theorem tail_mem (h : Chain A s f l) (h0 : s.queueTail ≠ 0) : s.queueTail ∈ l := by
  rw [h.dll.tail_eq] at h0 ⊢
  exact Linked.lastOf_mem_of_ne h0

theorem tail_within (h : Chain A s f l) (h0 : s.queueTail ≠ 0) : A s.queueTail :=
  h.within _ (h.tail_mem h0)

theorem tail_lt (h : Chain A s f l) : s.queueTail < 2 ^ 32 := by
  by_cases h0 : s.queueTail = 0
  · rw [h0]
    decide
  · exact h.views.lt (h.tail_within h0)

theorem next_lt (h : Chain A s f l) (ha : A a) : (f a).next < 2 ^ 32 := by
  rw [← h.views.load_next ha]
  exact GcMem.load_lt _ _

theorem prev_lt (h : Chain A s f l) (ha : A a) : (f a).prev < 2 ^ 32 := by
  rw [← h.views.load_prev ha]
  exact GcMem.load_lt _ _

/-- The predecessor of a member is a member. -/
theorem prev_mem (h : Chain A s f (u ++ y :: w)) (h0 : (f y).prev ≠ 0) : (f y).prev ∈ u := by
  have hp : (f y).prev = lastOf 0 u := h.dll.links.1
  rw [hp] at h0 ⊢
  exact Linked.lastOf_mem_of_ne h0

theorem next_mem (h : Chain A s f (u ++ y :: w)) (h0 : (f y).next ≠ 0) : (f y).next ∈ w := by
  have hp : (f y).next = firstOf 0 w := h.dll.links.2
  rw [hp] at h0 ⊢
  exact Linked.firstOf_mem_of_ne h0

/-- The list is shorter than the address space. -/
theorem length_lt (h : Chain A s f l) : l.length < 2 ^ 32 := by
  have hd : (0 :: l).Nodup := List.nodup_cons.mpr ⟨h.dll.nil_not_mem, h.dll.nodup⟩
  have hsub : 0 :: l ⊆ List.range (2 ^ 32) := by
    intro b hb
    rw [List.mem_range]
    cases List.mem_cons.mp hb with
    | inl h0 =>
      rw [h0]
      decide
    | inr hm => exact h.views.lt (h.within b hm)
  have hle := (List.subperm_of_subset hd hsub).length_le
  rw [List.length_cons, List.length_range] at hle
  exact hle

theorem insertTail (h : Chain A s f l) (ha : A a) (hna : a ∉ l) :
    ∃ f', Chain A (insertTail s a) f' (l ++ [a]) ∧ ∀ b, (f' b).data = (f b).data := by
  have h₁ := (h.views.next ha (v := 0) (by decide)).prev ha h.tail_lt
  have h₂ := h₁.next_if h.tail_within (h.views.lt ha)
  have hmem : (OSAlarm.insertTail s a).mem = if s.queueTail ≠ 0
      then ((s.mem.store (a + PORT_ALARM_NEXT) 0).store (a + PORT_ALARM_PREV) s.queueTail).store
        (s.queueTail + PORT_ALARM_NEXT) a
      else (s.mem.store (a + PORT_ALARM_NEXT) 0).store (a + PORT_ALARM_PREV) s.queueTail := by
    by_cases h0 : s.queueTail = 0 <;> simp [OSAlarm.insertTail, St.store, h0]
  have hhead : (OSAlarm.insertTail s a).queueHead = if s.queueTail = 0 then a else s.queueHead := by
    by_cases h0 : s.queueTail = 0 <;> simp [OSAlarm.insertTail, St.store, h0]
  have htail : (OSAlarm.insertTail s a).queueTail = a := by
    by_cases h0 : s.queueTail = 0 <;> simp [OSAlarm.insertTail, St.store, h0]
  refine ⟨_, ⟨hmem ▸ h₂, ?_, ?_⟩, by simp⟩
  · intro b hb
    cases List.mem_append.mp hb with
    | inl hm => exact h.within b hm
    | inr hm => rwa [List.mem_singleton.mp hm]
  · rw [hhead, htail]
    apply h.dll.pushBack (h.views.ne_zero ha) hna
    · intro b _
      have hta : a ≠ s.queueTail := by
        intro he
        exact hna (he ▸ h.tail_mem fun h0 => h.views.ne_zero ha (he.trans h0))
      by_cases hab : b = a
      · simp [hab, hta]
      · simp [hab]
    · simp

theorem insertBefore (h : Chain A s f (u ++ y :: w)) (ha : A a) (hna : a ∉ u ++ y :: w) :
    ∃ f', Chain A (insertBefore s a y) f' (u ++ a :: y :: w) ∧ ∀ b, (f' b).data = (f b).data := by
  have hy : A y := h.within y (by simp)
  have hp : s.load (y + PORT_ALARM_PREV) = (f y).prev := h.views.load_prev hy
  have h₁ := ((h.views.prev ha (h.prev_lt hy)).prev hy (h.views.lt ha)).next ha (h.views.lt hy)
  have h₂ := h₁.next_if (fun h0 => h.within _ (List.mem_append_left _ (h.prev_mem h0))) (h.views.lt ha)
  have hmem : (OSAlarm.insertBefore s a y).mem = if (f y).prev ≠ 0
      then (((s.mem.store (a + PORT_ALARM_PREV) (f y).prev).store (y + PORT_ALARM_PREV) a).store
        (a + PORT_ALARM_NEXT) y).store ((f y).prev + PORT_ALARM_NEXT) a
      else ((s.mem.store (a + PORT_ALARM_PREV) (f y).prev).store (y + PORT_ALARM_PREV) a).store
        (a + PORT_ALARM_NEXT) y := by
    by_cases h0 : (f y).prev = 0 <;> simp [OSAlarm.insertBefore, St.store, hp, h0]
  have hhead : (OSAlarm.insertBefore s a y).queueHead = if (f y).prev = 0 then a else s.queueHead := by
    by_cases h0 : (f y).prev = 0 <;> simp [OSAlarm.insertBefore, St.store, hp, h0]
  have htail : (OSAlarm.insertBefore s a y).queueTail = s.queueTail := by
    by_cases h0 : (f y).prev = 0 <;> simp [OSAlarm.insertBefore, St.store, hp, h0]
  refine ⟨_, ⟨hmem ▸ h₂, ?_, ?_⟩, by simp⟩
  · intro b hb
    by_cases hab : b = a
    · rwa [hab]
    · apply h.within
      simpa [hab] using hb
  · rw [hhead, htail]
    apply h.dll.insertBefore (h.views.ne_zero ha) hna
    · intro b _
      have hpa : a ≠ (f y).prev := by
        intro he
        exact hna (List.mem_append_left _ (he ▸ h.prev_mem fun h0 => h.views.ne_zero ha (he.trans h0)))
      by_cases hab : b = a
      · simp [hab, hpa]
      · simp [hab]
    · simp

/-- The source changes the tail first, and clears the handler last. -/
theorem cancel (h : Chain A s f (u ++ a :: w)) (hh : (f a).handler ≠ 0) :
    ∃ f', Chain A (portOSCancelAlarm s a) (setHandler f' a 0) (u ++ w) ∧
      ∀ b, (f' b).data = (f b).data := by
  have ha : A a := h.within a (by simp)
  have hl : s.load (a + PORT_ALARM_HANDLER) = (f a).handler := h.views.load_handler ha
  have hn : s.load (a + PORT_ALARM_NEXT) = (f a).next := h.views.load_next ha
  have hnA : (f a).next ≠ 0 → A (f a).next := fun h0 => h.within _ (by simp [h.next_mem h0])
  have hpA : (f a).prev ≠ 0 → A (f a).prev := fun h0 => h.within _ (by simp [h.prev_mem h0])
  have hp : s.load (a + PORT_ALARM_PREV) = (f a).prev := h.views.load_prev ha
  have h₁ := h.views.prev_if hnA (h.prev_lt ha)
  have h₂ := h₁.next_if hpA (h.next_lt ha)
  have h₃ := h₂.handler ha (v := 0) (by decide)
  have hp₁ := h₁.load_prev ha
  simp only [setPrev_prev, ite_self] at hp₁
  have hs : portOSCancelAlarm s a = ⟨(if (f a).prev ≠ 0
      then (if (f a).next ≠ 0 then s.mem.store ((f a).next + PORT_ALARM_PREV) (f a).prev else s.mem).store
        ((f a).prev + PORT_ALARM_NEXT) (f a).next
      else (if (f a).next ≠ 0 then s.mem.store ((f a).next + PORT_ALARM_PREV) (f a).prev else s.mem)).store
        (a + PORT_ALARM_HANDLER) 0,
      if (f a).prev = 0 then (f a).next else s.queueHead,
      if (f a).next = 0 then (f a).prev else s.queueTail, s.systemTime⟩ := by
    rw [portOSCancelAlarm, if_neg (hl ▸ hh), hn, hp]
    by_cases h0 : (f a).next = 0
    · simp only [h0, ne_eq, not_true, if_false] at hp₁
      by_cases h0' : (f a).prev = 0 <;> simp [St.store, St.load, hp₁, h0, h0']
    · simp only [h0, ne_eq, not_false_iff, if_true] at hp₁
      by_cases h0' : (f a).prev = 0
      · rw [h0'] at hp₁
        simp [St.store, St.load, hp₁, h0, h0']
      · simp [St.store, St.load, hp₁, h0, h0']
  rw [hs]
  refine ⟨_, ⟨h₃, ?_, ?_⟩, by simp⟩
  · intro b hb
    apply h.within
    simp only [List.mem_append, List.mem_cons] at hb ⊢
    exact hb.imp_right .inr
  · exact h.dll.remove (by simp) (by simp)

/-- A member whose predecessor is null is the head. -/
theorem removeHead (h : Chain A s f (a :: w)) :
    ∃ f', Chain A (removeHead s a) f' w ∧ ∀ b, (f' b).data = (f b).data := by
  have ha : A a := h.within a (by simp)
  have hp : (f a).prev = 0 := (h.dll.links (u := [])).1
  have hn : s.load (a + PORT_ALARM_NEXT) = (f a).next := h.views.load_next ha
  have hnA : (f a).next ≠ 0 → A (f a).next :=
    fun h0 => h.within _ (by simp [Chain.next_mem (u := []) h h0])
  have h₁ := h.views.prev_if hnA (v := 0) (by decide)
  have hs : OSAlarm.removeHead s a =
      ⟨if (f a).next ≠ 0 then s.mem.store ((f a).next + PORT_ALARM_PREV) 0 else s.mem, (f a).next,
      if (f a).next = 0 then 0 else s.queueTail, s.systemTime⟩ := by
    by_cases h0 : (f a).next = 0 <;> simp [OSAlarm.removeHead, St.store, hn, h0]
  rw [hs]
  refine ⟨_, ⟨h₁, fun b hb => h.within b (List.mem_cons_of_mem _ hb), ?_⟩, by simp⟩
  have hd : Dll 0 (fun b => (setPrev f (f a).next 0 b).next) (fun b => (setPrev f (f a).next 0 b).prev)
      (if (f a).prev = 0 then (f a).next else s.queueHead)
      (if (f a).next = 0 then (f a).prev else s.queueTail) ([] ++ w) := by
    apply Dll.remove (u := []) h.dll
    · intro b hb _
      simp [hp, hb]
    · simp [hp]
  rwa [hp, if_pos rfl] at hd

end Chain

end SdkPort.OSAlarm
