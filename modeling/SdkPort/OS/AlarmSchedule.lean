import Mathlib.Data.Int.Order.Basic
import Mathlib.Data.List.Nodup
import SdkPort.Lib.StableInsert
import SdkPort.Lib.Trace
import SdkPort.OS.Alarm

/-!
# Schedules

What the alarm queue is for: alarms that wait in the order of their fire times, equal
times in the order in which they entered. A schedule remembers what happened to it.
-/
namespace SdkPort.OSAlarm

open StableInsert (insertLast)
open Trace (Always always_nil always_snoc)

inductive Kind where
  | oneShot
  | periodic (start period : Int)
  deriving DecidableEq

/-- A periodic alarm fires a whole number of periods after its start. -/
def Kind.Sound (fire : Int) : Kind → Prop
  | .oneShot => True
  | .periodic start period => 0 < period ∧ ∃ k : Nat, fire = start + k * period

inductive Event where
  | create (alarm : Nat)
  | enter (alarm : Nat)
  | cancel (alarm : Nat)
  | fire (alarm : Nat)
  deriving DecidableEq

/-- The event takes the alarm out of the queue. -/
def Event.Leaves (e : Event) (a : Nat) : Prop := e = .cancel a ∨ e = .fire a

/-- How often an alarm came into the queue, and how often it left. -/
def entries (log : List Event) (a : Nat) : Nat := log.count (.enter a)
def exits (log : List Event) (a : Nat) : Nat := log.count (.cancel a) + log.count (.fire a)

/-- An alarm enters when it is out, and leaves when it is in. -/
def Turn (u : List Event) (e : Event) : Prop :=
  ∀ a, (e = .enter a → entries u a = exits u a) ∧ (e.Leaves a → entries u a = exits u a + 1)

/-- The alarm was created or set before. -/
def Known (log : List Event) (a : Nat) : Prop := .create a ∈ log ∨ .enter a ∈ log

/-- A waiting alarm; `stamp` is the place in the log where it entered. -/
structure Entry where
  alarm : Nat
  fire : Int
  kind : Kind
  stamp : Nat

def Entry.Precedes (x y : Entry) : Prop := x.fire < y.fire ∨ x.fire = y.fire ∧ x.stamp < y.stamp

structure Schedule where
  waiting : List Entry
  log : List Event
  sorted : waiting.Pairwise Entry.Precedes
  stamped : ∀ e ∈ waiting, log[e.stamp]? = some (.enter e.alarm)
  nodup : (waiting.map Entry.alarm).Nodup
  sound : ∀ e ∈ waiting, e.kind.Sound e.fire
  balanced : ∀ a, entries log a = exits log a + if a ∈ waiting.map Entry.alarm then 1 else 0
  turns : Always Turn log

variable {time start period : Int} {a : Nat} {log : List Event} {k : Kind} {e : Entry} {ev : Event}

theorem Entry.Precedes.le {x y : Entry} (h : x.Precedes y) : x.fire ≤ y.fire := by
  cases h with
  | inl h => exact le_of_lt h
  | inr h => exact le_of_eq h.1

theorem not_leaves_enter (a b : Nat) : ¬ (Event.enter a).Leaves b := by
  intro h
  cases h with
  | inl h => cases h
  | inr h => cases h

theorem Event.Leaves.unique {b : Nat} (h : ev.Leaves a) (h' : ev.Leaves b) : b = a := by
  cases h with
  | inl he =>
    cases h' with
    | inl he' => exact (Event.cancel.inj (he.symm.trans he')).symm
    | inr he' => cases he.symm.trans he'
  | inr he =>
    cases h' with
    | inl he' => cases he.symm.trans he'
    | inr he' => exact (Event.fire.inj (he.symm.trans he')).symm

theorem fireTime_sound (hp : 0 < period) :
    (Kind.periodic start period).Sound (fireTime time start period) := by
  refine ⟨hp, ?_⟩
  unfold fireTime
  split
  · rename_i hs
    have hq : 0 ≤ (time - start) / period := Int.ediv_nonneg (by omega) (le_of_lt hp)
    refine ⟨((time - start) / period + 1).toNat, ?_⟩
    rw [Int.toNat_of_nonneg (by omega), Int.mul_comm]
  · exact ⟨0, by simp⟩

namespace Schedule

def alarms (p : Schedule) : List Nat := p.waiting.map Entry.alarm

def empty : Schedule := ⟨[], [], .nil, nofun, List.nodup_nil, nofun, fun _ => rfl, always_nil _⟩

theorem mem_alarms (p : Schedule) (he : e ∈ p.waiting) : e.alarm ∈ p.alarms :=
  List.mem_map_of_mem he

theorem stamp_lt (p : Schedule) (he : e ∈ p.waiting) : e.stamp < p.log.length :=
  (List.getElem?_eq_some_iff.mp (p.stamped e he)).1

/-- What is stamped stays so when the log grows. -/
theorem stamped_snoc (p : Schedule) (ev : Event) (he : e ∈ p.waiting) :
    (p.log ++ [ev])[e.stamp]? = some (.enter e.alarm) := by
  rw [List.getElem?_append_left (p.stamp_lt he)]
  exact p.stamped e he

def create (p : Schedule) (a : Nat) : Schedule where
  waiting := p.waiting
  log := p.log ++ [.create a]
  sorted := p.sorted
  stamped := fun _ he => p.stamped_snoc _ he
  nodup := p.nodup
  sound := p.sound
  balanced := by
    intro b
    simpa [entries, exits] using p.balanced b
  turns := always_snoc.mpr ⟨p.turns, fun _ => ⟨nofun, fun h => h.elim nofun nofun⟩⟩

/-- An alarm enters behind all that fire no later. -/
def insert (p : Schedule) (a : Nat) (k : Kind) (fire : Int) (ha : a ∉ p.alarms) (hk : k.Sound fire) :
    Schedule where
  waiting := insertLast Entry.fire ⟨a, fire, k, p.log.length⟩ p.waiting
  log := p.log ++ [.enter a]
  sorted := by
    apply StableInsert.pairwise_insertLast p.sorted fun _ _ h => h.le
    · intro y hy hle
      cases lt_or_eq_of_le hle with
      | inl hlt => exact .inl hlt
      | inr heq => exact .inr ⟨heq, p.stamp_lt hy⟩
    · exact fun y _ hlt => .inl hlt
  stamped := by
    intro y hy
    cases StableInsert.mem_insertLast.mp hy with
    | inl he =>
      rw [he]
      simp
    | inr hm => exact p.stamped_snoc _ hm
  nodup := by
    have hp := (StableInsert.insertLast_perm Entry.fire ⟨a, fire, k, p.log.length⟩ p.waiting).map
      Entry.alarm
    exact hp.nodup_iff.mpr (List.nodup_cons.mpr ⟨ha, p.nodup⟩)
  sound := by
    intro y hy
    cases StableInsert.mem_insertLast.mp hy with
    | inl he => exact he ▸ hk
    | inr hm => exact p.sound y hm
  balanced := by
    intro b
    have hp := (StableInsert.insertLast_perm Entry.fire ⟨a, fire, k, p.log.length⟩ p.waiting).map
      Entry.alarm
    have hb := p.balanced b
    simp only [hp.mem_iff, List.map_cons, List.mem_cons]
    unfold alarms at ha
    by_cases hab : b = a
    · subst hab
      rw [if_neg ha] at hb
      simpa [entries, exits] using hb
    · simpa [entries, exits, hab, Ne.symm hab] using hb
  turns := by
    apply always_snoc.mpr ⟨p.turns, fun b => ⟨?_, fun hl => absurd hl (not_leaves_enter a b)⟩⟩
    intro he
    cases he
    have hb := p.balanced a
    rwa [if_neg (by exact ha)] at hb

/-- An alarm leaves. -/
def remove (p : Schedule) (a : Nat) (ev : Event) (ha : a ∈ p.alarms) (hev : ev.Leaves a) : Schedule where
  waiting := p.waiting.filter fun e => e.alarm ≠ a
  log := p.log ++ [ev]
  sorted := p.sorted.filter _
  stamped := fun _ he => p.stamped_snoc _ ((List.mem_filter.mp he).1)
  nodup := p.nodup.sublist (List.filter_sublist.map _)
  sound := fun y hy => p.sound y ((List.mem_filter.mp hy).1)
  balanced := by
    intro b
    have hb := p.balanced b
    have hm : b ∈ (p.waiting.filter fun e => e.alarm ≠ a).map Entry.alarm ↔ b ∈ p.alarms ∧ b ≠ a := by
      simp only [alarms, List.mem_map, List.mem_filter, decide_eq_true_eq]
      constructor
      · rintro ⟨e, ⟨he, hne⟩, rfl⟩
        exact ⟨⟨e, he, rfl⟩, hne⟩
      · rintro ⟨⟨e, he, rfl⟩, hne⟩
        exact ⟨e, ⟨he, hne⟩, rfl⟩
    simp only [hm]
    by_cases hab : b = a
    · subst hab
      rw [if_pos (by exact ha)] at hb
      cases hev with
      | inl h => simp [h, entries, exits] at hb ⊢; omega
      | inr h => simp [h, entries, exits] at hb ⊢; omega
    · cases hev with
      | inl h => simpa [h, entries, exits, alarms, hab, Ne.symm hab] using hb
      | inr h => simpa [h, entries, exits, alarms, hab, Ne.symm hab] using hb
  turns := by
    have hb := p.balanced a
    rw [if_pos (by exact ha)] at hb
    apply always_snoc.mpr ⟨p.turns, fun b => ⟨?_, fun hl => ?_⟩⟩
    · intro he
      exact absurd (he ▸ hev) (not_leaves_enter b a)
    · rwa [hev.unique hl]

theorem not_mem_remove (p : Schedule) {ha : a ∈ p.alarms} {hev : ev.Leaves a} :
    a ∉ (p.remove a ev ha hev).alarms := by
  intro hm
  obtain ⟨e, he, hea⟩ := List.mem_map.mp hm
  have hne := (List.mem_filter.mp he).2
  simp only [decide_eq_true_eq] at hne
  exact hne hea

/-- An alarm fires; a periodic one enters again for its next time. -/
def fire (p : Schedule) (e : Entry) (time : Int) (he : e ∈ p.waiting) : Schedule :=
  let q := p.remove e.alarm (.fire e.alarm) (p.mem_alarms he) (.inr rfl)
  match h : e.kind with
  | .oneShot => q
  | .periodic start period =>
    q.insert e.alarm e.kind (fireTime time start period) p.not_mem_remove (by
      have hs := p.sound e he
      rw [h] at hs ⊢
      exact fireTime_sound hs.1)

theorem fire_oneShot (p : Schedule) (he : e ∈ p.waiting) (hk : e.kind = .oneShot) :
    p.fire e time he = p.remove e.alarm (.fire e.alarm) (p.mem_alarms he) (.inr rfl) := by
  unfold fire
  split
  · rfl
  · rename_i h
    rw [hk] at h
    cases h

theorem fire_periodic (p : Schedule) (he : e ∈ p.waiting) (hk : e.kind = .periodic start period) :
    p.fire e time he = (p.remove e.alarm (.fire e.alarm) (p.mem_alarms he) (.inr rfl)).insert e.alarm
      e.kind (fireTime time start period) p.not_mem_remove
      (by
        have hs := p.sound e he
        rw [hk] at hs ⊢
        exact fireTime_sound hs.1) := by
  unfold fire
  split
  · rename_i h
    rw [hk] at h
    cases h
  · rename_i h
    rw [hk] at h
    cases h
    rfl

theorem remove_alarms (p : Schedule) {ha : a ∈ p.alarms} {hev : ev.Leaves a} :
    (p.remove a ev ha hev).alarms = p.alarms.filter fun b => b ≠ a := by
  simp only [alarms, remove, List.filter_map]
  rfl

/-- What is left are the alarms around the one that leaves. -/
theorem remove_split (p : Schedule) {ha : a ∈ p.alarms} {hev : ev.Leaves a} {u w : List Nat}
    (hp : p.alarms = u ++ a :: w) : (p.remove a ev ha hev).alarms = u ++ w := by
  have hd : p.alarms.Nodup := p.nodup
  rw [hp, List.nodup_middle, List.nodup_cons, List.mem_append, not_or] at hd
  have hu : u.filter (fun b => b ≠ a) = u := by
    apply List.filter_eq_self.mpr
    intro b hb
    simpa using fun he : b = a => hd.1.1 (he ▸ hb)
  have hw : w.filter (fun b => b ≠ a) = w := by
    apply List.filter_eq_self.mpr
    intro b hb
    simpa using fun he : b = a => hd.1.2 (he ▸ hb)
  rw [p.remove_alarms, hp, List.filter_append, List.filter_cons_of_neg (by simp), hu, hw]

/-- Between two entries an alarm leaves once. -/
theorem exits_between (p : Schedule) {u v w : List Event}
    (h : p.log = u ++ .enter a :: (v ++ .enter a :: w))
    (hv : .enter a ∉ v) : exits v a = 1 := by
  have h₁ := (p.turns u _ _ h a).1 rfl
  have h₂ := (p.turns (u ++ .enter a :: v) (.enter a) w (by simp [h]) a).1 rfl
  have h₀ : entries v a = 0 := List.count_eq_zero.mpr hv
  simp [entries, exits] at h₀ h₁ h₂ ⊢
  omega

/-- An alarm that entered is still there, or has left once since. -/
theorem exits_since (p : Schedule) {u v : List Event} (h : p.log = u ++ .enter a :: v)
    (hv : .enter a ∉ v) : exits v a = if a ∈ p.alarms then 0 else 1 := by
  have h₁ := (p.turns u _ _ h a).1 rfl
  have h₂ : entries p.log a = exits p.log a + if a ∈ p.alarms then 1 else 0 := p.balanced a
  have h₀ : entries v a = 0 := List.count_eq_zero.mpr hv
  rw [h] at h₂
  by_cases hm : a ∈ p.alarms
  · rw [if_pos hm] at h₂ ⊢
    simp [entries, exits] at h₀ h₁ h₂ ⊢
    omega
  · rw [if_neg hm] at h₂ ⊢
    simp [entries, exits] at h₀ h₁ h₂ ⊢
    omega

end Schedule

end SdkPort.OSAlarm
