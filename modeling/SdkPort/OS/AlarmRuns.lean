import SdkPort.OS.AlarmRep

/-!
# Alarms over whole runs

Every run of the alarm functions keeps a schedule whose log is what happened in the run.
-/
namespace SdkPort.OSAlarm

open Linked (Dll walk)

variable {A : Nat → Prop} {s s' : St} {f : Nat → Alarm} {p : Schedule} {a : Nat} {log : List Event}

/-- The alarms in the queue, from its head on. -/
def St.queued (s : St) : List Nat := walk 0 (fun a => s.load (a + PORT_ALARM_NEXT)) alarmFuel s.queueHead

/-- A periodic alarm at the head can be put back. -/
def St.RefireFits (s : St) : Prop :=
  0 < s.loadS64 (s.queueHead + PORT_ALARM_PERIOD) →
    FireFits s.systemTime (s.loadS64 (s.queueHead + PORT_ALARM_START))
      (s.loadS64 (s.queueHead + PORT_ALARM_PERIOD))

/-- What the firing of an alarm adds to the log; null is no alarm. -/
def St.fired (s : St) (a : Nat) : List Event :=
  if a = 0 then []
  else if 0 < s.loadS64 (a + PORT_ALARM_PERIOD) then [.fire a, .enter a] else [.fire a]

/-- The states that runs of the source reach, with what happened on the way. -/
inductive Reach (A : Nat → Prop) : List Event → St → Prop
  | init (s : St) : Arena A s.mem → Reach A [] (portOSAlarmInit s)
  | create {log : List Event} {s : St} (a : Nat) :
      Reach A log s → A a → a ∉ s.queued → Reach A (log ++ [.create a]) (portOSCreateAlarm s a)
  | set {log : List Event} {s s' : St} (a : Nat) (tick : Int) :
      Reach A log s → A a → a ∉ s.queued → Fits64 (s.systemTime + tick) →
      portOSSetAlarm s a tick = some s' → Reach A (log ++ [.enter a]) s'
  | setPeriodic {log : List Event} {s s' : St} (a : Nat) (start period : Int) :
      Reach A log s → A a → a ∉ s.queued → 0 < period → Fits64 start → Fits64 period →
      FireFits s.systemTime start period →
      portOSSetPeriodicAlarm s a start period = some s' → Reach A (log ++ [.enter a]) s'
  | cancel {log : List Event} {s : St} (a : Nat) :
      Reach A log s → A a → Known log a → s.load (a + PORT_ALARM_HANDLER) ≠ 0 →
      Reach A (log ++ [.cancel a]) (portOSCancelAlarm s a)
  | cancelIdle {log : List Event} {s : St} (a : Nat) :
      Reach A log s → A a → Known log a → s.load (a + PORT_ALARM_HANDLER) = 0 →
      Reach A log (portOSCancelAlarm s a)
  | fire {log : List Event} {s s' : St} (a : Nat) :
      Reach A log s → s.RefireFits → portOSAlarmFireHead s = some (a, s') →
      Reach A (log ++ s.fired a) s'
  | advance {log : List Event} {s : St} (time : Int) :
      Reach A log s → s.systemTime ≤ time → Fits64 time → Reach A log { s with systemTime := time }

/-- What the memory shows of a schedule. -/
structure St.Keeps (A : Nat → Prop) (s : St) (p : Schedule) : Prop where
  linked : Dll 0 (fun a => s.load (a + PORT_ALARM_NEXT)) (fun a => s.load (a + PORT_ALARM_PREV))
    s.queueHead s.queueTail p.alarms
  queued : s.queued = p.alarms
  within : ∀ a ∈ p.alarms, A a
  shown : ∀ e ∈ p.waiting, e.Shown (alarmAt s.mem e.alarm)
  active : ∀ a, A a → Known p.log a → (a ∈ p.alarms ↔ s.load (a + PORT_ALARM_HANDLER) ≠ 0)

/-- Every function does what the schedule's operation does. -/
structure St.Obeys (A : Nat → Prop) (s : St) (p : Schedule) : Prop where
  create : ∀ a, A a → a ∉ p.alarms → (portOSCreateAlarm s a).Keeps A (p.create a)
  set : ∀ a tick (ha : a ∉ p.alarms), A a → Fits64 (s.systemTime + tick) →
    ∃ s', portOSSetAlarm s a tick = some s' ∧
      s'.Keeps A (p.insert a .oneShot (s.systemTime + tick) ha trivial)
  setPeriodic : ∀ a start period (ha : a ∉ p.alarms) (hp : 0 < period), A a → Fits64 start →
    Fits64 period → FireFits s.systemTime start period →
    ∃ s', portOSSetPeriodicAlarm s a start period = some s' ∧
      s'.Keeps A (p.insert a (.periodic start period) (fireTime s.systemTime start period) ha
        (fireTime_sound hp))
  cancel : ∀ a (ha : a ∈ p.alarms),
    (portOSCancelAlarm s a).Keeps A (p.remove a (.cancel a) ha (.inl rfl)) ∧
      portOSCancelAlarm (portOSCancelAlarm s a) a = portOSCancelAlarm s a
  cancelIdle : ∀ a, A a → Known p.log a → a ∉ p.alarms → portOSCancelAlarm s a = s
  early : (∀ e ∈ p.waiting, s.systemTime < e.fire) → portOSAlarmFireHead s = some (0, s)
  due : ∀ e (l : List Entry) (he : e ∈ p.waiting), p.waiting = e :: l → e.fire ≤ s.systemTime →
    s.RefireFits → ∃ s', portOSAlarmFireHead s = some (e.alarm, s') ∧
      s'.Keeps A (p.fire e s.systemTime he)

theorem loadS64_fits (m : Gc.GcMem) (a : Nat) : Fits64 (loadS64 m a) := by
  have h₁ := m.load_lt a
  have h₂ := m.load_lt (a + 4)
  unfold loadS64 Fits64 OSThread.toS32
  split <;> constructor <;> omega

theorem rep_init (hA : Arena A s.mem) : Rep A (portOSAlarmInit s) (alarmAt s.mem) .empty := by
  refine ⟨⟨⟨hA, fun _ _ => rfl⟩, nofun, .empty⟩, nofun, fun a ha _ => ?_⟩
  cases ha with
  | inl h => cases h
  | inr h => cases h

/-- When the head is not due, nothing is. -/
theorem Schedule.early_or_due (p : Schedule) (time : Int) :
    (∀ e ∈ p.waiting, time < e.fire) ∨ ∃ e l, p.waiting = e :: l ∧ e.fire ≤ time := by
  have hs := p.sorted
  cases hw : p.waiting with
  | nil => exact .inl (by simp)
  | cons e l =>
    rw [hw] at hs
    by_cases hle : e.fire ≤ time
    · exact .inr ⟨e, l, rfl, hle⟩
    · left
      intro x hx
      cases List.mem_cons.mp hx with
      | inl he => exact he ▸ Int.not_le.mp hle
      | inr hm => exact lt_of_lt_of_le (Int.not_le.mp hle) ((List.pairwise_cons.mp hs).1 x hm).le

namespace Rep

theorem keeps (h : Rep A s f p) : s.Keeps A p := by
  have hl : Dll 0 (fun a => s.load (a + PORT_ALARM_NEXT)) (fun a => s.load (a + PORT_ALARM_PREV))
      s.queueHead s.queueTail p.alarms :=
    h.chain.dll.congr (fun a ha => h.chain.views.load_next (h.chain.within a ha))
      fun a ha => h.chain.views.load_prev (h.chain.within a ha)
  refine ⟨hl, hl.walk (Nat.le_of_lt h.chain.length_lt), h.chain.within, ?_, ?_⟩
  · intro e he
    rw [h.chain.views.eq _ (h.within he)]
    exact h.shown e he
  · intro a ha hk
    have hl : s.load (a + PORT_ALARM_HANDLER) = (f a).handler := h.chain.views.load_handler ha
    rw [hl]
    exact h.queued_iff hk

theorem queued (h : Rep A s f p) : s.queued = p.alarms := h.keeps.queued

/-- The head of the queue is the first alarm that waits. -/
theorem head_eq (h : Rep A s f p) {e : Entry} {l : List Entry} (hw : p.waiting = e :: l) :
    s.queueHead = e.alarm := by
  rw [h.chain.dll.head_eq, Schedule.alarms, hw]
  rfl

theorem refire (h : Rep A s f p) (hfit : s.RefireFits) {e : Entry} {l : List Entry}
    (hw : p.waiting = e :: l) (start period : Int) (hk : e.kind = .periodic start period) :
    Fits64 start ∧ FireFits s.systemTime start period := by
  have he : e ∈ p.waiting := hw ▸ List.mem_cons_self
  have hs : s.loadS64 (e.alarm + PORT_ALARM_START) = (f e.alarm).start :=
    h.chain.views.load_start (h.within he)
  have hp : s.loadS64 (e.alarm + PORT_ALARM_PERIOD) = (f e.alarm).period :=
    h.chain.views.load_period (h.within he)
  have hkind := (h.shown e he).kind
  have hsound := p.sound e he
  rw [hk] at hkind hsound
  obtain ⟨h₁, h₂⟩ := hkind
  rw [St.RefireFits, h.head_eq hw, hs, hp, h₁, h₂] at hfit
  refine ⟨?_, hfit hsound.1⟩
  rw [← h₂, ← hs]
  exact loadS64_fits _ _

/-- The log grows by what the firing adds to it. -/
theorem fire_log (h : Rep A s f p) {e : Entry} (he : e ∈ p.waiting) :
    (p.fire e s.systemTime he).log = p.log ++ s.fired e.alarm := by
  have hp : s.loadS64 (e.alarm + PORT_ALARM_PERIOD) = (f e.alarm).period :=
    h.chain.views.load_period (h.within he)
  have hkind := (h.shown e he).kind
  have hsound := p.sound e he
  rw [St.fired, if_neg (h.chain.views.ne_zero (h.within he)), hp]
  cases hk : e.kind with
  | oneShot =>
    rw [hk] at hkind
    rw [p.fire_oneShot he hk, if_neg (by rw [show (f e.alarm).period = 0 from hkind]; decide)]
    rfl
  | periodic start period =>
    rw [hk] at hkind hsound
    rw [p.fire_periodic he hk, if_pos (by rw [hkind.1]; exact hsound.1)]
    simp [Schedule.insert, Schedule.remove]

theorem obeys (h : Rep A s f p) : s.Obeys A p := by
  constructor
  case create =>
    intro a ha hna
    obtain ⟨f', hr⟩ := h.create ha hna
    exact hr.keeps
  case set =>
    intro a tick hna ha hfit
    obtain ⟨s', f', hs, hr, _⟩ := h.set ha hna hfit
    exact ⟨s', hs, hr.keeps⟩
  case setPeriodic =>
    intro a start period hna hp ha hs hp' hfit
    obtain ⟨s', f', hs, hr, _⟩ := h.setPeriodic ha hna hp hs hp' hfit
    exact ⟨s', hs, hr.keeps⟩
  case cancel =>
    intro a ha
    obtain ⟨f', hr⟩ := h.cancel ha
    have hA := h.chain.within a ha
    have hknown : Known p.log a := by
      obtain ⟨e, he, rfl⟩ := List.mem_map.mp ha
      exact .inr (List.mem_of_getElem? (p.stamped e he))
    have hk : Known (p.log ++ [.cancel a]) a :=
      hknown.imp (List.mem_append_left _) (List.mem_append_left _)
    exact ⟨hr.keeps, hr.cancel_idle hA hk p.not_mem_remove⟩
  case cancelIdle =>
    intro a ha hk hna
    exact h.cancel_idle ha hk hna
  case early => exact h.fireHead_early
  case due =>
    intro e l he hw hdue hfit
    obtain ⟨s', f', hs, hr, _⟩ := h.fireHead_due hw he hdue (h.refire hfit hw)
    exact ⟨s', hs, hr.keeps⟩

end Rep

/-- One step of a run is one step of the schedule. -/
theorem Reach.rep (h : Reach A log s) : ∃ f p, p.log = log ∧ Rep A s f p := by
  induction h with
  | init s hA => exact ⟨_, .empty, rfl, rep_init hA⟩
  | create a _ ha hna ih =>
    obtain ⟨f, p, rfl, hr⟩ := ih
    rw [hr.queued] at hna
    obtain ⟨f', hr'⟩ := hr.create ha hna
    exact ⟨f', _, rfl, hr'⟩
  | set a tick _ ha hna hfit hs ih =>
    obtain ⟨f, p, rfl, hr⟩ := ih
    rw [hr.queued] at hna
    obtain ⟨s', f', hs', hr', _⟩ := hr.set ha hna hfit
    cases hs.symm.trans hs'
    exact ⟨f', _, rfl, hr'⟩
  | setPeriodic a start period _ ha hna hp hs₁ hp₁ hfit hs ih =>
    obtain ⟨f, p, rfl, hr⟩ := ih
    rw [hr.queued] at hna
    obtain ⟨s', f', hs', hr', _⟩ := hr.setPeriodic ha hna hp hs₁ hp₁ hfit
    cases hs.symm.trans hs'
    exact ⟨f', _, rfl, hr'⟩
  | cancel a _ ha hk hh ih =>
    obtain ⟨f, p, rfl, hr⟩ := ih
    have hm : a ∈ p.alarms := (hr.keeps.active a ha hk).mpr hh
    obtain ⟨f', hr'⟩ := hr.cancel hm
    exact ⟨f', _, rfl, hr'⟩
  | cancelIdle a _ ha hk hh ih =>
    obtain ⟨f, p, rfl, hr⟩ := ih
    have hm : a ∉ p.alarms := fun hm => (hr.keeps.active a ha hk).mp hm hh
    rw [hr.cancel_idle ha hk hm]
    exact ⟨f, p, rfl, hr⟩
  | @fire log s s' a _ hfit hs ih =>
    obtain ⟨f, p, rfl, hr⟩ := ih
    cases p.early_or_due s.systemTime with
    | inl hearly =>
      cases hs.symm.trans (hr.fireHead_early hearly)
      exact ⟨f, p, by simp [St.fired], hr⟩
    | inr hdue =>
      obtain ⟨e, l, hw, hle⟩ := hdue
      have he : e ∈ p.waiting := hw ▸ List.mem_cons_self
      obtain ⟨s', f', hs', hr', _⟩ := hr.fireHead_due hw he hle (hr.refire hfit hw)
      cases hs.symm.trans hs'
      exact ⟨f', _, hr.fire_log he, hr'⟩
  | advance time _ _ _ ih =>
    obtain ⟨f, p, hl, hr⟩ := ih
    exact ⟨f, p, hl, ⟨hr.chain.views, hr.chain.within, hr.chain.dll⟩, hr.shown, hr.idle⟩

/-- The queue keeps a schedule over every run, every function does what the schedule's
operation does, and an alarm that entered leaves once. -/
theorem reached_schedule (h : Reach A log s) :
    ∃ p : Schedule, p.log = log ∧ s.Keeps A p ∧ s.Obeys A p ∧
      (∀ a u v, log = u ++ .enter a :: v → .enter a ∉ v → exits v a = if a ∈ s.queued then 0 else 1) ∧
      ∀ a u v w, log = u ++ .enter a :: (v ++ .enter a :: w) → .enter a ∉ v → exits v a = 1 := by
  obtain ⟨f, p, rfl, hr⟩ := h.rep
  refine ⟨p, rfl, hr.keeps, hr.obeys, ?_, ?_⟩
  · intro a u v hl hv
    rw [hr.queued]
    exact p.exits_since hl hv
  · intro a u v w hl hv
    exact p.exits_between hl hv

section Trial

def trialAlarms (a : Nat) : Prop := a = 128 ∨ a = 192

/-- Fresh memory for two alarms. -/
def trialBoot : St := portOSAlarmInit ⟨⟨64, 4096, fun _ => 0⟩, 0, 0, 0⟩

def trialSet : St := (portOSSetAlarm trialBoot 128 5).get (by decide +kernel)
def trialPeriodic : St := (portOSSetPeriodicAlarm trialSet 192 5 3).get (by decide +kernel)
def trialDue : St := { trialPeriodic with systemTime := 5 }
def trialFired : St := ((portOSAlarmFireHead trialDue).get (by decide +kernel)).2

theorem trialAlarms_arena : Arena trialAlarms trialBoot.mem := by
  refine ⟨?_, ?_, ?_, ?_⟩
  · rintro a (rfl | rfl) <;> decide
  · rintro a (rfl | rfl) <;> decide
  · rintro a (rfl | rfl) <;> exact ⟨by decide, by decide⟩
  · rintro a b (rfl | rfl) (rfl | rfl) hab
    · exact absurd rfl hab
    · exact .inl (by decide)
    · exact .inr (by decide)
    · exact absurd rfl hab

theorem trialDue_reach : Reach trialAlarms [.enter 128, .enter 192] trialDue := by
  have h₀ : Reach trialAlarms [] trialBoot := .init ⟨⟨64, 4096, fun _ => 0⟩, 0, 0, 0⟩ trialAlarms_arena
  have h₁ : Reach trialAlarms [.enter 128] trialSet :=
    .set 128 5 h₀ (.inl rfl) (by decide +kernel) (by decide +kernel) (Option.some_get _).symm
  have h₂ : Reach trialAlarms [.enter 128, .enter 192] trialPeriodic :=
    .setPeriodic 192 5 3 h₁ (.inr rfl) (by decide +kernel) (by decide) (by decide) (by decide)
      (fun h => absurd h (by decide +kernel)) (Option.some_get _).symm
  exact .advance 5 h₂ (by decide +kernel) (by decide)

/-- Of two alarms due at the same time the one set first fires. -/
theorem trialFired_schedule : ∃ p : Schedule, p.log = [.enter 128, .enter 192, .fire 128] ∧
    trialFired.Keeps trialAlarms p := by
  have hf : portOSAlarmFireHead trialDue = some (128, trialFired) := by
    have hv : ((portOSAlarmFireHead trialDue).get (by decide +kernel)).1 = 128 := by decide +kernel
    have hsome : (portOSAlarmFireHead trialDue).isSome := by decide +kernel
    exact (Option.some_get hsome).symm.trans (congrArg some (Prod.ext hv rfl))
  have h₄ : Reach trialAlarms ([.enter 128, .enter 192] ++ trialDue.fired 128) trialFired :=
    .fire 128 trialDue_reach (fun h => absurd h (by decide +kernel)) hf
  have hl : [.enter 128, .enter 192] ++ trialDue.fired 128 = [.enter 128, .enter 192, .fire 128] := by
    decide +kernel
  obtain ⟨p, hp, hk, _⟩ := reached_schedule (hl ▸ h₄)
  exact ⟨p, hp, hk⟩

end Trial

end SdkPort.OSAlarm
