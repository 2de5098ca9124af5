import SdkPort.OS.AlarmRuns

/-!
# Firing all that is due

At a fixed time the head is fired until it is not due. An alarm put back later than the time
does not fire again. One whose start is the time it fires at is put back at that same time.
-/
namespace SdkPort.OSAlarm

open StableInsert (insertLast)

/-- The head is fired again and again until nothing fires; the alarms that fired. -/
inductive Drain : St → List Nat → St → Prop
  | done {s s' : St} : portOSAlarmFireHead s = some (0, s') → Drain s [] s'
  | fire {s s' s'' : St} {a : Nat} {l : List Nat} : portOSAlarmFireHead s = some (a, s') → a ≠ 0 →
      Drain s' l s'' → Drain s (a :: l) s''

/-- A periodic alarm that begins at the time it fires at. -/
def Entry.Stuck (e : Entry) (time : Int) : Prop := e.fire = time ∧ ∃ period, e.kind = .periodic time period

/-- The next time of every periodic alarm can be computed in 64 bits. -/
def Schedule.Fits (p : Schedule) (time : Int) : Prop :=
  ∀ e ∈ p.waiting, ∀ start period, e.kind = .periodic start period → Fits64 start ∧ FireFits time start period

variable {A : Nat → Prop} {s s' : St} {f : Nat → Alarm} {p : Schedule} {e x : Entry} {l : List Entry}
  {time start period : Int} {log : List Event} {fired : List Nat}

section Schedule

/-- The next time is the first one of the alarm that is later. -/
theorem fireTime_least (hp : 0 < period) (hs : start < time) :
    IsLeast {t | time < t ∧ ∃ k : Nat, t = start + k * period} (fireTime time start period) := by
  have hq : 0 ≤ (time - start) / period := Int.ediv_nonneg (by omega) (le_of_lt hp)
  have hlt : time - start < ((time - start) / period + 1) * period := Int.lt_ediv_add_one_mul_self _ hp
  rw [fireTime, if_pos hs, Int.mul_comm]
  constructor
  · refine ⟨by omega, ((time - start) / period + 1).toNat, ?_⟩
    rw [Int.toNat_of_nonneg (by omega)]
  · rintro t ⟨ht, k, rfl⟩
    have hk : (time - start) / period < k := (Int.ediv_lt_iff_lt_mul hp).mpr (by omega)
    have hmul : ((time - start) / period + 1) * period ≤ k * period :=
      Int.mul_le_mul_of_nonneg_right (by omega) (le_of_lt hp)
    omega

/-- A due alarm that is not stuck began before. -/
theorem start_lt (hs : e.kind.Sound e.fire) (hk : e.kind = .periodic start period) (hdue : e.fire ≤ time)
    (hn : ¬ e.Stuck time) : start < time := by
  rw [hk] at hs
  obtain ⟨hp, k, hf⟩ := hs
  have hmul : 0 ≤ (k : Int) * period := Int.mul_nonneg (by omega) (le_of_lt hp)
  by_contra hle
  have he : start = time := by omega
  exact hn ⟨by omega, period, he ▸ hk⟩

/-- What waits after the head fired. -/
theorem fire_waiting (time : Int) (hw : p.waiting = e :: l) (he : e ∈ p.waiting) :
    (e.kind = .oneShot → (p.fire e time he).waiting = l) ∧
    ∀ start period, e.kind = .periodic start period → ∃ n, (p.fire e time he).waiting =
      insertLast Entry.fire ⟨e.alarm, fireTime time start period, e.kind, n⟩ l := by
  have hd := p.nodup
  rw [hw, List.map_cons, List.nodup_cons] at hd
  have hrest : (p.remove e.alarm (.fire e.alarm) (p.mem_alarms he) (.inr rfl)).waiting = l := by
    show p.waiting.filter _ = l
    rw [hw, List.filter_cons_of_neg (by simp), List.filter_eq_self]
    intro y hy
    simpa using fun hye : y.alarm = e.alarm => hd.1 (hye ▸ List.mem_map_of_mem hy)
  constructor
  · intro hk
    rw [p.fire_oneShot he hk, hrest]
  · intro start period hk
    refine ⟨(p.log ++ [Event.fire e.alarm]).length, ?_⟩
    rw [p.fire_periodic he hk]
    show insertLast Entry.fire _ (p.remove e.alarm _ _ _).waiting = _
    rw [hrest]
    rfl

theorem mem_fire (hw : p.waiting = e :: l) (he : e ∈ p.waiting) (hx : x ∈ l) : x ∈ (p.fire e time he).waiting := by
  obtain ⟨hone, hper⟩ := fire_waiting time hw he
  cases hk : e.kind with
  | oneShot => rwa [hone hk]
  | periodic start period =>
    obtain ⟨n, hn⟩ := hper start period hk
    rw [hn]
    exact StableInsert.mem_insertLast.mpr (.inr hx)

/-- Kinds do not change. -/
theorem kind_fire (hw : p.waiting = e :: l) (he : e ∈ p.waiting) (hx : x ∈ (p.fire e time he).waiting) :
    ∃ y ∈ p.waiting, y.kind = x.kind := by
  obtain ⟨hone, hper⟩ := fire_waiting time hw he
  cases hk : e.kind with
  | oneShot =>
    rw [hone hk] at hx
    exact ⟨x, hw ▸ List.mem_cons_of_mem _ hx, rfl⟩
  | periodic start period =>
    obtain ⟨n, hn⟩ := hper start period hk
    rw [hn, StableInsert.mem_insertLast] at hx
    cases hx with
    | inl hx => exact ⟨e, he, by rw [hx]⟩
    | inr hx => exact ⟨x, hw ▸ List.mem_cons_of_mem _ hx, rfl⟩

theorem Schedule.Fits.fire (h : p.Fits time) (hw : p.waiting = e :: l) (he : e ∈ p.waiting) :
    (p.fire e time he).Fits time := by
  intro x hx start period hk
  obtain ⟨y, hy, hyx⟩ := kind_fire hw he hx
  exact h y hy start period (hyx.trans hk)

/-- The head that is not stuck is not due again. -/
theorem due_fire (hw : p.waiting = e :: l) (he : e ∈ p.waiting) (hdue : e.fire ≤ time) (hn : ¬ e.Stuck time) :
    (p.fire e time he).waiting.filter (fun x => x.fire ≤ time) = l.filter fun x => x.fire ≤ time := by
  obtain ⟨hone, hper⟩ := fire_waiting time hw he
  cases hk : e.kind with
  | oneShot => rw [hone hk]
  | periodic start period =>
    obtain ⟨n, hw'⟩ := hper start period hk
    have hs := p.sound e he
    have hlt := start_lt hs hk hdue hn
    rw [hk] at hs
    have hlater := (fireTime_least hs.1 hlt).1.1
    rw [hw']
    exact StableInsert.filter_insertLast (by simpa using hlater)

/-- Nothing that waits then is stuck if nothing was before. -/
theorem not_stuck_fire (hw : p.waiting = e :: l) (he : e ∈ p.waiting) (hdue : e.fire ≤ time)
    (hn : ∀ x ∈ p.waiting, ¬ x.Stuck time) : ∀ x ∈ (p.fire e time he).waiting, ¬ x.Stuck time := by
  intro x hx
  by_cases hlate : x.fire ≤ time
  · have hm : x ∈ (p.fire e time he).waiting.filter fun x => x.fire ≤ time :=
      List.mem_filter.mpr ⟨hx, decide_eq_true hlate⟩
    rw [due_fire hw he hdue (hn e he)] at hm
    exact hn x (hw ▸ List.mem_cons_of_mem _ (List.mem_filter.mp hm).1)
  · intro hs
    exact hlate (le_of_eq hs.1)

end Schedule

section Queue

/-- The head fires, whatever its kind. -/
theorem Rep.fireHead (h : Rep A s f p) (ht : s.systemTime = time) (hw : p.waiting = e :: l) (he : e ∈ p.waiting)
    (hdue : e.fire ≤ time) (hfit : p.Fits time) : ∃ s' f', portOSAlarmFireHead s = some (e.alarm, s') ∧
      e.alarm ≠ 0 ∧ Rep A s' f' (p.fire e time he) ∧ s'.systemTime = time := by
  subst ht
  obtain ⟨s', f', hs, hr, ht⟩ := h.fireHead_due hw he hdue (hfit e he)
  exact ⟨s', f', hs, h.chain.views.ne_zero (h.within he), hr, ht⟩

/-- Without a stuck alarm the due ones fire, each once, and those put back wait for their
next time. -/
theorem Rep.drains {due : List Entry} (h : Rep A s f p) (ht : s.systemTime = time) (hfit : p.Fits time)
    (hn : ∀ e ∈ p.waiting, ¬ e.Stuck time) (hdue : p.waiting.filter (fun e => e.fire ≤ time) = due) :
    ∃ s' f' p', Drain s (due.map Entry.alarm) s' ∧ Rep A s' f' p' ∧
      (∀ e ∈ p.waiting, time < e.fire → e ∈ p'.waiting) ∧
      ∀ e ∈ due, ∀ start period, e.kind = .periodic start period →
        ∃ n, (⟨e.alarm, fireTime time start period, e.kind, n⟩ : Entry) ∈ p'.waiting := by
  induction due generalizing s f p with
  | nil =>
    have hearly : ∀ e ∈ p.waiting, s.systemTime < e.fire := by
      intro e he
      have := List.filter_eq_nil_iff.mp hdue e he
      simpa [ht] using this
    exact ⟨s, f, p, .done (h.fireHead_early hearly), h, fun e he _ => he, nofun⟩
  | cons x due ih =>
    have hx : x ∈ p.waiting ∧ x.fire ≤ time := by
      have : x ∈ p.waiting.filter fun e => e.fire ≤ time := by simp [hdue]
      simpa using this
    obtain ⟨e, l, hw, hle⟩ := (p.early_or_due time).resolve_left fun hearly =>
      absurd (hearly x hx.1) (Int.not_lt.mpr hx.2)
    rw [hw, List.filter_cons_of_pos (by simpa using hle), List.cons.injEq] at hdue
    obtain ⟨rfl, hdue⟩ := hdue
    have he := hx.1
    obtain ⟨s', f', hs, h0, hr, ht'⟩ := h.fireHead ht hw he hle hfit
    obtain ⟨s'', f'', p', hd, hr'', hkeep, hnext⟩ := ih hr ht' (hfit.fire hw he) (not_stuck_fire hw he hle hn)
      ((due_fire hw he hle (hn e he)).trans hdue)
    refine ⟨s'', f'', p', .fire hs h0 hd, hr'', ?_, ?_⟩
    · intro y hy hlate
      apply hkeep y _ hlate
      rw [hw, List.mem_cons] at hy
      cases hy with
      | inl hye => exact absurd hle (Int.not_le.mpr (hye ▸ hlate))
      | inr hy => exact mem_fire hw he hy
    · intro y hy start period hk
      cases List.mem_cons.mp hy with
      | inr hy => exact hnext y hy start period hk
      | inl hye =>
        subst hye
        obtain ⟨n, hn'⟩ := (fire_waiting time hw he).2 start period hk
        have hsound := p.sound y he
        have hlt := start_lt hsound hk hle (hn y he)
        rw [hk] at hsound
        refine ⟨n, hkeep _ ?_ (fireTime_least hsound.1 hlt).1.1⟩
        rw [hn']
        exact StableInsert.mem_insertLast.mpr (.inl rfl)

/-- A stuck alarm stays stuck, so the drain does not end. -/
theorem Rep.not_drain (hd : Drain s fired s') (h : Rep A s f p) (ht : s.systemTime = time) (hfit : p.Fits time)
    (hx : x ∈ p.waiting) (hstuck : x.Stuck time) : False := by
  obtain ⟨hfire, period, hkind⟩ := id hstuck
  induction hd generalizing f p x with
  | done hr =>
    obtain ⟨e, l, hw, hle⟩ := (p.early_or_due time).resolve_left fun hearly =>
      absurd (hearly x hx) (Int.not_lt.mpr (le_of_eq hfire))
    obtain ⟨s', f', hs, h0, -⟩ := h.fireHead ht hw (hw ▸ List.mem_cons_self) hle hfit
    rw [hs, Option.some_inj, Prod.mk.injEq] at hr
    exact h0 hr.1
  | fire hr _ _ ih =>
    obtain ⟨e, l, hw, hle⟩ := (p.early_or_due time).resolve_left fun hearly =>
      absurd (hearly x hx) (Int.not_lt.mpr (le_of_eq hfire))
    have he : e ∈ p.waiting := hw ▸ List.mem_cons_self
    obtain ⟨s', f', hs, h0, hr', ht'⟩ := h.fireHead ht hw he hle hfit
    rw [hs, Option.some_inj, Prod.mk.injEq] at hr
    obtain ⟨-, rfl⟩ := hr
    rw [hw, List.mem_cons] at hx
    cases hx with
    | inr hx => exact ih hr' ht' (hfit.fire hw he) (mem_fire hw he hx) hstuck hfire hkind
    | inl hx =>
      subst hx
      -- its start is not before the time, so that it is put back where it was
      obtain ⟨n, hw'⟩ := (fire_waiting time hw he).2 time period hkind
      have hsame : fireTime time time period = time := if_neg (by omega)
      have hm : (⟨x.alarm, fireTime time time period, x.kind, n⟩ : Entry) ∈ (p.fire x time he).waiting := by
        rw [hw']
        exact StableInsert.mem_insertLast.mpr (.inl rfl)
      exact ih hr' ht' (hfit.fire hw he) hm ⟨hsame, period, hkind⟩ hsame hkind

end Queue

section Memory

/-- What the memory holds of a waiting alarm. -/
theorem Rep.reads (h : Rep A s f p) (he : e ∈ p.waiting) : s.loadS64 (e.alarm + PORT_ALARM_FIRE) = e.fire ∧
    (e.kind = .oneShot → s.loadS64 (e.alarm + PORT_ALARM_PERIOD) = 0) ∧
    ∀ start period, e.kind = .periodic start period → 0 < period ∧
      s.loadS64 (e.alarm + PORT_ALARM_PERIOD) = period ∧ s.loadS64 (e.alarm + PORT_ALARM_START) = start := by
  have ha := h.within he
  have hshown := h.shown e he
  have hkind := hshown.kind
  have hsound := p.sound e he
  refine ⟨(h.chain.views.load_fire ha).trans hshown.fire, ?_, ?_⟩
  · intro hk
    rw [hk] at hkind
    exact (h.chain.views.load_period ha).trans hkind
  · intro start period hk
    rw [hk] at hkind hsound
    exact ⟨hsound.1, (h.chain.views.load_period ha).trans hkind.1, (h.chain.views.load_start ha).trans hkind.2⟩

/-- An alarm of a period that starts, and fires, at the system time. -/
def St.Stuck (s : St) (a : Nat) : Prop :=
  0 < s.loadS64 (a + PORT_ALARM_PERIOD) ∧ s.loadS64 (a + PORT_ALARM_START) = s.systemTime ∧
    s.loadS64 (a + PORT_ALARM_FIRE) = s.systemTime

theorem Rep.stuck_iff (h : Rep A s f p) (he : e ∈ p.waiting) : s.Stuck e.alarm ↔ e.Stuck s.systemTime := by
  obtain ⟨hf, hone, hper⟩ := h.reads he
  rw [St.Stuck, Entry.Stuck, hf]
  cases hk : e.kind with
  | oneShot =>
    rw [hone hk]
    simp
  | periodic start period =>
    obtain ⟨hpos, hp, hs⟩ := hper start period hk
    rw [hp, hs]
    simp [hpos, and_comm]

/-- The next time of every alarm of a period can be computed in 64 bits. -/
def St.NextFits (s : St) : Prop :=
  ∀ a ∈ s.queued, 0 < s.loadS64 (a + PORT_ALARM_PERIOD) →
    FireFits s.systemTime (s.loadS64 (a + PORT_ALARM_START)) (s.loadS64 (a + PORT_ALARM_PERIOD))

theorem Rep.fits (h : Rep A s f p) (hfit : s.NextFits) : p.Fits s.systemTime := by
  intro e he start period hk
  obtain ⟨-, -, hper⟩ := h.reads he
  obtain ⟨hpos, hp, hs⟩ := hper start period hk
  have hq : e.alarm ∈ s.queued := h.queued ▸ p.mem_alarms he
  have hff := hfit e.alarm hq (hp ▸ hpos)
  rw [hp, hs] at hff
  exact ⟨hs ▸ loadS64_fits _ _, hff⟩

/-- The drain ends: no alarm fires twice, and one of a period waits for its next time. -/
def St.Drains (s : St) : Prop :=
  ∃ fired s', Drain s fired s' ∧ fired.length ≤ s.queued.length ∧ fired.Nodup ∧
    ∀ a ∈ fired, 0 < s.loadS64 (a + PORT_ALARM_PERIOD) → a ∈ s'.queued ∧
      IsLeast {t | s.systemTime < t ∧
          ∃ k : Nat, t = s.loadS64 (a + PORT_ALARM_START) + k * s.loadS64 (a + PORT_ALARM_PERIOD)}
        (s'.loadS64 (a + PORT_ALARM_FIRE))

end Memory

/-- At every state of a run, firing all that is due ends exactly if no queued alarm is stuck. -/
theorem reached_drains (h : Reach A log s) (hfit : s.NextFits) : s.Drains ↔ ∀ a ∈ s.queued, ¬ s.Stuck a := by
  obtain ⟨f, p, -, hr⟩ := h.rep
  have hp := hr.fits hfit
  have hstuck : (∀ a ∈ s.queued, ¬ s.Stuck a) ↔ ∀ e ∈ p.waiting, ¬ e.Stuck s.systemTime := by
    rw [hr.queued, Schedule.alarms, List.forall_mem_map]
    exact forall₂_congr fun e he => not_congr (hr.stuck_iff he)
  rw [hstuck]
  constructor
  · intro ⟨fired, s', hd, _⟩ e he hs
    exact Rep.not_drain hd hr rfl hp he hs
  · intro hn
    obtain ⟨s', f', p', hd, hr', -, hnext⟩ := hr.drains rfl hp hn rfl
    refine ⟨_, s', hd, ?_, ?_, ?_⟩
    · rw [hr.queued, Schedule.alarms, List.length_map, List.length_map]
      exact List.length_filter_le ..
    · exact p.nodup.sublist (List.filter_sublist.map _)
    · intro a ha hpos
      obtain ⟨e, hdue, rfl⟩ := List.mem_map.mp ha
      obtain ⟨he, hle⟩ := List.mem_filter.mp hdue
      obtain ⟨-, hone, hper⟩ := hr.reads he
      cases hk : e.kind with
      | oneShot =>
        rw [hone hk] at hpos
        exact absurd hpos (by decide)
      | periodic start period =>
        obtain ⟨hpos, hpe, hst⟩ := hper start period hk
        obtain ⟨n, hmem⟩ := hnext e hdue start period hk
        have hlt := start_lt (p.sound e he) hk (by simpa using hle) (hn e he)
        have hm := p'.mem_alarms hmem
        rw [← hr'.queued] at hm
        refine ⟨hm, ?_⟩
        rw [hpe, hst, (hr'.reads hmem).1]
        exact fireTime_least hpos hlt

section Trial

theorem trialDue_queued : trialDue.queued = [128, 192] := by decide +kernel

theorem trialDue_nextFits : trialDue.NextFits := by
  intro a ha hpos
  rw [trialDue_queued, List.mem_pair] at ha
  cases ha with
  | inl ha =>
    subst ha
    exact absurd hpos (by decide +kernel)
  | inr ha =>
    subst ha
    intro hlt
    exact absurd hlt (by decide +kernel)

/-- The alarm that starts at the time fires for ever. -/
theorem trialDue_endless : Reach trialAlarms [.enter 128, .enter 192] trialDue ∧ trialDue.NextFits ∧
    ∀ fired s', ¬ Drain trialDue fired s' := by
  refine ⟨trialDue_reach, trialDue_nextFits, ?_⟩
  intro fired s' hd
  obtain ⟨f, p, -, hr⟩ := trialDue_reach.rep
  have hq : 192 ∈ p.alarms := by
    rw [← hr.queued, trialDue_queued]
    decide
  obtain ⟨e, he, ha⟩ := List.mem_map.mp hq
  have hs : trialDue.Stuck e.alarm := by
    rw [ha]
    exact ⟨by decide +kernel, by decide +kernel, by decide +kernel⟩
  exact Rep.not_drain hd hr rfl (hr.fits trialDue_nextFits) he ((hr.stuck_iff he).mp hs)

theorem trialDue_drains : trialDue.Drains ↔ ∀ a ∈ trialDue.queued, ¬ trialDue.Stuck a :=
  reached_drains trialDue_reach trialDue_nextFits

end Trial

end SdkPort.OSAlarm
