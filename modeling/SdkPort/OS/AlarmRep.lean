import SdkPort.OS.AlarmLinks

/-!
# The queue holds a schedule

Each function of the source does to the schedule in memory what the schedule's own
operation does.
-/
namespace SdkPort.OSAlarm

open Function (update update_self update_of_ne)
open Gc (GcMem)
open Linked (Dll Seg firstOf)
open StableInsert (before behind insertLast before_append_behind)

def Kind.Shown (r : Alarm) : Kind → Prop
  | .oneShot => r.period = 0
  | .periodic start period => r.period = period ∧ r.start = start

/-- The record is that of the waiting alarm. -/
structure Entry.Shown (e : Entry) (r : Alarm) : Prop where
  handler : r.handler = 1
  fire : r.fire = e.fire
  kind : e.kind.Shown r

/-- The memory holds the schedule; `f` are the records in it. -/
structure Rep (A : Nat → Prop) (s : St) (f : Nat → Alarm) (p : Schedule) : Prop where
  chain : Chain A s f p.alarms
  shown : ∀ e ∈ p.waiting, e.Shown (f e.alarm)
  idle : ∀ a, Known p.log a → a ∉ p.alarms → (f a).handler = 0

/-- The fire time can be computed in 64 bits. -/
def FireFits (time start period : Int) : Prop :=
  start < time → Fits64 (time - start) ∧ Fits64 (period * ((time - start) / period + 1)) ∧
    Fits64 (start + period * ((time - start) / period + 1))

variable {A : Nat → Prop} {m : GcMem} {s s' : St} {f f' g : Nat → Alarm} {p : Schedule} {a n q : Nat}
  {t start period : Int} {k : Kind} {e : Entry}

theorem fireTime_fits (h : FireFits s.systemTime start period) (hs : Fits64 start) :
    Fits64 (fireTime s.systemTime start period) := by
  unfold fireTime
  split
  · rename_i hlt
    exact (h hlt).2.2
  · exact hs

theorem Entry.Shown.congr {r r' : Alarm} (h : e.Shown r) (hr : r'.data = r.data) : e.Shown r' := by
  simp only [Alarm.data, Prod.mk.injEq] at hr
  obtain ⟨h₁, h₂, h₃, h₄⟩ := hr
  refine ⟨h₁.trans h.handler, h₂.trans h.fire, ?_⟩
  have hk := h.kind
  cases he : e.kind with
  | oneShot =>
    rw [he] at hk
    exact h₃.trans hk
  | periodic start period =>
    rw [he] at hk
    exact ⟨h₃.trans hk.1, h₄.trans hk.2⟩

/-- The search stops at the first alarm that comes behind. -/
theorem findLater_eq (hv : Views A m f) {l : List Entry} (hA : ∀ e ∈ l, A e.alarm)
    (hf : ∀ e ∈ l, (f e.alarm).fire = e.fire)
    (hs : Seg (fun a => (f a).next) (fun a => (f a).prev) q (l.map Entry.alarm) 0) (hn : l.length < n) :
    findLater m t n (firstOf 0 (l.map Entry.alarm)) =
      some (firstOf 0 ((behind Entry.fire t l).map Entry.alarm)) := by
  induction l generalizing n q with
  | nil =>
    cases n with
    | zero => cases hn
    | succ n => rfl
  | cons e l ih =>
    obtain ⟨_, hnext, hs⟩ := hs
    replace hnext : (f e.alarm).next = firstOf 0 (l.map Entry.alarm) := hnext
    have he := hA e List.mem_cons_self
    cases n with
    | zero => cases hn
    | succ n =>
      rw [List.map_cons, Linked.firstOf_cons, findLater, if_neg (hv.ne_zero he), hv.load_fire he,
        hf e List.mem_cons_self, hv.load_next he, hnext]
      by_cases hle : e.fire ≤ t
      · rw [if_pos hle, behind, List.dropWhile_cons_of_pos (by simpa using hle)]
        exact ih (fun x hx => hA x (List.mem_cons_of_mem _ hx))
          (fun x hx => hf x (List.mem_cons_of_mem _ hx)) hs (Nat.lt_of_succ_lt_succ hn)
      · rw [if_neg hle, behind, List.dropWhile_cons_of_neg (by simpa using hle)]
        rfl

theorem insertTail_systemTime (s : St) (a : Nat) : (insertTail s a).systemTime = s.systemTime := by
  by_cases h : s.queueTail = 0 <;> simp [insertTail, St.store, h]

theorem insertBefore_systemTime (s : St) (a y : Nat) :
    (insertBefore s a y).systemTime = s.systemTime := by
  unfold insertBefore
  dsimp only
  split <;> rfl

theorem removeHead_systemTime (s : St) (a : Nat) : (removeHead s a).systemTime = s.systemTime := by
  unfold removeHead
  dsimp only
  split <;> rfl

namespace Rep

theorem within (h : Rep A s f p) (he : e ∈ p.waiting) : A e.alarm := h.chain.within _ (p.mem_alarms he)

theorem fuel (h : Rep A s f p) : p.waiting.length < alarmFuel := by
  have hl := h.chain.length_lt
  rwa [Schedule.alarms, List.length_map] at hl

/-- An alarm known to the program waits exactly while it has a handler. -/
theorem queued_iff (h : Rep A s f p) (hk : Known p.log a) : a ∈ p.alarms ↔ (f a).handler ≠ 0 := by
  constructor
  · intro hm
    obtain ⟨e, he, rfl⟩ := List.mem_map.mp hm
    rw [(h.shown e he).handler]
    decide
  · intro hh
    by_contra hna
    exact hh (h.idle a hk hna)

/-- Writing to alarms that do not wait. -/
theorem chain_off (h : Rep A s f p) (s' : St) (hv : Views A s'.mem g) (hh : s'.queueHead = s.queueHead)
    (ht : s'.queueTail = s.queueTail) (hg : ∀ b ∈ p.alarms, g b = f b) : Chain A s' g p.alarms := by
  refine ⟨hv, h.chain.within, ?_⟩
  rw [hh, ht]
  apply h.chain.dll.congr
  · intro b hb
    rw [hg b hb]
  · intro b hb
    rw [hg b hb]

theorem off (h : Rep A s f p) (s' : St) (hv : Views A s'.mem g) (hh : s'.queueHead = s.queueHead)
    (ht : s'.queueTail = s.queueTail) (hg : ∀ b ∈ p.alarms, g b = f b)
    (hi : ∀ b, b ∉ p.alarms → (g b).handler = (f b).handler) : Rep A s' g p := by
  refine ⟨h.chain_off s' hv hh ht hg, ?_, ?_⟩
  · intro e he
    rw [hg _ (p.mem_alarms he)]
    exact h.shown e he
  · intro b hb hnb
    rw [hi b hnb]
    exact h.idle b hb hnb

/-- What remains once the new alarm is linked. -/
theorem inserted (h : Rep A s f p) {hna : a ∉ p.alarms} {hk : k.Sound t}
    (hc : Chain A s' f' (p.insert a k t hna hk).alarms) (hd : ∀ b, (f' b).data = (g b).data)
    (hg : ∀ b, b ≠ a → g b = f b) (hga : Entry.Shown ⟨a, t, k, p.log.length⟩ (g a)) :
    Rep A s' f' (p.insert a k t hna hk) := by
  refine ⟨hc, ?_, ?_⟩
  · intro e he
    apply Entry.Shown.congr _ (hd e.alarm)
    cases StableInsert.mem_insertLast.mp he with
    | inl he' => rwa [he']
    | inr hm =>
      rw [hg _ fun hea => hna (hea ▸ p.mem_alarms hm)]
      exact h.shown e hm
  · intro b hb hnb
    have hba : b ≠ a := by
      rintro rfl
      apply hnb
      exact List.mem_map_of_mem (f := Entry.alarm) (StableInsert.mem_insertLast.mpr (.inl rfl))
    have hbp : b ∉ p.alarms := by
      intro hm
      obtain ⟨e, he, rfl⟩ := List.mem_map.mp hm
      exact hnb (List.mem_map_of_mem (StableInsert.mem_insertLast.mpr (.inr he)))
    have hbk : Known p.log b := by
      simpa [Known, Schedule.insert, hba] using hb
    have hdb := congrArg Prod.fst ((hd b).trans (congrArg Alarm.data (hg b hba)))
    exact hdb.trans (h.idle b hbk hbp)

/-- A new alarm is linked at the place the search finds. -/
theorem insert (h : Rep A s f p) (ha : A a) (hna : a ∉ p.alarms) (hk : k.Sound t) (hfit : Fits64 t)
    (hshown : k.Shown (f a)) {t₀ : Int} (ht : insertFire s a t₀ = t) :
    ∃ s' f', InsertAlarm s a t₀ 1 = some s' ∧ Rep A s' f' (p.insert a k t hna hk) ∧
      s'.systemTime = s.systemTime := by
  have hv := (h.chain.views.handler ha (v := 1) (by decide)).fire ha hfit
  have hg : ∀ b, b ≠ a → setFire (setHandler f a 1) a t b = f b := by
    intro b hba
    rw [setFire, update_of_ne hba, setHandler, update_of_ne hba]
  have hga : Entry.Shown ⟨a, t, k, p.log.length⟩
      (setFire (setHandler f a 1) a t a) := by
    refine ⟨by simp [setFire, setHandler], by simp [setFire], ?_⟩
    cases k with
    | oneShot => simpa [setFire, setHandler, Kind.Shown] using hshown
    | periodic start period => simpa [setFire, setHandler, Kind.Shown] using hshown
  have hga' : ∀ e ∈ p.waiting, e.alarm ≠ a := fun e he hea => hna (hea ▸ p.mem_alarms he)
  have hc := h.chain_off ((s.store (a + PORT_ALARM_HANDLER) 1).storeS64 (a + PORT_ALARM_FIRE) t) hv
    rfl rfl fun b hb => hg b fun hba => hna (hba ▸ hb)
  have hfind := findLater_eq (t := t) hc.views (fun e he => h.within he)
    (fun e he => by rw [hg _ (hga' e he)]; exact (h.shown e he).fire) hc.dll.seg h.fuel
  have hhead := hc.dll.head_eq
  have hsplit := before_append_behind Entry.fire t p.waiting
  rw [← Schedule.alarms, ← hhead] at hfind
  unfold InsertAlarm
  simp only [ht, hfind, Option.map_some, Option.some.injEq]
  cases hb : behind Entry.fire t p.waiting with
  | nil =>
    rw [hb, List.append_nil] at hsplit
    have hal : (p.insert a k t hna hk).alarms = p.alarms ++ [a] := by
      simp [Schedule.alarms, Schedule.insert, insertLast, hb, hsplit]
    obtain ⟨f', hc', hd⟩ := hc.insertTail ha hna
    exact ⟨_, f', rfl, h.inserted (hal ▸ hc') hd hg hga, insertTail_systemTime _ _⟩
  | cons y v =>
    have hal : (p.insert a k t hna hk).alarms =
        (before Entry.fire t p.waiting).map Entry.alarm ++ a :: y.alarm :: v.map Entry.alarm := by
      simp [Schedule.alarms, Schedule.insert, insertLast, hb]
    have hpa : p.alarms =
        (before Entry.fire t p.waiting).map Entry.alarm ++ y.alarm :: v.map Entry.alarm := by
      have hm := congrArg (List.map Entry.alarm) hsplit
      rw [hb, List.map_append, List.map_cons] at hm
      exact hm.symm
    rw [hpa] at hc
    obtain ⟨f', hc', hd⟩ := hc.insertBefore ha (hpa ▸ hna)
    have hy0 : y.alarm ≠ 0 := hc.views.ne_zero (hc.within y.alarm (by simp))
    rw [List.map_cons, Linked.firstOf_cons, if_pos hy0]
    exact ⟨_, f', rfl, h.inserted (hal ▸ hc') hd hg hga, insertBefore_systemTime _ _ _⟩

/-- What remains once an alarm is unlinked and its handler cleared. -/
theorem removed (h : Rep A s f p) {ha : a ∈ p.alarms} {ev : Event} {hev : ev.Leaves a}
    (hc : Chain A s' (setHandler g a 0) (p.remove a ev ha hev).alarms)
    (hd : ∀ b, (g b).data = (f b).data) :
    Rep A s' (setHandler g a 0) (p.remove a ev ha hev) := by
  refine ⟨hc, ?_, ?_⟩
  · intro e he
    obtain ⟨he, hne⟩ := List.mem_filter.mp he
    have hea : e.alarm ≠ a := by simpa using hne
    rw [setHandler, update_of_ne hea]
    exact (h.shown e he).congr (hd _)
  · intro b hb hnb
    by_cases hba : b = a
    · rw [hba, setHandler, update_self]
    · rw [setHandler, update_of_ne hba]
      have hbk : Known p.log b := by
        cases hev with
        | inl he => simpa [Known, Schedule.remove, he] using hb
        | inr he => simpa [Known, Schedule.remove, he] using hb
      have hbp : b ∉ p.alarms := by
        intro hm
        apply hnb
        rw [p.remove_alarms]
        exact List.mem_filter.mpr ⟨hm, by simpa using hba⟩
      exact (congrArg Prod.fst (hd b)).trans (h.idle b hbk hbp)

theorem cancel (h : Rep A s f p) (ha : a ∈ p.alarms) :
    ∃ f', Rep A (portOSCancelAlarm s a) f' (p.remove a (.cancel a) ha (.inl rfl)) := by
  obtain ⟨e, he, hea⟩ := List.mem_map.mp ha
  obtain ⟨u, w, hp⟩ := List.append_of_mem ha
  have hh : (f a).handler ≠ 0 := by
    rw [← hea, (h.shown e he).handler]
    decide
  obtain ⟨f', hc, hd⟩ := Chain.cancel (hp ▸ h.chain) hh
  have hsplit : (p.remove a (.cancel a) ha (.inl rfl)).alarms = u ++ w := p.remove_split hp
  rw [← hsplit] at hc
  exact ⟨_, h.removed hc hd⟩

/-- An alarm without a handler is not touched. -/
theorem cancel_idle (h : Rep A s f p) (ha : A a) (hk : Known p.log a) (hna : a ∉ p.alarms) :
    portOSCancelAlarm s a = s := by
  have hl : s.load (a + PORT_ALARM_HANDLER) = (f a).handler := h.chain.views.load_handler ha
  rw [portOSCancelAlarm, if_pos (hl.trans (h.idle a hk hna))]

theorem create (h : Rep A s f p) (ha : A a) (hna : a ∉ p.alarms) :
    ∃ f', Rep A (portOSCreateAlarm s a) f' (p.create a) := by
  have hv := h.chain.views.handler ha (v := 0) (by decide)
  have hg : ∀ b, b ≠ a → setHandler f a 0 b = f b := by
    intro b hba
    rw [setHandler, update_of_ne hba]
  have hne : ∀ b ∈ p.alarms, b ≠ a := fun b hb hba => hna (hba ▸ hb)
  refine ⟨_, h.chain_off (portOSCreateAlarm s a) hv rfl rfl fun b hb => hg b (hne b hb), ?_, ?_⟩
  · intro e he
    rw [hg _ (hne _ (p.mem_alarms he))]
    exact h.shown e he
  · intro b hb hnb
    by_cases hba : b = a
    · rw [hba, setHandler, update_self]
    · rw [hg b hba]
      have hbk : Known p.log b := by
        simpa [Known, Schedule.create, hba] using hb
      exact h.idle b hbk hnb

theorem insertFire_oneShot (h : Rep A s f p) (ha : A a) (hk : (f a).period = 0) :
    insertFire s a t = t := by
  have hl : s.loadS64 (a + PORT_ALARM_PERIOD) = (f a).period := h.chain.views.load_period ha
  rw [insertFire, hl, hk, if_neg (by decide)]

theorem insertFire_periodic (h : Rep A s f p) (ha : A a) (hpos : 0 < (f a).period) :
    insertFire s a t = fireTime s.systemTime (f a).start (f a).period := by
  have hl : s.loadS64 (a + PORT_ALARM_PERIOD) = (f a).period := h.chain.views.load_period ha
  have hs : s.loadS64 (a + PORT_ALARM_START) = (f a).start := h.chain.views.load_start ha
  rw [insertFire, hl, hs, if_pos hpos]

theorem set (h : Rep A s f p) (ha : A a) (hna : a ∉ p.alarms) {tick : Int}
    (hfit : Fits64 (s.systemTime + tick)) :
    ∃ s' f', portOSSetAlarm s a tick = some s' ∧
      Rep A s' f' (p.insert a .oneShot (s.systemTime + tick) hna trivial) ∧
      s'.systemTime = s.systemTime := by
  have hv := h.chain.views.period ha (t := 0) (by decide)
  have hr : Rep A (s.storeS64 (a + PORT_ALARM_PERIOD) 0) (setPeriod f a 0) p := by
    apply h.off (s.storeS64 (a + PORT_ALARM_PERIOD) 0) hv rfl rfl
    · intro b hb
      have hba : b ≠ a := fun hba => hna (hba ▸ hb)
      rw [setPeriod, update_of_ne hba]
    · intro b _
      by_cases hba : b = a <;> simp [setPeriod, hba]
  have hk : (setPeriod f a 0 a).period = 0 := by
    rw [setPeriod, update_self]
  exact hr.insert (k := .oneShot) ha hna trivial hfit hk (hr.insertFire_oneShot ha hk)

theorem setPeriodic (h : Rep A s f p) (ha : A a) (hna : a ∉ p.alarms) (hpos : 0 < period)
    (hs : Fits64 start) (hp : Fits64 period) (hfit : FireFits s.systemTime start period) :
    ∃ s' f', portOSSetPeriodicAlarm s a start period = some s' ∧
      Rep A s' f' (p.insert a (.periodic start period) (fireTime s.systemTime start period) hna
        (fireTime_sound hpos)) ∧ s'.systemTime = s.systemTime := by
  have hv := (h.chain.views.period ha hp).start ha hs
  have hr : Rep A ((s.storeS64 (a + PORT_ALARM_PERIOD) period).storeS64 (a + PORT_ALARM_START) start)
      (setStart (setPeriod f a period) a start) p := by
    apply h.off ((s.storeS64 (a + PORT_ALARM_PERIOD) period).storeS64 (a + PORT_ALARM_START) start) hv
      rfl rfl
    · intro b hb
      have hba : b ≠ a := fun hba => hna (hba ▸ hb)
      rw [setStart, update_of_ne hba, setPeriod, update_of_ne hba]
    · intro b _
      by_cases hba : b = a <;> simp [setStart, setPeriod, hba]
  have hp' : (setStart (setPeriod f a period) a start a).period = period := by
    simp [setStart, setPeriod]
  have hs' : (setStart (setPeriod f a period) a start a).start = start := by
    simp [setStart]
  have hi := hr.insertFire_periodic (t := 0) ha (by rwa [hp'])
  rw [hp', hs'] at hi
  exact hr.insert ha hna (fireTime_sound hpos) (fireTime_fits hfit hs) ⟨hp', hs'⟩ hi

/-- Nothing fires while the head is in the future. -/
theorem fireHead_early (h : Rep A s f p) (he : ∀ e ∈ p.waiting, s.systemTime < e.fire) :
    portOSAlarmFireHead s = some (0, s) := by
  have hhead := h.chain.dll.head_eq
  unfold portOSAlarmFireHead
  cases hw : p.waiting with
  | nil =>
    have h0 : s.queueHead = 0 := by
      rw [hhead, Schedule.alarms, hw]
      rfl
    rw [h0]
    rfl
  | cons e l =>
    have hm : e ∈ p.waiting := hw ▸ List.mem_cons_self
    have hq : s.queueHead = e.alarm := by
      rw [hhead, Schedule.alarms, hw]
      rfl
    have hf : s.loadS64 (e.alarm + PORT_ALARM_FIRE) = (f e.alarm).fire :=
      h.chain.views.load_fire (h.within hm)
    have hlt : s.systemTime < (f e.alarm).fire := by
      rw [(h.shown e hm).fire]
      exact he e hm
    simp only [hq, hf]
    rw [if_neg (h.chain.views.ne_zero (h.within hm)), if_pos hlt]

/-- The head fires; a periodic alarm is put back. -/
theorem fireHead_due (h : Rep A s f p) {l : List Entry} (hw : p.waiting = e :: l) (he : e ∈ p.waiting)
    (hdue : e.fire ≤ s.systemTime)
    (hfit : ∀ start period, e.kind = .periodic start period →
      Fits64 start ∧ FireFits s.systemTime start period) :
    ∃ s' f', portOSAlarmFireHead s = some (e.alarm, s') ∧ Rep A s' f' (p.fire e s.systemTime he) ∧
      s'.systemTime = s.systemTime := by
  have ha := h.within he
  have hal : p.alarms = e.alarm :: l.map Entry.alarm := by
    rw [Schedule.alarms, hw]
    rfl
  have hq : s.queueHead = e.alarm := by
    rw [h.chain.dll.head_eq, hal]
    rfl
  have hf : s.loadS64 (e.alarm + PORT_ALARM_FIRE) = (f e.alarm).fire := h.chain.views.load_fire ha
  have hlt : ¬ s.systemTime < (f e.alarm).fire := by
    rw [(h.shown e he).fire]
    exact Int.not_lt.mpr hdue
  obtain ⟨g, hc, hd⟩ := Chain.removeHead (hal ▸ h.chain)
  have hrest :
      (p.remove e.alarm (.fire e.alarm) (p.mem_alarms he) (.inr rfl)).alarms = l.map Entry.alarm :=
    p.remove_split (u := []) hal
  have hshown := (h.shown e he).congr (hd e.alarm)
  have hh : (removeHead s e.alarm).load (e.alarm + PORT_ALARM_HANDLER) = 1 :=
    (hc.views.load_handler ha).trans hshown.handler
  have hv := hc.views.handler ha (v := 0) (by decide)
  have hr : Rep A ((removeHead s e.alarm).store (e.alarm + PORT_ALARM_HANDLER) 0)
      (setHandler g e.alarm 0) (p.remove e.alarm (.fire e.alarm) (p.mem_alarms he) (.inr rfl)) := by
    apply h.removed _ hd
    rw [hrest]
    exact ⟨hv, hc.within, by simpa [St.store] using hc.dll⟩
  have hper : ((removeHead s e.alarm).store (e.alarm + PORT_ALARM_HANDLER) 0).loadS64
      (e.alarm + PORT_ALARM_PERIOD) = (g e.alarm).period := by
    have hl := hv.load_period ha
    rwa [setHandler, update_self] at hl
  have htime : (removeHead s e.alarm).systemTime = s.systemTime := removeHead_systemTime _ _
  unfold portOSAlarmFireHead
  simp only [hq, hf, hh]
  rw [if_neg (h.chain.views.ne_zero ha), if_neg hlt, hper]
  have hkind := hshown.kind
  cases hk : e.kind with
  | oneShot =>
    rw [hk] at hkind
    rw [if_neg (by rw [show (g e.alarm).period = 0 from hkind]; decide), p.fire_oneShot he hk]
    exact ⟨_, _, rfl, hr, htime⟩
  | periodic start period =>
    have hpos : 0 < period := by
      have hs := p.sound e he
      rw [hk] at hs
      exact hs.1
    obtain ⟨hs, hfits⟩ := hfit start period hk
    rw [hk] at hkind
    obtain ⟨hp₁, hp₂⟩ := hkind
    have hi := hr.insertFire_periodic (t := 0) ha (by simpa [setHandler, hp₁] using hpos)
    simp only [setHandler, update_self, hp₁, hp₂] at hi
    have hin := hr.insert (k := e.kind) ha p.not_mem_remove (hk ▸ fireTime_sound hpos)
      (fireTime_fits hfits hs) (by simp [hk, Kind.Shown, setHandler, hp₁, hp₂])
      (hi.trans (congrArg (fireTime · start period) htime))
    obtain ⟨s', f', hs', hr', ht'⟩ := hin
    rw [hp₁, if_pos hpos, hs', p.fire_periodic he hk]
    exact ⟨s', f', rfl, hr', ht'.trans htime⟩

end Rep

end SdkPort.OSAlarm
