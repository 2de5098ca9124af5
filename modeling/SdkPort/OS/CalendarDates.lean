import SdkPort.OS.Calendar

/-!
# The calendar time is a Gregorian date

From year 0 on a calendar time tells its tick count by a date of the calendar and a time of the
day. Its microseconds since year 0 never decrease, and the calendar times are in their order.
-/
namespace SdkPort.OSTime

open Gregorian (Date yearStart readDigits Digits)

namespace OSCalendarTime

/-- The seconds from the beginning of 2000, recombined. -/
def seconds (td : OSCalendarTime) : Int :=
  (((yearStart td.year.toNat + td.yday - yearStart 2000) * 24 + td.hour) * 60 + td.min) * 60 + td.sec

def clock (td : OSCalendarTime) : List Int := [td.hour, td.min, td.sec, td.msec, td.usec]

/-- Year, month, day and time of the day. -/
def civil (td : OSCalendarTime) : List Int := td.year :: td.mon :: td.mday :: td.clock

/-- Year, day of the year and time of the day. -/
def ordinal (td : OSCalendarTime) : List Int := td.year :: td.yday :: td.clock

end OSCalendarTime

/-- The calendar time of a tick count. -/
structure Tells (td : OSCalendarTime) (ticks : Int) : Prop where
  seconds : td.seconds = ticks / 40500000
  hour : 0 ≤ td.hour ∧ td.hour < 24
  min : 0 ≤ td.min ∧ td.min < 60
  sec : 0 ≤ td.sec ∧ td.sec < 60
  date : ∃ d : Date, td.year = d.year ∧ td.mon = d.month ∧ td.mday = d.day ∧ td.yday = d.dayOfYear ∧ td.wday = d.weekday
  msec : td.msec = ticks % 40500000 * 1000 / 40500000
  usec : td.usec = ticks % 40500000 * 1000000 / 40500000 % 1000

variable {v v' : Int} {d : Date} {td td' : OSCalendarTime}

/-- From year 0 on the date that is found is the date of the day. -/
theorem tells_told {y : Int} (hy : Holds y (dayNumber v)) (hd : firstDay y + d.dayOfYear = dayNumber v)
    (hyear : 0 ≤ y → (d.year : Int) = y) (h : 0 ≤ dayNumber v) : Tells (told v y d) v := by
  have hpos : 0 ≤ y := by
    by_contra hneg
    have hlt := hy.lt
    rw [firstDay_neg (by omega)] at hlt
    omega
  have he := hyear hpos
  have hnum : (d.number : Int) = dayNumber v := by
    rw [← hd, ← he, firstDay_natCast]
    rfl
  have hday := dayNumber_eq v
  refine ⟨?_, ?_, ?_, ?_, ⟨d, he.symm, rfl, rfl, rfl, ?_⟩, rfl, rfl⟩
  · have hsum : (yearStart y.toNat : Int) + d.dayOfYear = dayNumber v := by
      rw [← hd, ← he, firstDay_natCast, Int.toNat_natCast]
    simp only [OSCalendarTime.seconds, told, hsum, yearStart_2000]
    omega
  · simp only [told]
    omega
  · simp only [told]
    omega
  · simp only [told]
    omega
  · show (dayNumber v + 6).tmod 7 = d.weekday
    rw [Int.tmod_eq_emod_of_nonneg (by omega), Date.weekday, hnum, Date.number_newYear, yearStart_2000]
    omega

/-- The microseconds from the beginning of year 0. -/
def micros (ticks : Int) : Int :=
  (ticks / 40500000 + 730485 * 86400) * 1000000 + ticks % 40500000 * 1000000 / 40500000

theorem micros_mono (h : v < v') : micros v ≤ micros v' := by
  rw [micros, micros]
  by_cases he : v / 40500000 = v' / 40500000
  · have hle : v % 40500000 * 1000000 / 40500000 ≤ v' % 40500000 * 1000000 / 40500000 :=
      Int.ediv_le_ediv (by decide) (by omega)
    omega
  · omega

/-- The radices of hours, minutes, seconds, milliseconds and microseconds. -/
def clockRadices : List Int := [24, 60, 60, 1000, 1000]

theorem Tells.digits (h : Tells td v) : Digits clockRadices td.clock := by
  have hm := h.msec
  have hu := h.usec
  exact .cons h.hour (.cons h.min (.cons h.sec (.cons ⟨by omega, by omega⟩ (.cons ⟨by omega, by omega⟩ .nil))))

theorem Tells.readDigits (h : Tells td v) (hy : td.year = d.year) (hd : td.yday = d.dayOfYear) :
    readDigits d.number clockRadices td.clock = micros v := by
  have hsec := h.seconds
  have hm := h.msec
  have hu := h.usec
  have hnum : (d.number : Int) = yearStart d.year + d.dayOfYear := rfl
  rw [OSCalendarTime.seconds, hy, hd, yearStart_2000, Int.toNat_natCast] at hsec
  show ((((d.number * 24 + td.hour) * 60 + td.min) * 60 + td.sec) * 1000 + td.msec) * 1000 + td.usec = micros v
  rw [micros, hm, hu]
  omega

/-- A calendar time that is told later is not earlier, by the month or by the day of the year. -/
theorem Tells.ordered (h : Tells td v) (h' : Tells td' v') (hlt : v < v') :
    ¬ td'.civil < td.civil ∧ ¬ td'.ordinal < td.ordinal := by
  obtain ⟨d, hy, hm, hday, hyday, -⟩ := h.date
  obtain ⟨d', hy', hm', hday', hyday', -⟩ := h'.date
  have hle := micros_mono hlt
  rw [← h.readDigits hy hyday, ← h'.readDigits hy' hyday'] at hle
  -- an earlier date counts fewer days, whatever the clocks show
  have hnumber : ¬ d'.number < d.number := by
    intro hn
    have hfewer := Gregorian.readDigits_lt_of_start h'.digits h.digits (Int.ofNat_lt.mpr hn)
    omega
  have hclock : d'.number = d.number → ¬ td'.clock < td.clock := by
    intro he hc
    have hfewer := Gregorian.readDigits_lt d.number h'.digits h.digits hc
    rw [he] at hle
    omega
  have hyear : ¬ td'.year < td.year := by
    intro hlt
    exact hnumber (Date.number_lt_of_year (by omega))
  constructor
  · intro hc
    rcases List.cons_lt_cons_iff.mp hc with hlt | ⟨he, hc⟩
    · exact hyear hlt
    have hey : d'.year = d.year := by omega
    rcases List.cons_lt_cons_iff.mp hc with hlt | ⟨he, hc⟩
    · exact hnumber (Date.number_lt_of_month hey (by omega))
    have hem : d'.month = d.month := by omega
    rcases List.cons_lt_cons_iff.mp hc with hlt | ⟨he, hc⟩
    · exact hnumber (Date.number_lt_of_day hey hem (by omega))
    exact hclock (Date.number_congr hey (Date.dayOfYear_congr hey hem (by omega))) hc
  · intro hc
    rcases List.cons_lt_cons_iff.mp hc with hlt | ⟨he, hc⟩
    · exact hyear hlt
    have hey : d'.year = d.year := by omega
    rcases List.cons_lt_cons_iff.mp hc with hlt | ⟨he, hc⟩
    · have hn : d'.number < d.number := by
        rw [Date.number, Date.number, hey]
        omega
      exact hnumber hn
    · exact hclock (Date.number_congr hey (by omega)) hc

theorem dayNumber_mono (h : v ≤ v') : dayNumber v ≤ dayNumber v' := by
  rw [dayNumber_eq, dayNumber_eq]
  omega

theorem secondFits (h : Fits64 v) (hd : 0 ≤ dayNumber v) : SecondFits v := by
  obtain ⟨hlo, hhi⟩ := h
  rw [dayNumber_eq] at hd
  exact ⟨by omega, by omega⟩

theorem tells_ticks (h : Fits64 v) (hd : 0 ≤ dayNumber v) :
    ∃ td, Computes (ticksToCalendarTime gcRates) v td ∧ Tells td v := by
  obtain ⟨y, d, hy, hsum, hyear, hc⟩ := ticks_told h (secondFits h hd)
  exact ⟨told v y d, hc, tells_told hy hsum hyear hd⟩

/-- From year 0 on both conversions give the Gregorian date and the time of the day of a tick count,
and later tick counts never give an earlier calendar time. -/
theorem calendar_gregorian {f : Nat → Int → OSCalendarTime → Except Fault OSCalendarTime} {ticks : Int}
    (hf : f = OSTicksToCalendarTime ∨ f = OSRtc.OSTicksToCalendarTime) (h : Fits64 ticks) (hyear : 0 ≤ dayNumber ticks) :
    ∃ td, Computes f ticks td ∧ Tells td ticks ∧
      ∀ ticks' td', Fits64 ticks' → ticks < ticks' → Computes f ticks' td' →
        ¬ td'.civil < td.civil ∧ ¬ td'.ordinal < td.ordinal := by
  have hsame : f = ticksToCalendarTime gcRates := by
    rcases hf with rfl | rfl
    · exact OSTicksToCalendarTime_eq
    · exact OSRtc_eq
  subst hsame
  obtain ⟨td, hc, ht⟩ := tells_ticks h hyear
  refine ⟨td, hc, ht, ?_⟩
  intro ticks' td' h' hlt hc'
  obtain ⟨td'', hc'', ht'⟩ := tells_ticks h' (le_trans hyear (dayNumber_mono (le_of_lt hlt)))
  rw [hc'.unique hc'']
  exact ht.ordered ht' hlt

example : OSTicksToCalendarTime 2 (59 * 86400 * 40500000) ⟨0, 0, 0, 0, 0, 0, 0, 0, 0, 0⟩ =
    .ok ⟨0, 0, 0, 29, 1, 2000, 2, 59, 0, 0⟩ := by
  decide

/-- One tick before 2000. -/
theorem beforeEpoch_gregorian : ∃ td, Computes OSTicksToCalendarTime (-1) td ∧ Tells td (-1) ∧
    ∀ ticks' td', Fits64 ticks' → -1 < ticks' → Computes OSTicksToCalendarTime ticks' td' →
      ¬ td'.civil < td.civil ∧ ¬ td'.ordinal < td.ordinal :=
  calendar_gregorian (Or.inl rfl) (by decide) (by rw [dayNumber_eq]; decide)

end SdkPort.OSTime
