import SdkPort.OS.Calendar

/-!
# The ranges of a calendar time

Every field but the day of the week is in its range for every tick count. The remainder that gives
the day of the week is not corrected where the day is negative, and the last whole second before a
tick count can lie below the least number of 64 bits.
-/
namespace SdkPort.OSTime

open Gregorian (Date)

/-- Every field of a calendar time is in its range. -/
structure InRange (td : OSCalendarTime) : Prop where
  msec : 0 ≤ td.msec ∧ td.msec ≤ 999
  usec : 0 ≤ td.usec ∧ td.usec ≤ 999
  sec : 0 ≤ td.sec ∧ td.sec ≤ 59
  min : 0 ≤ td.min ∧ td.min ≤ 59
  hour : 0 ≤ td.hour ∧ td.hour ≤ 23
  mon : 0 ≤ td.mon ∧ td.mon ≤ 11
  mday : 1 ≤ td.mday ∧ td.mday ≤ 31
  wday : 0 ≤ td.wday ∧ td.wday ≤ 6
  yday : 0 ≤ td.yday ∧ td.yday ≤ 365

variable {v y : Int} {d : Date} {fuel : Nat} {before td : OSCalendarTime}

/-- The day of the week of a day before year 0 is not negative only where a week ends. -/
theorem wday_range (days : Int) : 0 ≤ (days + 6).tmod 7 ∧ (days + 6).tmod 7 ≤ 6 ↔ -6 ≤ days ∨ 7 ∣ days + 6 := by
  rw [Int.tmod_eq_emod]
  by_cases h : 0 ≤ days + 6 ∨ 7 ∣ days + 6
  · rw [if_pos h]
    omega
  · have hseven : Int.natAbs 7 = 7 := rfl
    rw [if_neg h, hseven]
    omega

theorem told_range (y : Int) (d : Date) : InRange (told v y d) ↔ -6 ≤ dayNumber v ∨ 7 ∣ dayNumber v + 6 := by
  constructor
  · intro h
    exact (wday_range _).mp h.wday
  · intro h
    have hmonth := d.month_lt
    have hpos := d.day_pos
    have hday := d.day_le
    have hmax := Gregorian.monthLength_le d.year d.month
    have hyday := d.dayOfYear_lt
    have hlen := Gregorian.yearLength_le d.year
    refine ⟨?_, ?_, ?_, ?_, ?_, ?_, ?_, (wday_range _).mpr h, ?_⟩
    all_goals
      simp only [told]
      omega

/-- The subtraction of the part of a second overflows. -/
theorem ticks_overflow (hs : ¬ SecondFits v) :
    ticksToCalendarTime gcRates fuel v before = .error .overflow := by
  have hwhole : v - v % 40500000 = v / 40500000 * 40500000 := by omega
  have herror : s64 (v / 40500000 * 40500000) = .error .overflow := if_neg hs
  obtain ⟨hr, hmul, husec, hmsec⟩ := part_fits v
  have hrem := checked_rem (by decide : (0 : Int) < 40500000) (s64_ok hr)
  unfold ticksToCalendarTime gcRates
  simp only [hrem, ok_bind, s64_ok hmul, usec_eq (by omega : 0 ≤ v % 40500000), s32_ok husec,
    msec_eq (by omega : 0 ≤ v % 40500000) (by omega), s32_ok hmsec, hwhole, herror]
  rfl

theorem secondFits_of_computes (hc : Computes OSTicksToCalendarTime v td) : SecondFits v := by
  obtain ⟨n, hn⟩ := hc
  by_contra hs
  have hok := hn n (Nat.le_refl n) td
  rw [OSTicksToCalendarTime_eq, ticks_overflow hs] at hok
  cases hok

/-- Exactly the tick counts whose last whole second fits, and whose day does not lie more than six days
before year 0 or begins a week, have a calendar time with every field in its range. -/
theorem calendar_in_range {ticks : Int} (h : Fits64 ticks) :
    (∃ td, Computes OSTicksToCalendarTime ticks td ∧ InRange td) ↔
      SecondFits ticks ∧ (-6 ≤ dayNumber ticks ∨ 7 ∣ dayNumber ticks + 6) := by
  constructor
  · rintro ⟨td, hc, hrange⟩
    have hs := secondFits_of_computes hc
    obtain ⟨y, d, -, -, -, hc'⟩ := ticks_told h hs
    rw [hc.unique hc', told_range] at hrange
    exact ⟨hs, hrange⟩
  · rintro ⟨hs, hday⟩
    obtain ⟨y, d, -, -, -, hc⟩ := ticks_told h hs
    exact ⟨told ticks y d, hc, (told_range y d).mpr hday⟩

/-- One tick before 2000. -/
theorem beforeEpoch_in_range : ∃ td, Computes OSTicksToCalendarTime (-1) td ∧ InRange td :=
  (calendar_in_range (by decide)).mpr ⟨by decide, Or.inl (by rw [dayNumber_eq]; decide)⟩

/-- The 25th of December of the year before year 0 has a negative day of the week, and the least tick count
overflows. -/
theorem weekday_negative : ¬ (∃ td, Computes OSTicksToCalendarTime (-2556137606400000000) td ∧ InRange td) ∧
    ¬ ∃ td, Computes OSTicksToCalendarTime (-9223372036854775808) td ∧ InRange td := by
  constructor
  · rintro ⟨td, hc, hrange⟩
    have hfits : Fits64 (-2556137606400000000) := by decide
    obtain ⟨y, d, -, -, -, hc'⟩ := ticks_told hfits (secondFits_of_computes hc)
    rw [hc.unique hc', told_range, dayNumber_eq] at hrange
    exact absurd hrange (by decide)
  · rintro ⟨td, hc, -⟩
    have hs := secondFits_of_computes hc
    exact absurd hs (by decide)

end SdkPort.OSTime
