import SdkPort.Lib.Gregorian
import SdkPort.OS.Time

/-!
# What the conversion computes

The loop over the years goes down to the year that holds the day, and the walk of the month table
to the month. Both files convert a tick count alike, and lose nothing unless its last whole second
does not fit.
-/
namespace SdkPort.OSTime

open Gregorian (Date Leap yearLength yearStart monthStart)

/-- What `GetLeapDays` computes. -/
def leapDays (year : Int) : Int := if year < 1 then 0 else (year + 3) / 4 - (year - 1) / 100 + (year - 1) / 400

/-- The day that the code lets a year begin with. -/
def firstDay (year : Int) : Int := year * 365 + leapDays year

/-- Years so near that no computation about them leaves 32 bits. -/
def Near (year : Int) : Prop := -100000 ≤ year ∧ year ≤ 100000

/-- The year that holds a day. -/
structure Holds (year days : Int) : Prop where
  le : firstDay year ≤ days
  lt : days < firstDay (year + 1)

variable {v days year y : Int} {n month : Nat} {td td' : OSCalendarTime}

section Floor

variable {a m c : Int} {f : Int → Except Fault Int}

/-- A remainder that is corrected when it is negative is the one of a division that rounds down. -/
theorem floor_rem (hm : 0 < m) : (if a.tmod m < 0 then a.tmod m + m else a.tmod m) = a % m := by
  have hpos := Int.emod_nonneg a (Int.ne_of_gt hm)
  have hlt := Int.emod_lt_of_pos a hm
  rw [Int.tmod_eq_emod]
  by_cases h : 0 ≤ a ∨ m ∣ a
  · rw [if_pos h, Int.natCast_zero, Int.sub_zero, if_neg (Int.not_lt.mpr hpos)]
  · rw [if_neg h, if_pos (by omega)]
    omega

/-- So is the quotient. -/
theorem floor_quot (hm : 0 < m) : (if a.tmod m < 0 then a.tdiv m - 1 else a.tdiv m) = a / m := by
  have hpos := Int.emod_nonneg a (Int.ne_of_gt hm)
  have hlt := Int.emod_lt_of_pos a hm
  rw [Int.tmod_eq_emod, Int.tdiv_eq_ediv, Int.sign_eq_one_of_pos hm]
  by_cases h : 0 ≤ a ∨ m ∣ a
  · rw [if_pos h, if_pos h, Int.natCast_zero, Int.sub_zero, Int.add_zero, if_neg (Int.not_lt.mpr hpos)]
  · rw [if_neg h, if_neg h, if_pos (by omega)]
    omega

theorem tdiv_bounds (hm : 0 < m) : a / m ≤ a.tdiv m ∧ a.tdiv m ≤ a / m + 1 := by
  have h := floor_quot (a := a) hm
  split at h <;> omega

theorem tmod_bounds (hm : 0 < m) : -m ≤ a.tmod m ∧ a.tmod m < m := by
  have h := floor_rem (a := a) hm
  have hpos := Int.emod_nonneg a (Int.ne_of_gt hm)
  have hlt := Int.emod_lt_of_pos a hm
  split at h <;> omega

/-- The correction of a remainder, where the sum is checked. -/
theorem checked_rem (hm : 0 < m) (hf : f (a % m) = .ok (a % m)) :
    (if a.tmod m < 0 then f (a.tmod m + m) else pure (a.tmod m)) = .ok (a % m) := by
  have h := floor_rem (a := a) hm
  by_cases hneg : a.tmod m < 0
  · rw [if_pos hneg] at h
    rw [if_pos hneg, h, hf]
  · rw [if_neg hneg] at h
    rw [if_neg hneg, h]
    rfl

theorem checked_quot (hm : 0 < m) (hf : f (a / m + c) = .ok (a / m + c)) :
    (if a.tmod m < 0 then f (a.tdiv m + c - 1) else pure (a.tdiv m + c)) = .ok (a / m + c) := by
  have h := floor_quot (a := a) hm
  by_cases hneg : a.tmod m < 0
  · rw [if_pos hneg] at h
    have hsum : a.tdiv m + c - 1 = a / m + c := by omega
    rw [if_pos hneg, hsum, hf]
  · rw [if_neg hneg] at h
    rw [if_neg hneg, h]
    rfl

end Floor

theorem leapDays_bound (hy : Near year) : 0 ≤ leapDays year ∧ leapDays year ≤ 100000 := by
  obtain ⟨hlo, hhi⟩ := hy
  rw [leapDays]
  by_cases h : year < 1
  · rw [if_pos h]
    omega
  · rw [if_neg h]
    omega

theorem GetLeapDays_eq (hy : Near year) : GetLeapDays year = .ok (leapDays year) := by
  obtain ⟨hlo, hhi⟩ := hy
  rw [GetLeapDays, leapDays]
  by_cases h : year < 1
  · rw [if_pos h, if_pos h]
  · have h4 : (year + 3).tdiv 4 = (year + 3) / 4 := Int.tdiv_eq_ediv_of_nonneg (by omega)
    have h100 : (year - 1).tdiv 100 = (year - 1) / 100 := Int.tdiv_eq_ediv_of_nonneg (by omega)
    have h400 : (year - 1).tdiv 400 = (year - 1) / 400 := Int.tdiv_eq_ediv_of_nonneg (by omega)
    have hup : Fits32 (year + 3) := ⟨by omega, by omega⟩
    have hdown : Fits32 (year - 1) := ⟨by omega, by omega⟩
    have hdiff : Fits32 ((year + 3) / 4 - (year - 1) / 100) := ⟨by omega, by omega⟩
    have hsum : Fits32 ((year + 3) / 4 - (year - 1) / 100 + (year - 1) / 400) := ⟨by omega, by omega⟩
    rw [if_neg h, if_neg h]
    simp only [s32_ok hup, s32_ok hdown, ok_bind, h4, h100, h400, s32_ok hdiff, s32_ok hsum]

theorem totalDays_eq (hy : Near year) : totalDays year = .ok (firstDay year) := by
  have hb := leapDays_bound hy
  obtain ⟨hlo, hhi⟩ := hy
  have hmul : Fits32 (year * 365) := ⟨by omega, by omega⟩
  have hsum : Fits32 (year * 365 + leapDays year) := ⟨by omega, by omega⟩
  simp only [totalDays, s32_ok hmul, ok_bind, GetLeapDays_eq ⟨hlo, hhi⟩, s32_ok hsum, firstDay]

/-- Before year 0 the code counts every year with 365 days. -/
theorem firstDay_succ (year : Int) : firstDay (year + 1) = firstDay year +
    (if 0 ≤ year ∧ (4 ∣ year ∧ ¬ 100 ∣ year ∨ 400 ∣ year) then 366 else 365) := by
  rw [firstDay, firstDay, leapDays, leapDays]
  split <;> split <;> split <;> omega

theorem firstDay_le_succ (year : Int) : firstDay year + 365 ≤ firstDay (year + 1) := by
  rw [firstDay_succ]
  split <;> omega

theorem firstDay_mono (h : y ≤ year) : firstDay y ≤ firstDay year := by
  obtain ⟨n, rfl⟩ := Int.le.dest h
  induction n with
  | zero => rw [Int.natCast_zero, Int.add_zero]
  | succ n ih =>
    have hstep := firstDay_le_succ (y + n)
    have hprev : firstDay y ≤ firstDay (y + n) := ih (by omega)
    rw [Int.natCast_succ, ← Int.add_assoc]
    omega

/-- From year 0 on the code counts as the calendar does. -/
theorem firstDay_natCast (n : Nat) : firstDay n = yearStart n := by
  have h := Gregorian.yearStart_closed n
  rw [firstDay, leapDays]
  split <;> omega

theorem firstDay_neg (h : year ≤ 0) : firstDay year = year * 365 := by
  rw [firstDay, leapDays, if_pos (by omega), Int.add_zero]

/-- Every day is held by a year. -/
theorem exists_holds (days : Int) : ∃ year, Holds year days := by
  by_cases h : days < 0
  · have hle : firstDay (days / 365) = days / 365 * 365 := firstDay_neg (by omega)
    have hlt : firstDay (days / 365 + 1) = (days / 365 + 1) * 365 := firstDay_neg (by omega)
    exact ⟨days / 365, by rw [hle]; omega, by rw [hlt]; omega⟩
  · obtain ⟨n, rfl⟩ := Int.eq_ofNat_of_zero_le (Int.not_lt.mp h)
    clear h
    induction n with
    | zero => exact ⟨0, by decide, by decide⟩
    | succ n ih =>
      obtain ⟨year, hle, hlt⟩ := ih
      by_cases hnext : ((n + 1 : Nat) : Int) < firstDay (year + 1)
      · exact ⟨year, by omega, hnext⟩
      · have hlen := firstDay_le_succ (year + 1)
        exact ⟨year + 1, by omega, by omega⟩

theorem mul_le_firstDay (year : Int) : year * 365 ≤ firstDay year := by
  rw [firstDay, leapDays]
  split <;> omega

/-- The estimate of the year is not too low. -/
theorem Holds.le_estimate (h : Holds year days) : year ≤ days.tdiv 365 := by
  have hle := h.le
  have hmul := mul_le_firstDay year
  obtain ⟨hlo, -⟩ := tdiv_bounds (a := days) (by decide : (0 : Int) < 365)
  omega

/-- The loop goes down from an estimate to the year that holds the day. -/
theorem yearLoop_eq (fuel : Nat) (h : Holds y days) (hle : y ≤ year) (hfuel : year < y + fuel) (hy : Near (y - 1))
    (hyear : Near year) : yearLoop days fuel year = .ok ⟨y, firstDay y⟩ := by
  induction fuel generalizing year with
  | zero => omega
  | succ fuel ih =>
    obtain ⟨hlo, hhi⟩ := hyear
    simp only [yearLoop, totalDays_eq ⟨hlo, hhi⟩, ok_bind]
    by_cases he : year = y
    · subst he
      rw [if_neg (Int.not_lt.mpr h.le)]
      rfl
    · have hnext : firstDay (y + 1) ≤ firstDay year := firstDay_mono (by omega)
      have hdown : Fits32 (year - 1) := ⟨by omega, by omega⟩
      rw [if_pos (Int.lt_of_lt_of_le h.lt hnext), s32_ok hdown, ok_bind]
      exact ih (by omega) (by omega) ⟨by have := hy.1; omega, by omega⟩

theorem Holds.near (h : Holds year days) (hlo : -5000000 ≤ days) (hhi : days ≤ 5000000) :
    -20000 ≤ year ∧ year ≤ 20000 := by
  obtain ⟨hle, hlt⟩ := h
  constructor
  · by_contra hn
    rw [firstDay_neg (by omega)] at hlt
    omega
  · by_contra hn
    have hmono : firstDay (20001 : Nat) ≤ firstDay year := firstDay_mono (by omega)
    have hval : firstDay (20001 : Nat) = 7305216 := by decide
    omega

/-- The walk down the table stops at the last month that does not begin after the day. -/
theorem monthLoop_found (p : Vector Int 12) (h0 : p.get 0 ≤ days) (h : month ≤ 12) (hpos : 0 < month) :
    ∃ m : Fin 12, monthLoop days p month h = .ok m ∧ p.get m ≤ days ∧
      ∀ j : Fin 12, m < j → j.val < month → days < p.get j := by
  induction month with
  | zero => exact absurd hpos (Nat.lt_irrefl 0)
  | succ k ih =>
    by_cases hlt : days < p.get ⟨k, h⟩
    · have hk : 0 < k := by
        refine Nat.pos_of_ne_zero ?_
        rintro rfl
        exact absurd h0 (Int.not_le.mpr hlt)
      obtain ⟨m, hm, hle, hafter⟩ := ih (Nat.le_of_succ_le h) hk
      refine ⟨m, by rw [monthLoop, if_pos hlt, hm], hle, ?_⟩
      intro j hmj hj
      by_cases he : j.val = k
      · have hj' : j = ⟨k, h⟩ := Fin.ext he
        rw [hj']
        exact hlt
      · exact hafter j hmj (by omega)
    · refine ⟨⟨k, h⟩, by rw [monthLoop, if_neg hlt], Int.not_lt.mp hlt, ?_⟩
      intro j hmj hj
      have hkj : k < j.val := hmj
      omega

/-- A table of the beginnings of the months leads to the date of a day. -/
theorem monthLoop_date {year : Nat} {p : Vector Int 12} (hp : ∀ m : Fin 12, p.get m = monthStart year m)
    (hn : n < yearLength year) : ∃ (d : Date) (m : Fin 12), d.year = year ∧ d.dayOfYear = n ∧ m.val = d.month ∧
      (n : Int) - p.get m + 1 = d.day ∧ monthLoop n p 12 (Nat.le_refl 12) = .ok m := by
  have h0 : p.get 0 ≤ n := by
    rw [hp]
    exact Int.natCast_nonneg n
  obtain ⟨m, hm, hle, hafter⟩ := monthLoop_found p h0 (Nat.le_refl 12) (by decide)
  have hlt : n < monthStart year (m.val + 1) := by
    by_cases hlast : m.val + 1 < 12
    · have hnext := hafter ⟨m.val + 1, hlast⟩ (Nat.lt_succ_self _) hlast
      rw [hp] at hnext
      exact Int.ofNat_lt.mp hnext
    · have he : m.val + 1 = 12 := by omega
      rw [he, Gregorian.monthStart_year]
      exact hn
  rw [Gregorian.monthStart_succ] at hlt
  rw [hp] at hle
  have hle' : monthStart year m ≤ n := Int.ofNat_le.mp hle
  refine ⟨⟨year, m, n - monthStart year m + 1, m.isLt, by omega, by omega⟩, m, rfl, ?_, rfl, ?_, hm⟩
  · show monthStart year m + (n - monthStart year m + 1 - 1) = n
    omega
  · rw [hp]
    show (n : Int) - monthStart year m + 1 = ((n - monthStart year m + 1 : Nat) : Int)
    omega

theorem IsLeapYear_iff (year : Int) : IsLeapYear year = true ↔ 4 ∣ year ∧ ¬ 100 ∣ year ∨ 400 ∣ year := by
  rw [IsLeapYear, decide_eq_true_iff, ← Int.dvd_iff_tmod_eq_zero, ← Int.dvd_iff_tmod_eq_zero,
    Ne, ← Int.dvd_iff_tmod_eq_zero]

theorem YearDays_eq : ∀ m : Fin 12, YearDays.get m = monthStart 1 m := by
  decide

theorem LeapYearDays_eq : ∀ m : Fin 12, LeapYearDays.get m = monthStart 0 m := by
  decide

/-- The table that is taken tells where the months of a year like this one begin. -/
theorem table_eq {year : Int} {year' : Nat} (h : IsLeapYear year = true ↔ Leap year') (m : Fin 12) :
    (if IsLeapYear year then LeapYearDays else YearDays).get m = monthStart year' m := by
  by_cases hl : IsLeapYear year = true
  · have hlike : Leap 0 ↔ Leap year' := ⟨fun _ => h.mp hl, fun _ => by decide⟩
    rw [if_pos hl, LeapYearDays_eq, Gregorian.monthStart_congr hlike]
  · have hlike : Leap 1 ↔ Leap year' := ⟨fun h1 => absurd h1 (by decide), fun hy => absurd (h.mpr hy) hl⟩
    rw [if_neg hl, YearDays_eq, Gregorian.monthStart_congr hlike]

/-- A year before year 0 has the months of a year of the calendar, and no more days. -/
theorem exists_like (year : Int) : ∃ year' : Nat, (0 ≤ year → (year' : Int) = year) ∧
    (IsLeapYear year = true ↔ Leap year') ∧ firstDay (year + 1) ≤ firstDay year + yearLength year' := by
  have hlen := firstDay_succ year
  by_cases hy : 0 ≤ year
  · obtain ⟨n, rfl⟩ := Int.eq_ofNat_of_zero_le hy
    refine ⟨n, fun _ => rfl, ?_, ?_⟩
    · rw [IsLeapYear_iff, Leap]
      omega
    · have hcast : (n : Int) + 1 = (n + 1 : Nat) := rfl
      rw [hcast, firstDay_natCast, firstDay_natCast, Gregorian.yearStart_succ]
      omega
  · rw [if_neg (fun h => hy h.1)] at hlen
    by_cases hl : IsLeapYear year = true
    · have hlength : yearLength 0 = 366 := rfl
      exact ⟨0, fun h => absurd h hy, iff_of_true hl (by decide), by omega⟩
    · have hlength : yearLength 1 = 365 := rfl
      exact ⟨1, fun h => absurd h hy, iff_of_false hl (by decide), by omega⟩

/-- The dates of a day: the year that holds it, and a date of a year like that one. -/
theorem GetDates_eq (days : Int) (hlo : -5000000 ≤ days) (hhi : days ≤ 5000000) : ∃ (y : Int) (d : Date) (n : Nat),
    Holds y days ∧ firstDay y + d.dayOfYear = days ∧ (0 ≤ y → (d.year : Int) = y) ∧
    ∀ fuel ≥ n, ∀ cal, GetDates fuel days cal = .ok { cal with
      wday := (days + 6).tmod 7, year := y, yday := d.dayOfYear, mon := d.month, mday := d.day } := by
  obtain ⟨y, hy⟩ := exists_holds days
  obtain ⟨year, hyear, hleap, hlen⟩ := exists_like y
  obtain ⟨n, hn⟩ : ∃ n : Nat, days - firstDay y = n := Int.eq_ofNat_of_zero_le (by have := hy.le; omega)
  have hnlt : n < yearLength year := by
    have hlt := hy.lt
    omega
  obtain ⟨d, m, hdy, hdn, hm, hday, hloop⟩ := monthLoop_date (table_eq hleap) hnlt
  obtain ⟨hylo, hyhi⟩ := hy.near hlo hhi
  have hest := hy.le_estimate
  refine ⟨y, d, (days.tdiv 365 - y).toNat + 1, hy, by omega, by rw [hdy]; exact hyear, ?_⟩
  intro fuel hfuel cal
  obtain ⟨helo, hehi⟩ := tdiv_bounds (a := days) (by decide : (0 : Int) < 365)
  have hestimate : Near (days.tdiv 365) := ⟨by omega, by omega⟩
  have hfound := yearLoop_eq fuel hy hest (by omega) ⟨by omega, by omega⟩ hestimate
  have hpos := d.day_pos
  have hmax := Gregorian.yearLength_le year
  have hdef : d.dayOfYear = monthStart d.year d.month + (d.day - 1) := rfl
  have hsix : Fits32 (days + 6) := ⟨by omega, by omega⟩
  have hday' : Fits32 (n : Int) := ⟨by omega, by omega⟩
  have hstart : Fits32 ((n : Int) - (if IsLeapYear y then LeapYearDays else YearDays).get m) := ⟨by omega, by omega⟩
  have hmday : Fits32 (d.day : Int) := ⟨by omega, by omega⟩
  simp only [GetDates, s32_ok hsix, ok_bind, hfound, hn, s32_ok hday', hloop, s32_ok hstart, hday, s32_ok hmday, hm, hdn]
  rfl

/-- The number of the day of a tick count, from the first day of year 0 on. -/
def dayNumber (ticks : Int) : Int := ticks / 40500000 / 86400 + yearStart 2000

/-- The last whole second still is a tick count of 64 bits. -/
def SecondFits (ticks : Int) : Prop := Fits64 (ticks / 40500000 * 40500000)

instance (ticks : Int) : Decidable (SecondFits ticks) :=
  inferInstanceAs (Decidable (Fits64 (ticks / 40500000 * 40500000)))

/-- A tick count told by the year and the date that the code finds for its day. -/
def told (ticks year : Int) (d : Date) : OSCalendarTime where
  sec := ticks / 40500000 % 60
  min := ticks / 40500000 / 60 % 60
  hour := ticks / 40500000 / 3600 % 24
  mday := d.day
  mon := d.month
  year := year
  wday := (dayNumber ticks + 6).tmod 7
  yday := d.dayOfYear
  msec := ticks % 40500000 * 1000 / 40500000
  usec := ticks % 40500000 * 1000000 / 40500000 % 1000

/-- The macros of both files. -/
def gcRates : TickRates := ⟨40500000, 40500, 8, 324⟩

/-- Every run with fuel enough ends in this calendar time, whatever was there before. -/
def Computes (f : Nat → Int → OSCalendarTime → Except Fault OSCalendarTime) (ticks : Int) (td : OSCalendarTime) : Prop :=
  ∃ n, ∀ fuel ≥ n, ∀ before, f fuel ticks before = .ok td

theorem bias_eq : BIAS = 730485 := by decide

theorem yearStart_2000 : yearStart 2000 = 730485 := by
  have h := Gregorian.yearStart_closed 2000
  omega

theorem dayNumber_eq (ticks : Int) : dayNumber ticks = ticks / 40500000 / 86400 + 730485 := by
  rw [dayNumber, yearStart_2000]
  rfl

section Parts

variable {r s : Int}

theorem usec_eq (hr : 0 ≤ r) : ((r * 8).tdiv 324).tmod 1000 = r * 1000000 / 40500000 % 1000 := by
  have hmicros : r * 8 / 324 = r * 1000000 / 40500000 := by omega
  rw [Int.tdiv_eq_ediv_of_nonneg (by omega), Int.tmod_eq_emod_of_nonneg (by omega), hmicros]

theorem msec_eq (hr : 0 ≤ r) (hlt : r < 40500000) : (r.tdiv 40500).tmod 1000 = r * 1000 / 40500000 := by
  rw [Int.tdiv_eq_ediv_of_nonneg hr, Int.tmod_eq_emod_of_nonneg (by omega)]
  omega

theorem hour_eq (s : Int) : ((s % 86400).tdiv 60).tdiv 60 = s / 3600 % 24 := by
  have hmins : (s % 86400).tdiv 60 = s % 86400 / 60 := Int.tdiv_eq_ediv_of_nonneg (by omega)
  rw [hmins, Int.tdiv_eq_ediv_of_nonneg (by omega)]
  omega

theorem min_eq (s : Int) : ((s % 86400).tdiv 60).tmod 60 = s / 60 % 60 := by
  rw [Int.tdiv_eq_ediv_of_nonneg (by omega), Int.tmod_eq_emod_of_nonneg (by omega)]
  omega

theorem sec_eq (s : Int) : (s % 86400).tmod 60 = s % 60 := by
  rw [Int.tmod_eq_emod_of_nonneg (by omega)]
  omega

/-- The part of a second that is split off fits. -/
theorem part_fits (v : Int) : Fits64 (v % 40500000) ∧ Fits64 (v % 40500000 * 8) ∧
    Fits32 (v % 40500000 * 1000000 / 40500000 % 1000) ∧ Fits32 (v % 40500000 * 1000 / 40500000) :=
  ⟨⟨by omega, by omega⟩, ⟨by omega, by omega⟩, ⟨by omega, by omega⟩, ⟨by omega, by omega⟩⟩

end Parts

/-- A tick count whose last whole second fits is told by a year and a date. -/
theorem ticks_told (h : Fits64 v) (hs : SecondFits v) : ∃ (y : Int) (d : Date), Holds y (dayNumber v) ∧
    firstDay y + d.dayOfYear = dayNumber v ∧ (0 ≤ y → (d.year : Int) = y) ∧
    Computes (ticksToCalendarTime gcRates) v (told v y d) := by
  obtain ⟨hlo, hhi⟩ := h
  obtain ⟨hslo, hshi⟩ := hs
  have hday := (dayNumber_eq v).symm
  obtain ⟨y, d, n, hy, hd, hyear, hdates⟩ := GetDates_eq (dayNumber v) (by omega) (by omega)
  refine ⟨y, d, hy, hd, hyear, n, ?_⟩
  intro fuel hfuel before
  obtain ⟨hqlo, hqhi⟩ := tdiv_bounds (a := v / 40500000) (by decide : (0 : Int) < 86400)
  obtain ⟨hmlo, hmhi⟩ := tmod_bounds (a := v / 40500000) (by decide : (0 : Int) < 86400)
  obtain ⟨hr, hmul, husec, hmsec⟩ := part_fits v
  have hwhole : v - v % 40500000 = v / 40500000 * 40500000 := by omega
  have hquot : (v / 40500000 * 40500000).tdiv 40500000 = v / 40500000 := Int.mul_tdiv_cancel _ (by decide)
  have hday24 : (24 * 60 * 60 : Int) = 86400 := rfl
  have hdays64 : Fits64 ((v / 40500000).tdiv 86400 + 730485) := ⟨by omega, by omega⟩
  have hdays32 : Fits32 ((v / 40500000).tdiv 86400 + 730485) := ⟨by omega, by omega⟩
  have hdays : Fits32 (v / 40500000 / 86400 + 730485) := ⟨by omega, by omega⟩
  have hsecs32 : Fits32 ((v / 40500000).tmod 86400) := ⟨by omega, by omega⟩
  have hsecs : Fits32 (v / 40500000 % 86400) := ⟨by omega, by omega⟩
  have hrem := checked_rem (by decide : (0 : Int) < 40500000) (s64_ok hr)
  have hcorrected := checked_quot (by decide : (0 : Int) < 86400) (s32_ok hdays)
  have hnormal := checked_rem (by decide : (0 : Int) < 86400) (s32_ok hsecs)
  unfold ticksToCalendarTime gcRates
  simp only [hrem, ok_bind, s64_ok hmul, usec_eq (by omega : 0 ≤ v % 40500000), s32_ok husec,
    msec_eq (by omega : 0 ≤ v % 40500000) (by omega), s32_ok hmsec, hwhole, s64_ok ⟨hslo, hshi⟩, hquot, bias_eq,
    s64_ok hdays64, s32_ok hdays32, s32_ok hsecs32, hcorrected, hday24, hnormal, hday, hdates fuel hfuel,
    hour_eq, min_eq, sec_eq]
  rfl

theorem OSTicksToCalendarTime_eq : OSTicksToCalendarTime = ticksToCalendarTime gcRates := rfl

theorem OSRtc_eq : OSRtc.OSTicksToCalendarTime = ticksToCalendarTime gcRates := rfl

theorem Computes.unique {f : Nat → Int → OSCalendarTime → Except Fault OSCalendarTime} (h : Computes f v td)
    (h' : Computes f v td') : td = td' := by
  obtain ⟨n, hn⟩ := h
  obtain ⟨n', hn'⟩ := h'
  have hsome := hn (max n n') (Nat.le_max_left n n') td
  rw [hn' (max n n') (Nat.le_max_right n n') td] at hsome
  exact (Except.ok.inj hsome).symm

end SdkPort.OSTime
