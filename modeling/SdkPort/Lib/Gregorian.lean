import Mathlib.Algebra.BigOperators.Intervals
import Mathlib.Algebra.Order.BigOperators.Group.Finset
import Mathlib.Algebra.Order.Ring.Int

/-!
# The proleptic Gregorian calendar

Years are counted from year 0, months and days of the year from 0, days of the month from 1.
The number of a date is the number of the days from the first day of year 0 to it. Dates and
times of the day are in their order where their digits are, the greatest unit first.
-/
namespace SdkPort.Gregorian

/-- The years with a 29th of February. -/
def Leap (year : Nat) : Prop := 4 ∣ year ∧ ¬ 100 ∣ year ∨ 400 ∣ year

instance : DecidablePred Leap := fun year => inferInstanceAs (Decidable (4 ∣ year ∧ ¬ 100 ∣ year ∨ 400 ∣ year))

def yearLength (year : Nat) : Nat := if Leap year then 366 else 365

def monthLength (year : Nat) : Nat → Nat
  | 1 => if Leap year then 29 else 28
  | 3 | 5 | 8 | 10 => 30
  | _ => 31

/-- The days of the years before. -/
def yearStart (year : Nat) : Nat := ∑ y ∈ Finset.range year, yearLength y

/-- The days of the months before, in the same year. -/
def monthStart (year month : Nat) : Nat := ∑ m ∈ Finset.range month, monthLength year m

/-- A date of the calendar. -/
structure Date where
  year : Nat
  month : Nat
  day : Nat
  month_lt : month < 12
  day_pos : 0 < day
  day_le : day ≤ monthLength year month

namespace Date

def dayOfYear (d : Date) : Nat := monthStart d.year d.month + (d.day - 1)

def number (d : Date) : Nat := yearStart d.year + d.dayOfYear

/-- The first of January of a year. -/
def newYear (year : Nat) : Date := ⟨year, 0, 1, by decide, by decide, (by decide : 1 ≤ 31)⟩

/-- The day of the week, from Sunday on: the first of January 2000 was a Saturday. -/
def weekday (d : Date) : Int := (6 + ((d.number : Int) - (newYear 2000).number)) % 7

end Date

variable {year month m n : Nat} {d e : Date}

theorem yearLength_le (year : Nat) : yearLength year ≤ 366 := by
  rw [yearLength]
  split <;> omega

theorem monthLength_le (year month : Nat) : monthLength year month ≤ 31 := by
  unfold monthLength
  split
  · split <;> omega
  all_goals omega

theorem yearStart_succ (year : Nat) : yearStart (year + 1) = yearStart year + yearLength year :=
  Finset.sum_range_succ _ _

theorem monthStart_succ (year month : Nat) : monthStart year (month + 1) = monthStart year month + monthLength year month :=
  Finset.sum_range_succ _ _

/-- The days of the years before, counted by the leap years among them. -/
theorem yearStart_closed (year : Nat) :
    yearStart year + (year + 99) / 100 = 365 * year + (year + 3) / 4 + (year + 399) / 400 := by
  induction year with
  | zero => rfl
  | succ y ih =>
    rw [yearStart_succ, yearLength]
    by_cases hy : Leap y
    · rw [if_pos hy]
      rw [Leap] at hy
      omega
    · rw [if_neg hy]
      rw [Leap] at hy
      omega

theorem yearStart_mono (h : m ≤ n) : yearStart m ≤ yearStart n :=
  Finset.sum_le_sum_of_subset (Finset.range_mono h)

theorem monthStart_mono (h : m ≤ n) : monthStart year m ≤ monthStart year n :=
  Finset.sum_le_sum_of_subset (Finset.range_mono h)

theorem monthStart_year (year : Nat) : monthStart year 12 = yearLength year := by
  simp only [monthStart, Finset.sum_range_succ, Finset.sum_range_zero, monthLength, yearLength]
  by_cases h : Leap year
  · simp [h]
  · simp [h]

theorem monthLength_congr (h : Leap m ↔ Leap n) (month : Nat) : monthLength m month = monthLength n month := by
  simp only [monthLength, h]

/-- The months of two years begin on the same days when both are leap years or neither is. -/
theorem monthStart_congr (h : Leap m ↔ Leap n) : monthStart m month = monthStart n month :=
  Finset.sum_congr rfl fun i _ => monthLength_congr h i

namespace Date

theorem dayOfYear_lt_next (d : Date) : d.dayOfYear < monthStart d.year (d.month + 1) := by
  have hpos := d.day_pos
  have hle := d.day_le
  rw [monthStart_succ, dayOfYear]
  omega

theorem dayOfYear_lt (d : Date) : d.dayOfYear < yearLength d.year := by
  have h : monthStart d.year (d.month + 1) ≤ monthStart d.year 12 := monthStart_mono d.month_lt
  rw [monthStart_year] at h
  exact lt_of_lt_of_le d.dayOfYear_lt_next h

/-- A date in an earlier month of the same year is earlier. -/
theorem dayOfYear_lt_of_month (hy : d.year = e.year) (h : d.month < e.month) : d.dayOfYear < e.dayOfYear := by
  have hlt := d.dayOfYear_lt_next
  have hle : monthStart d.year (d.month + 1) ≤ monthStart d.year e.month := monthStart_mono h
  rw [hy] at hlt hle
  have he : monthStart e.year e.month ≤ e.dayOfYear := Nat.le_add_right _ _
  omega

theorem number_lt_of_year (h : d.year < e.year) : d.number < e.number := by
  have hlt := d.dayOfYear_lt
  have hle : yearStart (d.year + 1) ≤ yearStart e.year := yearStart_mono h
  rw [yearStart_succ] at hle
  rw [number, number]
  omega

theorem number_lt_of_month (hy : d.year = e.year) (h : d.month < e.month) : d.number < e.number := by
  have hlt := dayOfYear_lt_of_month hy h
  rw [number, number, hy]
  omega

theorem number_lt_of_day (hy : d.year = e.year) (hm : d.month = e.month) (h : d.day < e.day) : d.number < e.number := by
  have hpos := d.day_pos
  rw [number, number, dayOfYear, dayOfYear, hy, hm]
  omega

theorem number_congr (hy : d.year = e.year) (hn : d.dayOfYear = e.dayOfYear) : d.number = e.number := by
  rw [number, number, hy, hn]

theorem dayOfYear_congr (hy : d.year = e.year) (hm : d.month = e.month) (h : d.day = e.day) :
    d.dayOfYear = e.dayOfYear := by
  rw [dayOfYear, dayOfYear, hy, hm, h]

theorem number_newYear (year : Nat) : (newYear year).number = yearStart year := rfl

end Date

section Digits

/-- The number that digits continue, each in a radix of its own. -/
def readDigits (start : Int) : List Int → List Int → Int
  | r :: rs, d :: ds => readDigits (start * r + d) rs ds
  | _, _ => start

/-- Digits of these radices. -/
abbrev Digits (rs ds : List Int) : Prop := List.Forall₂ (fun r d => 0 ≤ d ∧ d < r) rs ds

variable {start start' : Int} {rs ds es : List Int}

theorem readDigits_lt_of_start (hd : Digits rs ds) (he : Digits rs es) (h : start < start') :
    readDigits start rs ds < readDigits start' rs es := by
  induction hd generalizing es start start' with
  | nil =>
    cases he
    exact h
  | @cons r d rs ds hrd _ ih =>
    cases he with
    | @cons _ e _ es hre htail =>
      have hmul : (start + 1) * r ≤ start' * r := Int.mul_le_mul_of_nonneg_right (by omega) (by omega)
      rw [Int.add_mul, Int.one_mul] at hmul
      exact ih htail (by omega)

/-- Numbers are in the lexicographic order of their digits. -/
theorem readDigits_lt (start : Int) (hd : Digits rs ds) (he : Digits rs es) (h : ds < es) :
    readDigits start rs ds < readDigits start rs es := by
  induction hd generalizing es start with
  | nil =>
    cases he
    exact absurd h (List.lt_irrefl _)
  | @cons r d rs ds hrd hds ih =>
    cases he with
    | @cons _ e _ es hre htail =>
      rcases List.cons_lt_cons_iff.mp h with hlt | ⟨rfl, hlt⟩
      · have hstep : start * r + d < start * r + e := by omega
        rw [readDigits, readDigits]
        exact readDigits_lt_of_start hds htail hstep
      · exact ih _ htail hlt

end Digits

end SdkPort.Gregorian
