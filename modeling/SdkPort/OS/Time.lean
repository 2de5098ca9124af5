import Mathlib.Algebra.Order.Ring.Int

/-!
# From ticks to the calendar

`OSTime.c`, and the copy of its conversion in `OSRtc.c`. Division and remainder are C's, towards
zero. A value that does not fit its type is an error, and so is an index outside a table.
-/
namespace SdkPort.OSTime

inductive Fault where
  | overflow
  | outOfBounds
  | fuel
  deriving DecidableEq, Repr

def Fits32 (v : Int) : Prop := -2147483648 ≤ v ∧ v ≤ 2147483647

def Fits64 (v : Int) : Prop := -9223372036854775808 ≤ v ∧ v ≤ 9223372036854775807

instance (v : Int) : Decidable (Fits32 v) := inferInstanceAs (Decidable (-2147483648 ≤ v ∧ v ≤ 2147483647))

instance (v : Int) : Decidable (Fits64 v) :=
  inferInstanceAs (Decidable (-9223372036854775808 ≤ v ∧ v ≤ 9223372036854775807))

/-- A value computed in, or converted to, `s32`. -/
def s32 (v : Int) : Except Fault Int := if Fits32 v then .ok v else .error .overflow

/-- A value computed in `s64`. -/
def s64 (v : Int) : Except Fault Int := if Fits64 v then .ok v else .error .overflow

structure OSCalendarTime where
  sec : Int
  min : Int
  hour : Int
  mday : Int
  mon : Int
  year : Int
  wday : Int
  yday : Int
  msec : Int
  usec : Int
  deriving DecidableEq, Repr

def YearDays : Vector Int 12 := #v[0, 31, 59, 90, 120, 151, 181, 212, 243, 273, 304, 334]

def LeapYearDays : Vector Int 12 := #v[0, 31, 60, 91, 121, 152, 182, 213, 244, 274, 305, 335]

def IsLeapYear (year : Int) : Bool :=
  decide ((year.tmod 4 = 0 ∧ year.tmod 100 ≠ 0) ∨ year.tmod 400 = 0)

def GetLeapDays (year : Int) : Except Fault Int :=
  if year < 1 then .ok 0
  else do
    let fours := (← s32 (year + 3)).tdiv 4
    let hundreds := (← s32 (year - 1)).tdiv 100
    let fourHundreds := (← s32 (year - 1)).tdiv 400
    s32 ((← s32 (fours - hundreds)) + fourHundreds)

/-- `totalDays`, as the condition of the loop over the years sets it. -/
def totalDays (year : Int) : Except Fault Int := do
  let days ← s32 (year * 365)
  s32 (days + (← GetLeapDays year))

/-- `year` and `totalDays` after the loop over the years. -/
structure YearFound where
  year : Int
  totalDays : Int
  deriving DecidableEq, Repr

/-- The loop over the years, from an estimate down. -/
def yearLoop (days : Int) : Nat → Int → Except Fault YearFound
  | 0, _ => .error .fuel
  | fuel + 1, year => do
    let total ← totalDays year
    if days < total then
      let year ← s32 (year - 1)
      yearLoop days fuel year
    else
      pure ⟨year, total⟩

/-- `while (days < p_days[--month])`, from a month that the table still has. -/
def monthLoop (days : Int) (p_days : Vector Int 12) : (month : Nat) → month ≤ 12 → Except Fault (Fin 12)
  | 0, _ => .error .outOfBounds
  | month + 1, h =>
    if days < p_days.get ⟨month, h⟩ then monthLoop days p_days month (Nat.le_of_succ_le h)
    else .ok ⟨month, h⟩

def GetDates (fuel : Nat) (days : Int) (cal : OSCalendarTime) : Except Fault OSCalendarTime := do
  let wday := (← s32 (days + 6)).tmod 7
  let found ← yearLoop days fuel (days.tdiv 365)
  let days ← s32 (days - found.totalDays)
  let p_days := if IsLeapYear found.year then LeapYearDays else YearDays
  let month ← monthLoop days p_days 12 (Nat.le_refl 12)
  let mday ← s32 (days - p_days.get month)
  let mday ← s32 (mday + 1)
  pure { cal with wday := wday, year := found.year, yday := days, mon := month.val, mday := mday }

def BIAS : Int := 2000 * 365 + (2000 + 3) / 4 - (2000 - 1) / 100 + (2000 - 1) / 400

/-- The macros that convert ticks: the ticks of a second and of a millisecond, and the ratio for
the microseconds. -/
structure TickRates where
  sec : Int
  msec : Int
  usecNum : Int
  usecDen : Int
  deriving DecidableEq, Repr

/-- `OSTicksToCalendarTime`, over the macros of a file. -/
def ticksToCalendarTime (c : TickRates) (fuel : Nat) (ticks : Int) (td : OSCalendarTime) :
    Except Fault OSCalendarTime := do
  let r := ticks.tmod c.sec
  let d ← (if r < 0 then s64 (r + c.sec) else pure r)
  let usec ← s32 (((← s64 (d * c.usecNum)).tdiv c.usecDen).tmod 1000)
  let msec ← s32 ((d.tdiv c.msec).tmod 1000)
  let ticks ← s64 (ticks - d)
  let days ← s64 ((ticks.tdiv c.sec).tdiv 86400 + BIAS)
  let days ← s32 days
  let secs ← s32 ((ticks.tdiv c.sec).tmod 86400)
  let days ← (if secs < 0 then s32 (days - 1) else pure days)
  let secs ← (if secs < 0 then s32 (secs + 24 * 60 * 60) else pure secs)
  let td ← GetDates fuel days { td with usec := usec, msec := msec }
  pure { td with hour := (secs.tdiv 60).tdiv 60, min := (secs.tdiv 60).tmod 60, sec := secs.tmod 60 }

def GC_BUS_CLOCK : Int := 162000000

def GC_TIMER_CLOCK : Int := GC_BUS_CLOCK / 4

def OSTicksToCalendarTime : Nat → Int → OSCalendarTime → Except Fault OSCalendarTime :=
  ticksToCalendarTime ⟨GC_TIMER_CLOCK, GC_TIMER_CLOCK / 1000, 8, GC_TIMER_CLOCK / 125000⟩

end SdkPort.OSTime

namespace SdkPort.OSRtc

open OSTime (OSCalendarTime Fault ticksToCalendarTime)

def OS_TIMER_CLOCK : Int := 162000000 / 4

def OSTicksToCalendarTime : Nat → Int → OSCalendarTime → Except Fault OSCalendarTime :=
  ticksToCalendarTime ⟨OS_TIMER_CLOCK, OS_TIMER_CLOCK / 1000, 8, OS_TIMER_CLOCK / 125000⟩

end SdkPort.OSRtc

namespace SdkPort.OSTime

variable {v days year y : Int} {fuel : Nat}

theorem ok_bind {α β : Type} (a : α) (f : α → Except Fault β) : (Except.ok a >>= f) = f a := rfl

theorem s32_ok (h : Fits32 v) : s32 v = .ok v := if_pos h

theorem s64_ok (h : Fits64 v) : s64 v = .ok v := if_pos h

end SdkPort.OSTime
