import Mathlib.Algebra.GroupWithZero.Nat
import Mathlib.Algebra.Order.Group.Nat
import Mathlib.Data.Int.DivMod
import Mathlib.Logic.Function.Basic
import SdkPort.Lib.Refine

/-!
# Stopwatches

`OSStopwatch.c`: stopwatches add up the laps between a start and a stop, by a clock that moves on whenever
it is read. All of them share the clock, so that a lap of one sees the readings of the others.
-/
namespace SdkPort.Stopwatch

open Function (update update_self update_of_ne)
open Refine (specAll)

abbrev U32 := BitVec 32
abbrev U64 := BitVec 64

structure OSStopwatch where
  total : U64
  hits : U32
  running : U32
  last : U64
  min : U64
  max : U64

/-- The clock, and the stopwatches by address. -/
structure Watches where
  timeCounter : U64
  sw : Nat → OSStopwatch

def Watches.set (s : Watches) (i : Nat) (w : OSStopwatch) : Watches := { s with sw := update s.sw i w }

/-- The clock moves on. -/
def OSGetTime (s : Watches) : U64 × Watches :=
  (s.timeCounter + 1, { s with timeCounter := s.timeCounter + 1 })

def OSInitStopwatch (s : Watches) (i : Nat) : Watches :=
  s.set i { total := 0, hits := 0, min := 0x00000000FFFFFFFF, max := 0, running := 0, last := 0 }

def OSStartStopwatch (s : Watches) (i : Nat) : Watches :=
  let (now, s) := OSGetTime s
  s.set i { s.sw i with running := 1, last := now }

def OSStopStopwatch (s : Watches) (i : Nat) : Watches :=
  if (s.sw i).running ≠ 0 then
    let (now, s) := OSGetTime s
    let w := s.sw i
    let interval := now - w.last
    s.set i { w with
      total := w.total + interval, running := 0, hits := w.hits + 1
      max := if w.max < interval then interval else w.max
      min := if interval < w.min then interval else w.min }
  else s

/-- A signed number of ticks. -/
def OSCheckStopwatch (s : Watches) (i : Nat) : Int × Watches :=
  let currTotal := (s.sw i).total.toInt
  if (s.sw i).running ≠ 0 then
    let (now, s) := OSGetTime s
    (currTotal + (now - (s.sw i).last).toInt, s)
  else (currTotal, s)

def OSResetStopwatch (s : Watches) (i : Nat) : Watches := OSInitStopwatch s i

def OSTicksToMicroseconds (ticks : Int) : Int := (ticks * 8).tdiv 324

/-- The numbers that are printed. -/
def OSDumpStopwatch (w : OSStopwatch) : List Int :=
  [OSTicksToMicroseconds w.total.toInt, w.hits.toInt, OSTicksToMicroseconds w.min.toInt,
    OSTicksToMicroseconds w.max.toInt,
    if w.hits = 0 then 0 else OSTicksToMicroseconds (w.total / w.hits.setWidth 64).toInt]

inductive WatchCall where
  | init (i : Nat)
  | start (i : Nat)
  | stop (i : Nat)
  | check (i : Nat)
  | reset (i : Nat)
  | dump (i : Nat)
  deriving DecidableEq

def exec (s : Watches) : WatchCall → List Int × Watches
  | .init i => ([], OSInitStopwatch s i)
  | .start i => ([], OSStartStopwatch s i)
  | .stop i => ([], OSStopStopwatch s i)
  | .check i => ([(OSCheckStopwatch s i).1], (OSCheckStopwatch s i).2)
  | .reset i => ([], OSResetStopwatch s i)
  | .dump i => (OSDumpStopwatch (s.sw i), s)

/-! ### Laps -/

/-- The laps that were stopped, and the time of the start of one that was not. -/
structure Timing where
  laps : List Nat
  since : Option Nat

/-- The readings of the clock, and all timings. -/
structure Session where
  now : Nat
  timings : Nat → Timing

def Session.set (t : Session) (i : Nat) (x : Timing) : Session := { t with timings := update t.timings i x }

def Session.tick (t : Session) : Session := { t with now := t.now + 1 }

namespace Timing

/-- Without laps the least one is the greatest number of 32 bits. -/
def least (x : Timing) : Nat := x.laps.foldl Nat.min 0xFFFFFFFF

def greatest (x : Timing) : Nat := x.laps.foldl Nat.max 0

/-- Counted with 32 bits. -/
def hits (x : Timing) : U32 := BitVec.ofNat 32 x.laps.length

/-- Microseconds, rounded down. -/
def us (ticks : Nat) : Int := (ticks * 8 / 324 : Nat)

def dump (x : Timing) : List Int :=
  [us x.laps.sum, x.hits.toInt, us x.least, us x.greatest, if x.hits = 0 then 0 else us (x.laps.sum / x.hits.toNat)]

end Timing

/-- What a program expects of its stopwatches. -/
def Session.call (t : Session) : WatchCall → List Int × Session
  | .init i => ([], t.set i ⟨[], none⟩)
  | .start i => ([], t.tick.set i { t.timings i with since := some (t.now + 1) })
  | .stop i =>
    match (t.timings i).since with
    | none => ([], t)
    | some start => ([], t.tick.set i ⟨(t.timings i).laps ++ [t.now + 1 - start], none⟩)
  | .check i =>
    match (t.timings i).since with
    | none => ([((t.timings i).laps.sum : Int)], t)
    | some start => ([((t.timings i).laps.sum + (t.now + 1 - start) : Nat)], t.tick)
  | .reset i => ([], t.set i ⟨[], none⟩)
  | .dump i => ((t.timings i).dump, t)

/-! ### Stopwatches show laps -/

/-- A stopwatch shows its laps. They lie one behind the other, before the latest start. -/
structure Shown (now : Nat) (w : OSStopwatch) (x : Timing) : Prop where
  total : w.total.toNat = x.laps.sum
  hits : w.hits = x.hits
  running : w.running ≠ 0 ↔ x.since ≠ none
  last : ∀ start, x.since = some start → w.last.toNat = start ∧ start ≤ now
  min : w.min.toNat = x.least
  max : w.max.toNat = x.greatest
  past : x.laps.sum ≤ x.since.getD now

structure Shows (s : Watches) (t : Session) : Prop where
  clock : s.timeCounter.toNat = t.now
  watches : ∀ i, Shown t.now (s.sw i) (t.timings i)

variable {now soon begun : Nat} {w : OSStopwatch} {x : Timing} {v : U64} {s : Watches} {t : Session} {i : Nat}

theorem Shown.init (now : Nat) :
    Shown now { total := 0, hits := 0, min := 0x00000000FFFFFFFF, max := 0, running := 0, last := 0 } ⟨[], none⟩ where
  total := rfl
  hits := rfl
  running := iff_of_false (fun h => h rfl) fun h => h rfl
  last _ h := nomatch h
  min := rfl
  max := rfl
  past := Nat.zero_le _

theorem Shown.sum_le (h : Shown now w x) : x.laps.sum ≤ now := by
  have hpast := h.past
  cases hx : x.since with
  | none =>
    rw [hx] at hpast
    exact hpast
  | some begun =>
    rw [hx] at hpast
    exact hpast.trans (h.last begun hx).2

theorem Shown.later (h : Shown now w x) (hle : now ≤ soon) : Shown soon w x := by
  refine ⟨h.total, h.hits, h.running, fun begun hx => ?_, h.min, h.max, ?_⟩
  · exact ⟨(h.last begun hx).1, (h.last begun hx).2.trans hle⟩
  · have hpast := h.past
    cases hx : x.since with
    | none => exact h.sum_le.trans hle
    | some begun =>
      rw [hx] at hpast
      exact hpast

/-- A start forgets the one before it. -/
theorem Shown.start (h : Shown now w x) (hv : v.toNat = now + 1) :
    Shown (now + 1) { w with running := 1, last := v } { x with since := some (now + 1) } where
  total := h.total
  hits := h.hits
  running := by
    have hone : (1 : U32) ≠ 0 := by decide
    exact iff_of_true hone (Option.some_ne_none _)
  last _ hs := by
    cases hs
    exact ⟨hv, le_refl _⟩
  min := h.min
  max := h.max
  past := h.sum_le.trans (Nat.le_succ now)

/-- The time since the start, before the clock wraps. -/
theorem Shown.interval (h : Shown now w x) (hx : x.since = some begun) (hv : v.toNat = now + 1) :
    (v - w.last).toNat = now + 1 - begun := by
  obtain ⟨hlast, hle⟩ := h.last begun hx
  have hsub : w.last ≤ v := by
    rw [BitVec.le_def]
    omega
  rw [BitVec.toNat_sub_of_le hsub, hv, hlast]

theorem toNat_least (a b : U64) : (if b < a then b else a).toNat = a.toNat.min b.toNat := by
  split
  · rename_i hlt
    exact (Nat.min_eq_right (Nat.le_of_lt (BitVec.lt_def.mp hlt))).symm
  · rename_i hlt
    exact (Nat.min_eq_left (Nat.le_of_not_lt (mt BitVec.lt_def.mpr hlt))).symm

theorem toNat_greatest (a b : U64) : (if a < b then b else a).toNat = a.toNat.max b.toNat := by
  split
  · rename_i hlt
    exact (Nat.max_eq_right (Nat.le_of_lt (BitVec.lt_def.mp hlt))).symm
  · rename_i hlt
    exact (Nat.max_eq_left (Nat.le_of_not_lt (mt BitVec.lt_def.mpr hlt))).symm

/-- The stopped lap is added to those before it. -/
theorem Shown.stop (h : Shown now w x) (hx : x.since = some begun) (hv : v.toNat = now + 1) (hn : now + 1 < 2 ^ 60) :
    Shown (now + 1)
      { w with
        total := w.total + (v - w.last), running := 0, hits := w.hits + 1
        max := if w.max < v - w.last then v - w.last else w.max
        min := if v - w.last < w.min then v - w.last else w.min }
      ⟨x.laps ++ [now + 1 - begun], none⟩ := by
  have hd := h.interval hx hv
  have hle := (h.last begun hx).2
  have hpast := h.past
  rw [hx] at hpast
  have hsum : x.laps.sum + (now + 1 - begun) ≤ now + 1 := by
    have hpast : x.laps.sum ≤ begun := hpast
    omega
  refine ⟨?_, ?_, iff_of_false (fun hr => hr rfl) fun hr => hr rfl, (fun _ hs => nomatch hs), ?_, ?_, ?_⟩
  · rw [BitVec.toNat_add, h.total, hd, List.sum_append, List.sum_singleton]
    exact Nat.mod_eq_of_lt (by omega)
  · rw [h.hits, Timing.hits, Timing.hits, List.length_append, List.length_singleton]
    exact (BitVec.ofNat_add _ _).symm
  · have hmin : Timing.least ⟨x.laps ++ [now + 1 - begun], none⟩ = x.least.min (now + 1 - begun) := List.foldl_append
    rw [hmin, ← h.min, ← hd]
    exact toNat_least _ _
  · have hmax : Timing.greatest ⟨x.laps ++ [now + 1 - begun], none⟩ = x.greatest.max (now + 1 - begun) :=
      List.foldl_append
    rw [hmax, ← h.max, ← hd]
    exact toNat_greatest _ _
  · rw [List.sum_append, List.sum_singleton]
    exact hsum

/-- One stopwatch is changed, and the others see at most the clock. -/
theorem Shows.set (h : ∀ j, Shown soon (s.sw j) (t.timings j)) (hc : s.timeCounter.toNat = soon)
    (hn : t.now = soon) (hi : Shown soon w x) : Shows (s.set i w) (t.set i x) := by
  refine ⟨hc.trans hn.symm, fun j => ?_⟩
  have hset : (t.set i x).now = soon := hn
  rw [hset]
  by_cases hj : j = i
  · subst hj
    have hw : (s.set j w).sw j = w := update_self _ _ _
    have ht : (t.set j x).timings j = x := update_self _ _ _
    rw [hw, ht]
    exact hi
  · have hw : (s.set i w).sw j = s.sw j := update_of_ne hj _ _
    have ht : (t.set i x).timings j = t.timings j := update_of_ne hj _ _
    rw [hw, ht]
    exact h j

theorem Shows.clock_next (h : Shows s t) (hn : t.now + 1 < 2 ^ 60) : (s.timeCounter + 1).toNat = t.now + 1 := by
  have hone : (1 : U64).toNat = 1 := rfl
  rw [BitVec.toNat_add, h.clock, hone]
  exact Nat.mod_eq_of_lt (by omega)

theorem Shows.tick (h : Shows s t) (hn : t.now + 1 < 2 ^ 60) : Shows (OSGetTime s).2 t.tick :=
  ⟨h.clock_next hn, fun i => (h.watches i).later (Nat.le_succ _)⟩

/-- What is below the sign is a number. -/
theorem toInt_small {v : U64} (hv : v.toNat < 2 ^ 60) : v.toInt = v.toNat :=
  BitVec.toInt_eq_toNat_of_lt (by omega)

theorem us_eq {v : U64} (hv : v.toNat < 2 ^ 60) : OSTicksToMicroseconds v.toInt = Timing.us v.toNat := by
  rw [toInt_small hv, OSTicksToMicroseconds, Timing.us]
  exact Int.ofNat_tdiv _ _

theorem foldl_max_le (laps : List Nat) (a : Nat) : laps.foldl Nat.max a ≤ a + laps.sum := by
  induction laps generalizing a with
  | nil => exact Nat.le_refl _
  | cons lap laps ih =>
    have hmax : a.max lap ≤ a + lap := Nat.max_le.mpr ⟨Nat.le_add_right _ _, Nat.le_add_left _ _⟩
    have hrest : laps.foldl Nat.max (a.max lap) ≤ a.max lap + laps.sum := ih _
    rw [List.foldl_cons, List.sum_cons]
    omega

theorem foldl_min_le (laps : List Nat) (a : Nat) : laps.foldl Nat.min a ≤ a := by
  induction laps generalizing a with
  | nil => exact Nat.le_refl _
  | cons lap laps ih => exact (ih _).trans (Nat.min_le_left _ _)

/-- No lap is longer than all together. -/
theorem greatest_le (x : Timing) : x.greatest ≤ x.laps.sum :=
  (foldl_max_le x.laps 0).trans_eq (Nat.zero_add _)

theorem least_le (x : Timing) : x.least ≤ 0xFFFFFFFF := foldl_min_le _ _

/-- The mean over the counted hits, also where their count has wrapped. -/
theorem mean_eq {laps : Nat} (hv : v.toNat = laps) (hn : laps < 2 ^ 60) (k : U32) :
    OSTicksToMicroseconds (v / k.setWidth 64).toInt = Timing.us (laps / k.toNat) := by
  have hk : (k.setWidth 64).toNat = k.toNat := BitVec.toNat_setWidth_of_le (by decide)
  have hdiv : (v / k.setWidth 64).toNat = laps / k.toNat := by
    rw [BitVec.toNat_udiv, hv, hk]
  have hle : laps / k.toNat ≤ laps := Nat.div_le_self _ _
  rw [us_eq (by omega), hdiv]

theorem Shown.dump (h : Shown now w x) (hn : now < 2 ^ 60) : OSDumpStopwatch w = x.dump := by
  have hsum := h.sum_le
  have hmax := greatest_le x
  have hmin := least_le x
  rw [OSDumpStopwatch, Timing.dump, us_eq (by rw [h.total]; omega), us_eq (by rw [h.min]; omega),
    us_eq (by rw [h.max]; omega), mean_eq h.total (by omega), h.total, h.min, h.max, h.hits]

/-- One call. -/
theorem Shows.step (h : Shows s t) (hn : t.now + 1 < 2 ^ 60) (c : WatchCall) :
    (exec s c).1 = (t.call c).1 ∧ Shows (exec s c).2 (t.call c).2 := by
  have htick := h.tick hn
  cases c with
  | init i => exact ⟨rfl, Shows.set h.watches h.clock rfl (Shown.init _)⟩
  | start i =>
    exact ⟨rfl, Shows.set htick.watches htick.clock rfl ((h.watches i).start (h.clock_next hn))⟩
  | stop i =>
    have hi := h.watches i
    rw [exec, Session.call, OSStopStopwatch]
    cases hx : (t.timings i).since with
    | none =>
      rw [if_neg fun hr => hi.running.mp hr hx]
      exact ⟨rfl, h⟩
    | some begun =>
      rw [if_pos (hi.running.mpr fun hnone => Option.some_ne_none begun (hx.symm.trans hnone))]
      exact ⟨rfl, Shows.set htick.watches htick.clock rfl (hi.stop hx (h.clock_next hn) hn)⟩
  | check i =>
    have hi := h.watches i
    have hsum := hi.sum_le
    have htotal : (s.sw i).total.toInt = (t.timings i).laps.sum := by
      rw [toInt_small (by rw [hi.total]; omega), hi.total]
    rw [exec, Session.call, OSCheckStopwatch]
    cases hx : (t.timings i).since with
    | none =>
      rw [if_neg fun hr => hi.running.mp hr hx]
      exact ⟨congrArg (fun n => [n]) htotal, h⟩
    | some begun =>
      have hd := hi.interval hx (h.clock_next hn)
      rw [if_pos (hi.running.mpr fun hnone => Option.some_ne_none begun (hx.symm.trans hnone))]
      have hlap : ((OSGetTime s).1 - (s.sw i).last).toInt = (t.now + 1 - begun : Nat) :=
        (toInt_small (lt_of_eq_of_lt hd (by omega))).trans (congrArg Nat.cast hd)
      refine ⟨?_, htick⟩
      rw [htotal]
      exact congrArg (fun n => [n]) ((congrArg (_ + ·) hlap).trans (Int.natCast_add _ _).symm)
  | reset i => exact ⟨rfl, Shows.set h.watches h.clock rfl (Shown.init _)⟩
  | dump i => exact ⟨(h.watches i).dump (by omega), h⟩

theorem Session.call_now (t : Session) (c : WatchCall) : (t.call c).2.now ≤ t.now + 1 := by
  cases c with
  | init i => exact Nat.le_succ _
  | start i => exact Nat.le_refl _
  | stop i =>
    rw [Session.call]
    split
    · exact Nat.le_succ _
    · exact Nat.le_refl _
  | check i =>
    rw [Session.call]
    split
    · exact Nat.le_succ _
    · exact Nat.le_refl _
  | reset i => exact Nat.le_succ _
  | dump i => exact Nat.le_succ _

/-- In every run, as long as the clock is far from its sign: whatever the stopwatches share, each shows
the laps between its own starts and stops. -/
theorem stopwatches_show_laps (calls : List WatchCall) (h : Shows s t) (hn : t.now + calls.length < 2 ^ 60) :
    (specAll exec s calls).1 = (specAll Session.call t calls).1 ∧
      Shows (specAll exec s calls).2 (specAll Session.call t calls).2 := by
  induction calls generalizing s t with
  | nil => exact ⟨rfl, h⟩
  | cons c calls ih =>
    rw [List.length_cons] at hn
    obtain ⟨hreply, hnext⟩ := h.step (by omega) c
    have hnow := t.call_now c
    obtain ⟨hreplies, hend⟩ := ih hnext (by omega)
    exact ⟨congrArg₂ List.cons hreply hreplies, hend⟩

/-- Every stopwatch is initialised, and the clock was not read. -/
def trialWatches : Watches where
  timeCounter := 0
  sw _ := { total := 0, hits := 0, min := 0x00000000FFFFFFFF, max := 0, running := 0, last := 0 }

def trialSession : Session := ⟨0, fun _ => ⟨[], none⟩⟩

/-- The second stopwatch is read while it runs. -/
def trialWatchCalls : List WatchCall :=
  [.start 0, .start 1, .stop 0, .check 1, .stop 1, .start 0, .stop 0, .check 0, .dump 0]

theorem trialWatchCalls_laps :
    Shows trialWatches trialSession ∧ trialSession.now + trialWatchCalls.length < 2 ^ 60 ∧
      (specAll exec trialWatches trialWatchCalls).1 =
        [[], [], [], [2], [], [], [], [3], [0, 2, 0, 0, 0]] := by
  have hshows : Shows trialWatches trialSession := ⟨rfl, fun _ => Shown.init 0⟩
  have hshort : trialSession.now + trialWatchCalls.length < 2 ^ 60 := by decide
  exact ⟨hshows, hshort, (stopwatches_show_laps trialWatchCalls hshows hshort).1.trans (by decide)⟩

end SdkPort.Stopwatch
