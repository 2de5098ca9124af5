import SdkPort.OS.GcMem
import SdkPort.OS.ThreadMem

/-!
# Alarms

`OSAlarm.c`: alarms in emulated memory, linked in the order in which they fire. Fire
times, periods and start times are signed 64-bit numbers stored in two words.
-/
namespace SdkPort.OSAlarm

open Gc (GcMem)
open OSThread (toS32 toU32)

def PORT_ALARM_HANDLER : Nat := 0
def PORT_ALARM_FIRE : Nat := 8
def PORT_ALARM_PREV : Nat := 16
def PORT_ALARM_NEXT : Nat := 20
def PORT_ALARM_PERIOD : Nat := 24
def PORT_ALARM_START : Nat := 32
def PORT_ALARM_SIZE : Nat := 40

def loadS64 (m : GcMem) (addr : Nat) : Int := toS32 (m.load addr) * 2 ^ 32 + m.load (addr + 4)

def storeS64 (m : GcMem) (addr : Nat) (val : Int) : GcMem :=
  (m.store addr (toU32 (val / 2 ^ 32))).store (addr + 4) (toU32 val)

/-- `port_OSAlarmState` and the memory. -/
structure St where
  mem : GcMem
  queueHead : Nat
  queueTail : Nat
  systemTime : Int

namespace St

def load (s : St) (addr : Nat) : Nat := s.mem.load addr
def loadS64 (s : St) (addr : Nat) : Int := OSAlarm.loadS64 s.mem addr
def store (s : St) (addr v : Nat) : St := { s with mem := s.mem.store addr v }
def storeS64 (s : St) (addr : Nat) (v : Int) : St := { s with mem := OSAlarm.storeS64 s.mem addr v }

end St

def portOSAlarmInit (s : St) : St := { s with queueHead := 0, queueTail := 0, systemTime := 0 }

def portOSCreateAlarm (s : St) (alarm : Nat) : St := s.store (alarm + PORT_ALARM_HANDLER) 0

/-- The next time from `start` on, in steps of the period, that is later than `time`. -/
def fireTime (time start period : Int) : Int :=
  if start < time then start + period * ((time - start) / period + 1) else start

/-- Steps enough to walk any list of alarms. -/
def alarmFuel : Nat := 2 ^ 32

/-- The first alarm from an address on that fires later; null at the end of the list. -/
def findLater (m : GcMem) (fire : Int) : Nat → Nat → Option Nat
  | 0, _ => none
  | n + 1, a =>
    if a = 0 then some 0
    else if loadS64 m (a + PORT_ALARM_FIRE) ≤ fire then findLater m fire n (m.load (a + PORT_ALARM_NEXT))
    else some a

def insertBefore (s : St) (alarm nextA : Nat) : St :=
  let prevA := s.load (nextA + PORT_ALARM_PREV)
  let s := s.store (alarm + PORT_ALARM_PREV) prevA
  let s := s.store (nextA + PORT_ALARM_PREV) alarm
  let s := s.store (alarm + PORT_ALARM_NEXT) nextA
  if prevA ≠ 0 then s.store (prevA + PORT_ALARM_NEXT) alarm else { s with queueHead := alarm }

def insertTail (s : St) (alarm : Nat) : St :=
  let s := s.store (alarm + PORT_ALARM_NEXT) 0
  let prevA := s.queueTail
  let s := { s with queueTail := alarm }
  let s := s.store (alarm + PORT_ALARM_PREV) prevA
  if prevA ≠ 0 then s.store (prevA + PORT_ALARM_NEXT) alarm
  else { s with queueHead := alarm, queueTail := alarm }

/-- A periodic alarm computes its own fire time. -/
def insertFire (s : St) (alarm : Nat) (fire : Int) : Int :=
  let period := s.loadS64 (alarm + PORT_ALARM_PERIOD)
  if 0 < period then fireTime s.systemTime (s.loadS64 (alarm + PORT_ALARM_START)) period else fire

def InsertAlarm (s : St) (alarm : Nat) (fire : Int) (handler : Nat) : Option St :=
  let fire := insertFire s alarm fire
  let s := s.store (alarm + PORT_ALARM_HANDLER) handler
  let s := s.storeS64 (alarm + PORT_ALARM_FIRE) fire
  (findLater s.mem fire alarmFuel s.queueHead).map fun nextA =>
    if nextA ≠ 0 then insertBefore s alarm nextA else insertTail s alarm

def portOSSetAlarm (s : St) (alarm : Nat) (tick : Int) : Option St :=
  let s := s.storeS64 (alarm + PORT_ALARM_PERIOD) 0
  InsertAlarm s alarm (s.systemTime + tick) 1

def portOSSetPeriodicAlarm (s : St) (alarm : Nat) (start period : Int) : Option St :=
  let s := s.storeS64 (alarm + PORT_ALARM_PERIOD) period
  let s := s.storeS64 (alarm + PORT_ALARM_START) start
  InsertAlarm s alarm 0 1

def portOSCancelAlarm (s : St) (alarm : Nat) : St :=
  if s.load (alarm + PORT_ALARM_HANDLER) = 0 then s
  else
    let nextA := s.load (alarm + PORT_ALARM_NEXT)
    let s :=
      if nextA = 0 then { s with queueTail := s.load (alarm + PORT_ALARM_PREV) }
      else s.store (nextA + PORT_ALARM_PREV) (s.load (alarm + PORT_ALARM_PREV))
    let prevA := s.load (alarm + PORT_ALARM_PREV)
    let s := if prevA ≠ 0 then s.store (prevA + PORT_ALARM_NEXT) nextA else { s with queueHead := nextA }
    s.store (alarm + PORT_ALARM_HANDLER) 0

/-- The head of the queue is taken out. -/
def removeHead (s : St) (alarm : Nat) : St :=
  let nextA := s.load (alarm + PORT_ALARM_NEXT)
  let s := { s with queueHead := nextA }
  if nextA = 0 then { s with queueTail := 0 } else s.store (nextA + PORT_ALARM_PREV) 0

/-- The alarm that fires, or null. -/
def portOSAlarmFireHead (s : St) : Option (Nat × St) :=
  let alarm := s.queueHead
  if alarm = 0 then some (0, s)
  else if s.systemTime < s.loadS64 (alarm + PORT_ALARM_FIRE) then some (0, s)
  else
    let s := removeHead s alarm
    let handler := s.load (alarm + PORT_ALARM_HANDLER)
    let s := s.store (alarm + PORT_ALARM_HANDLER) 0
    if 0 < s.loadS64 (alarm + PORT_ALARM_PERIOD) then (InsertAlarm s alarm 0 handler).map (alarm, ·)
    else some (alarm, s)

end SdkPort.OSAlarm
