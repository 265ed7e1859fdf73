import Asn1.UtcTime

/-!
Libraries of dates and times, and the moment that a UTC time asks one for.
-/

namespace Asn1

/-- How often a local time occurs. -/
inductive Occurrence (Moment : Type)
  | never
  | once (moment : Moment)
  | twice (earlier later : Moment)

def Occurrence.single? {Moment : Type} : Occurrence Moment → Option Moment
  | .once moment => some moment
  | .never | .twice _ _ => none

/-- The operations of a library of dates and times. -/
structure Chronology where
  Offset : Type
  Day : Type
  Local : Type
  Moment : Type
  /-- An offset of so many seconds by which local time is ahead of UTC. -/
  offset? : Int → Option Offset
  /-- A day of a year, month and day. -/
  day? : Int → Nat → Nat → Option Day
  /-- The hour, minute and second of a day. -/
  clock? : Day → Nat → Nat → Nat → Option Local
  occurrence : Offset → Local → Occurrence Moment
  year : Moment → Int
  month : Moment → Nat
  day : Moment → Nat
  hour : Moment → Nat
  minute : Moment → Nat
  second : Moment → Nat
  /-- How many seconds local time is ahead of UTC. -/
  ahead : Moment → Int
  /-- How many seconds have passed since the start of 1970 in UTC. -/
  timestamp : Moment → Int

def UtcTime.moment? (chronology : Chronology) (time : UtcTime) : Option chronology.Moment := do
  let offset ← chronology.offset? (time.offset * 60)
  let day ← chronology.day? time.year time.month time.day
  let localTime ← chronology.clock? day time.hour time.minute time.second
  (chronology.occurrence offset localTime).single?

end Asn1
