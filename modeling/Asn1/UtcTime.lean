import Asn1.Calendar
import Asn1.Decimal
import Asn1.Mode
import Asn1.Octets

/-!
UTC times: `YYMMDDhhmm`, seconds, and `Z` or the offset of local time. Distinguished rules demand
the seconds and the `Z`.
-/

namespace Asn1

structure UtcTime where
  year : Nat
  month : Nat
  day : Nat
  hour : Nat
  minute : Nat
  second? : Option Nat
  /-- How many minutes local time is ahead of UTC, if that was given. -/
  offset? : Option Int
  deriving DecidableEq, Repr

namespace UtcTime

def second (time : UtcTime) : Nat := time.second?.getD 0

def offset (time : UtcTime) : Int := time.offset?.getD 0

/-- Whether date and time exist. There are no leap seconds. -/
def isOnCalendar (time : UtcTime) : Bool :=
  1 ≤ time.month ∧ time.month ≤ 12 ∧
    1 ≤ time.day ∧ time.day ≤ Calendar.lastDay time.year time.month ∧
    time.hour < 24 ∧ time.minute < 60 ∧ time.second < 60

def digit? (octet : UInt8) : Option Nat :=
  if 48 ≤ octet.toNat ∧ octet.toNat ≤ 57 then some (octet.toNat - 48) else none

def pairs? : Octets → Option (List Nat)
  | [] => some []
  | tens :: units :: rest => do return ((← digit? tens) * 10 + (← digit? units)) :: (← pairs? rest)
  | _ => none

/-- Two digits stand for a year from 1950 to 2049. -/
def fullYear (short : Nat) : Nat := if 50 ≤ short then 1900 + short else 2000 + short

/-- Whether an octet starts the time zone. -/
def startsZone (octet : UInt8) : Bool := octet.toNat ∈ ['Z'.toNat, '+'.toNat, '-'.toNat]

/-- Reads the time zone: `Z` for no offset, otherwise a sign, hours and minutes. -/
def zone? (mode : Mode) : Octets → Option (Option Int)
  | [] => none
  | mark :: digits =>
      if mark.toNat = 'Z'.toNat then
        if digits = [] then some none else none
      else
        match mode, pairs? digits with
        | .ber, some [hours, minutes] =>
            if hours < 24 ∧ minutes < 60 then
              let minutes : Int := hours * 60 + minutes
              some (some (if mark.toNat = '-'.toNat then -minutes else minutes))
            else
              none
        | _, _ => none

/-- Reads the numbers before the time zone. Only basic rules allow leaving out the seconds. -/
def fields? (mode : Mode) (numbers : List Nat) (offset? : Option Int) : Option UtcTime :=
  match mode, numbers with
  | _, [year, month, day, hour, minute, second] =>
      some ⟨fullYear year, month, day, hour, minute, some second, offset?⟩
  | .ber, [year, month, day, hour, minute] =>
      some ⟨fullYear year, month, day, hour, minute, none, offset?⟩
  | _, _ => none

def ofOctets? (mode : Mode) (octets : Octets) : Option UtcTime := do
  let numbers ← pairs? (octets.takeWhile fun octet => !startsZone octet)
  let offset? ← zone? mode (octets.dropWhile fun octet => !startsZone octet)
  let time ← fields? mode numbers offset?
  if time.isOnCalendar then some time else none

def twoDigits (number : Nat) : String := Decimal.padded 2 number

def dateText (time : UtcTime) : String :=
  Decimal.padded 4 time.year ++ "-" ++ twoDigits time.month ++ "-" ++ twoDigits time.day

def clockText (time : UtcTime) : String :=
  twoDigits time.hour ++ ":" ++ twoDigits time.minute ++ ":" ++ twoDigits time.second

/-- An offset with its sign, which is minus only below zero. -/
def offsetText (offset : Int) (between : String) : String :=
  (if offset < 0 then "-" else "+") ++ twoDigits (offset.natAbs / 60) ++ between
    ++ twoDigits (offset.natAbs % 60)

def text (time : UtcTime) : String :=
  let zone := match time.offset? with
    | some offset => offsetText offset ""
    | none => ""
  time.dateText ++ " " ++ time.clockText ++ " (UTC" ++ zone ++ ")"

def describe (mode : Mode) (octets : Octets) : String :=
  match ofOctets? mode octets with
  | some time => time.text
  | none => "[Invalid date and time]"

/-- The time as a date, `T`, time of day and offset. -/
def internetText (time : UtcTime) : String :=
  time.dateText ++ "T" ++ time.clockText ++ offsetText time.offset ":"

/-- How many seconds the time is after the start of 1970 in UTC. -/
def timestamp (time : UtcTime) : Int :=
  86400 * Calendar.dayNumber time.year time.month time.day + 3600 * time.hour + 60 * time.minute
    + time.second - 60 * time.offset

end UtcTime

end Asn1
