import Asn1.Chronology
import Asn1.Proofs.UtcTime.Written
import Mathlib.Data.List.Lex

/-!
# The moments of UTC times

A library of the Gregorian calendar has a moment for each time that is read. Its timestamp counts
days by the number of the day, so that the order of moments is that of dates and times of day.
-/

namespace Asn1

namespace Chronology

structure Clock where
  hour : Nat
  minute : Nat
  second : Nat
  deriving DecidableEq, Repr

namespace Clock

def midnight : Clock := ⟨0, 0, 0⟩

/-- The time of day is one before `24:00:00`. -/
structure Exists (clock : Clock) : Prop where
  hour_lt : clock.hour < 24
  minute_lt : clock.minute < 60
  second_lt : clock.second < 60

def seconds (clock : Clock) : Nat := 3600 * clock.hour + 60 * clock.minute + clock.second

theorem Exists.seconds_lt {clock : Clock} (isTime : clock.Exists) : clock.seconds < 86400 := by
  obtain ⟨hour_lt, minute_lt, second_lt⟩ := isTime
  rw [seconds]
  omega

end Clock

variable {chronology : Chronology} {ahead : Int} {date : Calendar.Date} {clock : Clock}
  {moment : chronology.Moment}

/-- Where local time is so many seconds ahead of UTC, it is this time of day at the moment. -/
inductive IsAt (chronology : Chronology) (ahead : Int) (date : Calendar.Date) (clock : Clock) :
    chronology.Moment → Prop
  | intro {offset day localTime moment} : chronology.offset? ahead = some offset →
      chronology.day? date.year date.month date.day = some day →
      chronology.clock? day clock.hour clock.minute clock.second = some localTime →
      chronology.occurrence offset localTime = .once moment →
      IsAt chronology ahead date clock moment

/-- What is known of a library of the Gregorian calendar without leap seconds, for the years up to
9999 and offsets of less than a day. -/
structure IsGregorian (chronology : Chronology) : Prop where
  offset_exists : ∀ ahead, -86400 < ahead → ahead < 86400 → (chronology.offset? ahead).isSome
  day_exists : ∀ date : Calendar.Date, date.Exists → 1 ≤ date.year → date.year ≤ 9999 →
    (chronology.day? date.year date.month date.day).isSome
  clock_exists : ∀ day (clock : Clock), clock.Exists →
    (chronology.clock? day clock.hour clock.minute clock.second).isSome
  occurs_once : ∀ (date : Calendar.Date) (clock : Clock) offset day localTime, date.year ≤ 9999 →
    chronology.day? date.year date.month date.day = some day →
    chronology.clock? day clock.hour clock.minute clock.second = some localTime →
    ∃ moment, chronology.occurrence offset localTime = .once moment
  /-- A moment shows the date, the time of day and the offset that it was made of. -/
  shows : ∀ {ahead date clock moment}, IsAt chronology ahead date clock moment →
    (chronology.year moment = date.year ∧ chronology.month moment = date.month ∧
      chronology.day moment = date.day) ∧
    (chronology.hour moment = clock.hour ∧ chronology.minute moment = clock.minute ∧
      chronology.second moment = clock.second) ∧ chronology.ahead moment = ahead
  timestamp_epoch : ∀ {moment}, IsAt chronology 0 .epoch .midnight moment →
    chronology.timestamp moment = 0
  /-- Each day in UTC has 86400 seconds. -/
  timestamp_next : ∀ {date moment after}, IsAt chronology 0 date .midnight moment →
    IsAt chronology 0 date.next .midnight after →
    chronology.timestamp after = chronology.timestamp moment + 86400
  /-- Each hour has 3600 seconds and each minute 60. -/
  timestamp_clock : ∀ {date clock start moment}, IsAt chronology 0 date .midnight start →
    IsAt chronology 0 date clock moment →
    chronology.timestamp moment = chronology.timestamp start + clock.seconds
  /-- Where local time is ahead, it is as late at an earlier moment. -/
  timestamp_ahead : ∀ {ahead date clock inUtc moment}, IsAt chronology 0 date clock inUtc →
    IsAt chronology ahead date clock moment →
    chronology.timestamp moment = chronology.timestamp inUtc - ahead

namespace IsGregorian

theorem exists_isAt (gregorian : chronology.IsGregorian) (ahead : Int) (low : -86400 < ahead)
    (high : ahead < 86400) (isDate : date.Exists) (positive : 1 ≤ date.year)
    (within : date.year ≤ 9999) (isTime : clock.Exists) :
    ∃ moment, IsAt chronology ahead date clock moment := by
  obtain ⟨offset, offset_eq⟩ := Option.isSome_iff_exists.mp (gregorian.offset_exists ahead low high)
  obtain ⟨day, day_eq⟩ := Option.isSome_iff_exists.mp
    (gregorian.day_exists date isDate positive within)
  obtain ⟨localTime, clock_eq⟩ := Option.isSome_iff_exists.mp
    (gregorian.clock_exists day clock isTime)
  obtain ⟨moment, once⟩ :=
    gregorian.occurs_once date clock offset day localTime within day_eq clock_eq
  exact ⟨moment, .intro offset_eq day_eq clock_eq once⟩

theorem exists_midnight (gregorian : chronology.IsGregorian) (isDate : date.Exists)
    (positive : 1 ≤ date.year) (within : date.year ≤ 9999) :
    ∃ moment, IsAt chronology 0 date .midnight moment :=
  gregorian.exists_isAt 0 (by decide) (by decide) isDate positive within
    ⟨by decide, by decide, by decide⟩

/-- Days begin 86400 seconds apart, so their timestamps are known from that of the epoch. -/
theorem timestamp_midnight (gregorian : chronology.IsGregorian) (isDate : date.Exists)
    (positive : 1 ≤ date.year) (within : date.year ≤ 9999)
    (isAt : IsAt chronology 0 date .midnight moment) :
    chronology.timestamp moment = 86400 * date.number := by
  have kept : Calendar.Date.IsKept 9999 fun date => ∀ moment,
      IsAt chronology 0 date .midnight moment →
        chronology.timestamp moment = 86400 * date.number := by
    intro date isDate positive withinNext
    have later : date.year ≤ date.next.year := Calendar.Date.year_le_next isDate
    have number_next := Calendar.Date.number_next isDate positive
    obtain ⟨before, isBefore⟩ := gregorian.exists_midnight isDate positive (later.trans withinNext)
    obtain ⟨after, isAfter⟩ := gregorian.exists_midnight (Calendar.Date.exists_next isDate)
      (positive.trans later) withinNext
    constructor
    · intro known other isOther
      have grows := gregorian.timestamp_next isBefore isOther
      rw [known before isBefore] at grows
      omega
    · intro known other isOther
      have grows := gregorian.timestamp_next isOther isAfter
      rw [known after isAfter] at grows
      omega
  have first : ∀ moment, IsAt chronology 0 .epoch .midnight moment →
      chronology.timestamp moment = 86400 * Calendar.Date.epoch.number := by
    intro moment isAt
    rw [gregorian.timestamp_epoch isAt, Calendar.Date.number_epoch]
    rfl
  exact kept.holds (by decide) first isDate positive within moment isAt

theorem timestamp_eq (gregorian : chronology.IsGregorian) (isDate : date.Exists)
    (positive : 1 ≤ date.year) (within : date.year ≤ 9999) (isTime : clock.Exists)
    (isAt : IsAt chronology ahead date clock moment) :
    chronology.timestamp moment = 86400 * date.number + clock.seconds - ahead := by
  obtain ⟨start, isStart⟩ := gregorian.exists_midnight isDate positive within
  obtain ⟨inUtc, isInUtc⟩ := gregorian.exists_isAt 0 (by decide) (by decide) isDate positive
    within isTime
  rw [gregorian.timestamp_ahead isInUtc isAt, gregorian.timestamp_clock isStart isInUtc,
    gregorian.timestamp_midnight isDate positive within isStart]

end IsGregorian

/-- A library whose days are those of the calendar, and whose moments are what they show. -/
def reference : Chronology where
  Offset := Int
  Day := Calendar.Date
  Local := Calendar.Date × Clock
  Moment := Int × Calendar.Date × Clock
  offset? ahead := if -86400 < ahead ∧ ahead < 86400 then some ahead else none
  day? year month day :=
    let date : Calendar.Date := ⟨year.toNat, month, day⟩
    if date.Exists ∧ 1 ≤ year ∧ year ≤ 9999 then some date else none
  clock? day hour minute second :=
    if hour < 24 ∧ minute < 60 ∧ second < 60 then some (day, ⟨hour, minute, second⟩) else none
  occurrence offset localTime := .once (offset, localTime)
  year moment := moment.2.1.year
  month moment := moment.2.1.month
  day moment := moment.2.1.day
  hour moment := moment.2.2.hour
  minute moment := moment.2.2.minute
  second moment := moment.2.2.second
  ahead moment := moment.1
  timestamp moment := 86400 * moment.2.1.number + moment.2.2.seconds - moment.1

theorem eq_of_isAt_reference {moment : reference.Moment}
    (isAt : IsAt reference ahead date clock moment) :
    moment = (ahead, date, clock) ∧ date.Exists ∧ 1 ≤ date.year := by
  obtain ⟨offset_eq, day_eq, clock_eq, once⟩ := isAt
  obtain ⟨-, offset_eq⟩ := Option.ite_none_right_eq_some.mp offset_eq
  obtain ⟨⟨isDate, positive, -⟩, day_eq⟩ := Option.ite_none_right_eq_some.mp day_eq
  obtain ⟨-, clock_eq⟩ := Option.ite_none_right_eq_some.mp clock_eq
  cases offset_eq
  cases day_eq
  cases clock_eq
  cases once
  exact ⟨rfl, isDate, by omega⟩

theorem reference_isGregorian : reference.IsGregorian where
  offset_exists ahead low high := by
    rw [show reference.offset? ahead = some ahead from if_pos ⟨low, high⟩]
    rfl
  day_exists date isDate positive within := by
    have exists_day : date.Exists ∧ (1 : Int) ≤ date.year ∧ (date.year : Int) ≤ 9999 :=
      ⟨isDate, by omega, by omega⟩
    rw [show reference.day? date.year date.month date.day = some date from if_pos exists_day]
    rfl
  clock_exists day clock isTime := by
    obtain ⟨hour_lt, minute_lt, second_lt⟩ := isTime
    rw [show reference.clock? day clock.hour clock.minute clock.second = some (day, clock) from
      if_pos ⟨hour_lt, minute_lt, second_lt⟩]
    rfl
  occurs_once date clock offset day localTime within day_eq clock_eq := ⟨_, rfl⟩
  shows isAt := by
    obtain ⟨rfl, -⟩ := eq_of_isAt_reference isAt
    exact ⟨⟨rfl, rfl, rfl⟩, ⟨rfl, rfl, rfl⟩, rfl⟩
  timestamp_epoch isAt := by
    obtain ⟨rfl, -⟩ := eq_of_isAt_reference isAt
    decide
  timestamp_next {date _ _} isAt isAfter := by
    obtain ⟨rfl, isDate, positive⟩ := eq_of_isAt_reference isAt
    obtain ⟨rfl, -⟩ := eq_of_isAt_reference isAfter
    have number_next := Calendar.Date.number_next isDate positive
    change 86400 * date.next.number + (0 : Nat) - 0 = 86400 * date.number + (0 : Nat) - 0 + 86400
    omega
  timestamp_clock {date clock _ _} isStart isAt := by
    obtain ⟨rfl, -⟩ := eq_of_isAt_reference isStart
    obtain ⟨rfl, -⟩ := eq_of_isAt_reference isAt
    change 86400 * date.number + clock.seconds - 0 =
      86400 * date.number + (0 : Nat) - 0 + clock.seconds
    omega
  timestamp_ahead {ahead date clock _ _} isInUtc isAt := by
    obtain ⟨rfl, -⟩ := eq_of_isAt_reference isInUtc
    obtain ⟨rfl, -⟩ := eq_of_isAt_reference isAt
    change 86400 * date.number + clock.seconds - ahead =
      86400 * date.number + clock.seconds - 0 - ahead
    omega

end Chronology

namespace UtcTime

open Chronology

def clock (time : UtcTime) : Clock := ⟨time.hour, time.minute, time.second⟩

/-- Date and time of day, from the largest unit to the smallest. -/
def fields (time : UtcTime) : List Nat :=
  [time.year, time.month, time.day, time.hour, time.minute, time.second]

variable {time other : UtcTime} {chronology : Chronology}

theorem IsValid.clock_exists (isValid : time.IsValid) : time.clock.Exists :=
  ⟨isValid.hour_lt, isValid.minute_lt, isValid.second_lt⟩

/-- A valid time has a moment, at which its clock shows it. -/
theorem exists_moment (gregorian : chronology.IsGregorian) (isValid : time.IsValid) :
    ∃ moment, moment? chronology time = some moment ∧
      IsAt chronology (time.offset * 60) time.date time.clock moment := by
  obtain ⟨low, high⟩ := isValid.century
  have offset_lt := isValid.offset_lt
  obtain ⟨moment, isAt⟩ := gregorian.exists_isAt (time.offset * 60) (by omega) (by omega)
    isValid.date_exists (Nat.le_trans (by decide) low) (Nat.le_trans high (by decide))
    isValid.clock_exists
  refine ⟨moment, ?_, isAt⟩
  obtain ⟨offset_eq, day_eq, clock_eq, once⟩ := isAt
  simp only [date, clock] at day_eq clock_eq
  simp only [moment?, offset_eq, day_eq, clock_eq, once, Option.bind_eq_bind, Option.bind_some]
  rfl

theorem isAt_of_moment? (gregorian : chronology.IsGregorian) (isValid : time.IsValid)
    {moment : chronology.Moment} (found : moment? chronology time = some moment) :
    IsAt chronology (time.offset * 60) time.date time.clock moment := by
  obtain ⟨other, otherFound, isAt⟩ := exists_moment gregorian isValid
  rw [found] at otherFound
  exact Option.some_inj.mp otherFound ▸ isAt

theorem timestamp_eq_number (time : UtcTime) :
    time.timestamp = 86400 * time.date.number + time.clock.seconds - time.offset * 60 := by
  have seconds_eq : (time.clock.seconds : Int) =
      3600 * time.hour + 60 * time.minute + time.second := by
    change ((3600 * time.hour + 60 * time.minute + time.second : Nat) : Int) = _
    omega
  have timestamp_eq : time.timestamp = 86400 * time.date.number + 3600 * time.hour +
      60 * time.minute + time.second - 60 * time.offset := rfl
  rw [timestamp_eq, seconds_eq]
  omega

theorem timestamp_moment (gregorian : chronology.IsGregorian) (isValid : time.IsValid)
    {moment : chronology.Moment}
    (isAt : IsAt chronology (time.offset * 60) time.date time.clock moment) :
    chronology.timestamp moment = time.timestamp := by
  obtain ⟨low, high⟩ := isValid.century
  rw [timestamp_eq_number, gregorian.timestamp_eq isValid.date_exists
    (Nat.le_trans (by decide) low) (Nat.le_trans high (by decide)) isValid.clock_exists isAt]

/-- The order of dates and times of day, from the largest unit to the smallest. -/
theorem fields_lt_iff :
    time.fields < other.fields ↔
      time.date.Precedes other.date ∨
        time.date = other.date ∧ (time.hour < other.hour ∨ time.hour = other.hour ∧
          (time.minute < other.minute ∨ time.minute = other.minute ∧
            time.second < other.second)) := by
  simp only [fields, List.cons_lt_cons_iff, List.not_lt_nil, and_false, or_false, date,
    Calendar.Date.Precedes, Calendar.Date.mk.injEq, and_or_left, or_assoc, and_assoc]

theorem timestamp_lt (isValid : time.IsValid) (isOther : other.IsValid)
    (sameOffset : time.offset = other.offset) (earlier : time.fields < other.fields) :
    time.timestamp < other.timestamp := by
  have time_lt := isValid.clock_exists.seconds_lt
  rw [timestamp_eq_number, timestamp_eq_number, sameOffset]
  rcases fields_lt_iff.mp earlier with earlierDay | ⟨sameDay, earlierTime⟩
  · have positive : 1 ≤ time.year := Nat.le_trans (by decide) isValid.century.1
    have day_lt := earlierDay.number_lt isValid.date_exists isOther.date_exists positive
    omega
  · obtain ⟨-, minute_lt, second_lt⟩ := isValid.clock_exists
    have seconds_lt : time.clock.seconds < other.clock.seconds := by
      simp only [Clock.seconds, clock] at minute_lt second_lt ⊢
      omega
    rw [sameDay]
    omega

theorem timestamp_congr (sameOffset : time.offset = other.offset)
    (same : time.fields = other.fields) : time.timestamp = other.timestamp := by
  simp only [fields, List.cons.injEq, and_true] at same
  obtain ⟨year_eq, month_eq, day_eq, hour_eq, minute_eq, second_eq⟩ := same
  rw [timestamp, timestamp, year_eq, month_eq, day_eq, hour_eq, minute_eq, second_eq, sameOffset]

/-- Timestamps have the order of dates and times of day, since these can always be compared. -/
theorem timestamp_order (isValid : time.IsValid) (isOther : other.IsValid)
    (sameOffset : time.offset = other.offset) :
    (time.timestamp < other.timestamp ↔ time.fields < other.fields) ∧
      (time.timestamp = other.timestamp ↔ time.fields = other.fields) := by
  rcases lt_trichotomy time.fields other.fields with earlier | same | later
  · have order := timestamp_lt isValid isOther sameOffset earlier
    exact ⟨iff_of_true order earlier, iff_of_false order.ne earlier.ne⟩
  · have order := timestamp_congr sameOffset same
    exact ⟨iff_of_false order.not_lt same.not_lt, iff_of_true order same⟩
  · have order := timestamp_lt isOther isValid sameOffset.symm later
    exact ⟨iff_of_false order.not_gt later.not_gt, iff_of_false order.ne' later.ne'⟩

/-- Each time that is read is a moment, which shows the fields of the time. Timestamps count days by
a number that is zero for the first day of 1970 and grows by one from each day to the next, and so
have the order of dates and times of day. -/
theorem moment?_exact (chronology : Chronology) (gregorian : chronology.IsGregorian) :
    (∀ mode octets time, ofOctets? mode octets = some time →
      ∃ moment, moment? chronology time = some moment ∧
        (chronology.year moment = time.year ∧ chronology.month moment = time.month ∧
          chronology.day moment = time.day) ∧
        (chronology.hour moment = time.hour ∧ chronology.minute moment = time.minute ∧
          chronology.second moment = time.second) ∧
        chronology.ahead moment = 60 * time.offset ∧
        chronology.timestamp moment = 86400 * time.date.number + 3600 * time.hour +
          60 * time.minute + time.second - 60 * time.offset) ∧
    (Calendar.Date.epoch.number = 0 ∧
      (∀ date : Calendar.Date, date.Exists → 1 ≤ date.year →
        date.next.number = date.number + 1) ∧
      ∀ year month day, Calendar.Date.Exists ⟨year, month, day⟩ ↔
        (1 ≤ month ∧ month ≤ 12) ∧ 1 ≤ day ∧ day ≤ Calendar.lastDay year month) ∧
    ∀ mode octets time moment otherMode otherOctets other otherMoment,
      ofOctets? mode octets = some time → moment? chronology time = some moment →
      ofOctets? otherMode otherOctets = some other →
      moment? chronology other = some otherMoment → time.offset = other.offset →
        (chronology.timestamp moment < chronology.timestamp otherMoment ↔
          time.fields < other.fields) ∧
        (chronology.timestamp moment = chronology.timestamp otherMoment ↔
          time.fields = other.fields) := by
  refine ⟨?instant, ⟨Calendar.Date.number_epoch, ?_, ?_⟩, ?order⟩
  case instant =>
    intro mode octets time read
    have isValid := isValid_of_ofOctets? read
    obtain ⟨moment, found, isAt⟩ := exists_moment gregorian isValid
    obtain ⟨sameDate, sameClock, ahead_eq⟩ := gregorian.shows isAt
    exact ⟨moment, found, sameDate, sameClock, ahead_eq.trans (Int.mul_comm _ _),
      timestamp_moment gregorian isValid isAt⟩
  · exact fun date isDate positive => Calendar.Date.number_next isDate positive
  · exact fun year month day => Calendar.Date.exists_iff
  case order =>
    intro mode octets time moment otherMode otherOctets other otherMoment read found otherRead
      otherFound sameOffset
    have isValid := isValid_of_ofOctets? read
    have isOther := isValid_of_ofOctets? otherRead
    rw [timestamp_moment gregorian isValid (isAt_of_moment? gregorian isValid found),
      timestamp_moment gregorian isOther (isAt_of_moment? gregorian isOther otherFound)]
    exact timestamp_order isValid isOther sameOffset

/-- The octets `9502080400+0100` and `950208040001+0100` are a second apart. -/
theorem moment?_exact_february :
    ∃ moment later, moment? reference ⟨1995, 2, 8, 4, 0, none, some 60⟩ = some moment ∧
      moment? reference ⟨1995, 2, 8, 4, 0, some 1, some 60⟩ = some later ∧
      reference.timestamp moment = 792212400 ∧
      reference.timestamp moment < reference.timestamp later := by
  obtain ⟨instants, -, order⟩ := moment?_exact reference reference_isGregorian
  have read : ofOctets? .ber (written ⟨1995, 2, 8, 4, 0, none, some 60⟩) =
      some ⟨1995, 2, 8, 4, 0, none, some 60⟩ := by decide
  have laterRead : ofOctets? .ber (written ⟨1995, 2, 8, 4, 0, some 1, some 60⟩) =
      some ⟨1995, 2, 8, 4, 0, some 1, some 60⟩ := by decide
  obtain ⟨moment, found, -, -, -, timestamp_eq⟩ := instants _ _ _ read
  obtain ⟨later, laterFound, -⟩ := instants _ _ _ laterRead
  have earlier := (order _ _ _ _ _ _ _ _ read found laterRead laterFound rfl).1.mpr (by decide)
  exact ⟨moment, later, found, laterFound, timestamp_eq.trans (by decide), earlier⟩

end UtcTime

end Asn1
