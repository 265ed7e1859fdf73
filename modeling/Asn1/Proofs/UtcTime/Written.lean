import Asn1.Proofs.Calendar
import Asn1.Proofs.UtcTime
import Mathlib.Data.List.TakeWhile

/-!
# UTC times written back

The octets that basic rules read are those a valid time writes, where `-0000` may stand for the
`+0000` of an offset of zero.
-/

namespace Asn1.UtcTime

section Numbers

variable {octet : UInt8} {octets : Octets} {number : Nat} {numbers : List Nat}

def digit (number : Nat) : UInt8 := UInt8.ofNat (48 + number)

def pair (number : Nat) : Octets := [digit (number / 10), digit (number % 10)]

theorem toNat_digit (small : number < 10) : (digit number).toNat = 48 + number := by
  rw [digit, UInt8.toNat_ofNat']
  omega

theorem digit?_eq_some_iff : digit? octet = some number ↔ number < 10 ∧ octet = digit number := by
  rw [digit?, Option.ite_none_right_eq_some, Option.some_inj]
  constructor
  · rintro ⟨⟨low, high⟩, rfl⟩
    have small : octet.toNat - 48 < 10 := by omega
    refine ⟨small, UInt8.toNat_inj.mp ?_⟩
    rw [toNat_digit small]
    omega
  · rintro ⟨small, rfl⟩
    rw [toNat_digit small]
    omega

theorem pair_add {tens units : Nat} (small : units < 10) :
    pair (tens * 10 + units) = [digit tens, digit units] := by
  have front : (tens * 10 + units) / 10 = tens := by omega
  have last : (tens * 10 + units) % 10 = units := by omega
  rw [pair, front, last]

/-- The octets that are read as numbers are those of numbers below a hundred. -/
theorem pairs?_eq_some_iff :
    pairs? octets = some numbers ↔
      (∀ number ∈ numbers, number < 100) ∧ octets = numbers.flatMap pair := by
  fun_induction pairs? octets generalizing numbers with
  | case1 =>
      rw [Option.some_inj]
      constructor
      · rintro rfl
        exact ⟨fun _ membership => absurd membership List.not_mem_nil, rfl⟩
      · rintro ⟨-, written⟩
        cases numbers with
        | nil => rfl
        | cons number numbers => cases written
  | case2 tens units rest inductionHypothesis =>
      simp only [Option.bind_eq_bind, Option.bind_eq_some_iff, digit?_eq_some_iff,
        inductionHypothesis, Option.pure_def, Option.some_inj]
      constructor
      · rintro ⟨ten, ⟨smallTen, rfl⟩, unit, ⟨smallUnit, rfl⟩, others, ⟨each, rfl⟩, rfl⟩
        refine ⟨List.forall_mem_cons.mpr ⟨by omega, each⟩, ?_⟩
        rw [List.flatMap_cons, pair_add smallUnit]
        rfl
      · rintro ⟨each, written⟩
        cases numbers with
        | nil => cases written
        | cons number numbers =>
            obtain ⟨small, each⟩ := List.forall_mem_cons.mp each
            cases written
            exact ⟨number / 10, ⟨by omega, rfl⟩, number % 10, ⟨by omega, rfl⟩, numbers,
              ⟨each, rfl⟩, by rw [Nat.div_add_mod']⟩
  | case3 octets notNil notCons =>
      refine iff_of_false (Option.some_ne_none _).symm ?_
      rintro ⟨-, rfl⟩
      cases numbers with
      | nil => exact notNil rfl
      | cons number numbers => exact notCons _ _ _ rfl

theorem not_startsZone_of_digit? (isDigit : (digit? octet).isSome) : startsZone octet = false := by
  obtain ⟨number, read⟩ := Option.isSome_iff_exists.mp isDigit
  obtain ⟨small, rfl⟩ := digit?_eq_some_iff.mp read
  have all : ∀ number : Fin 10, startsZone (digit number) = false := by decide
  exact all ⟨number, small⟩

end Numbers

section Zones

variable {mark : UInt8} {digits : Octets} {offset? : Option Int}

/-- `Z`, or the sign, hours and minutes of an offset. -/
def zoneOctets : Option Int → Octets
  | none => [0x5a]
  | some offset =>
      (if offset < 0 then 0x2d else 0x2b) ::
        [offset.natAbs / 60, offset.natAbs % 60].flatMap pair

def plusZero : Octets := [0x2b, 0x30, 0x30, 0x30, 0x30]

def minusZero : Octets := [0x2d, 0x30, 0x30, 0x30, 0x30]

theorem startsZone_iff : startsZone mark = true ↔ mark = 0x5a ∨ mark = 0x2b ∨ mark = 0x2d := by
  rw [startsZone, decide_eq_true_iff, List.mem_cons, List.mem_cons, List.mem_singleton]
  simp only [← UInt8.toNat_inj]
  exact Iff.rfl

theorem startsZone_zoneOctets (offset? : Option Int) :
    ∃ mark digits, startsZone mark = true ∧ zoneOctets offset? = mark :: digits := by
  cases offset? with
  | none => exact ⟨_, _, by decide, rfl⟩
  | some offset =>
      refine ⟨_, _, ?_, rfl⟩
      split <;> decide

theorem zone?_ber_sign (isSign : mark ≠ 0x5a) :
    zone? .ber (mark :: digits) =
      match pairs? digits with
      | some [hours, minutes] =>
          if hours < 24 ∧ minutes < 60 then
            some (some (if mark = 0x2d then -(hours * 60 + minutes : Int)
              else hours * 60 + minutes))
          else none
      | _ => none := by
  have minus_iff : mark.toNat = '-'.toNat ↔ mark = 0x2d := by
    rw [← UInt8.toNat_inj]
    exact Iff.rfl
  simp only [zone?, toNat_eq_Z_iff, if_neg isSign, minus_iff]
  rcases pairs? digits with - | - | ⟨hours, - | ⟨minutes, - | ⟨further, rest⟩⟩⟩ <;> rfl

theorem pairs?_two {hours minutes : Nat} (hoursBelow : hours < 100) (minutesBelow : minutes < 100) :
    pairs? ([hours, minutes].flatMap pair) = some [hours, minutes] := by
  refine pairs?_eq_some_iff.mpr ⟨?_, rfl⟩
  simp only [List.forall_mem_cons]
  exact ⟨hoursBelow, minutesBelow, fun _ membership => absurd membership List.not_mem_nil⟩

/-- After a sign there are hours and minutes. -/
theorem zone?_ber_sign_iff (isSign : mark ≠ 0x5a) :
    zone? .ber (mark :: digits) = some offset? ↔
      ∃ hours < 24, ∃ minutes < 60, digits = [hours, minutes].flatMap pair ∧
        offset? = some (if mark = 0x2d then -(hours * 60 + minutes : Int)
          else hours * 60 + minutes) := by
  rw [zone?_ber_sign isSign]
  constructor
  · intro read
    split at read
    · next hours minutes digitsRead =>
        obtain ⟨⟨hoursBelow, minutesBelow⟩, offsetRead⟩ := Option.ite_none_right_eq_some.mp read
        exact ⟨hours, hoursBelow, minutes, minutesBelow, (pairs?_eq_some_iff.mp digitsRead).2,
          (Option.some_inj.mp offsetRead).symm⟩
    · cases read
  · rintro ⟨hours, hoursBelow, minutes, minutesBelow, rfl, rfl⟩
    rw [pairs?_two (by omega) (by omega)]
    exact if_pos ⟨hoursBelow, minutesBelow⟩

theorem zoneOctets_some {offset : Int} (hours : Nat) {minutes : Nat} (minutesBelow : minutes < 60)
    (parts : offset.natAbs = hours * 60 + minutes) :
    zoneOctets (some offset) =
      (if offset < 0 then 0x2d else 0x2b) :: [hours, minutes].flatMap pair := by
  have front : offset.natAbs / 60 = hours := by omega
  have last : offset.natAbs % 60 = minutes := by omega
  rw [zoneOctets, front, last]

theorem zone?_ber_literal_iff :
    zone? .ber (0x5a :: digits) = some offset? ↔ digits = [] ∧ offset? = none := by
  rw [show zone? .ber (0x5a :: digits) = if digits = [] then some none else none from rfl,
    Option.ite_none_right_eq_some, Option.some_inj, eq_comm (a := offset?)]

/-- An offset writes the sign, hours and minutes that it was read of, unless it is zero. -/
theorem eq_zoneOctets_or_minusZero {hours minutes : Nat} {offset : Int}
    (isSign : mark = 0x2b ∨ mark = 0x2d) (minutesBelow : minutes < 60)
    (offset_eq : offset = if mark = 0x2d then -(hours * 60 + minutes : Int)
      else hours * 60 + minutes) :
    mark :: [hours, minutes].flatMap pair = zoneOctets (some offset) ∨
      some offset = some 0 ∧ mark :: [hours, minutes].flatMap pair = minusZero := by
  rcases isSign with rfl | rfl
  · rw [if_neg (by decide)] at offset_eq
    rw [zoneOctets_some hours minutesBelow (by omega), if_neg (by omega)]
    exact .inl rfl
  · rw [if_pos rfl] at offset_eq
    rcases Nat.eq_zero_or_pos (hours * 60 + minutes) with zero | positive
    · obtain ⟨rfl, rfl⟩ : hours = 0 ∧ minutes = 0 := by omega
      exact .inr ⟨congrArg some offset_eq, rfl⟩
    · rw [zoneOctets_some hours minutesBelow (by omega), if_pos (by omega)]
      exact .inl rfl

theorem exists_of_eq_zoneOctets {offset : Int} (below : offset.natAbs < 1440)
    (written : mark :: digits = zoneOctets (some offset)) :
    ∃ hours < 24, ∃ minutes < 60, digits = [hours, minutes].flatMap pair ∧
      some offset = some (if mark = 0x2d then -(hours * 60 + minutes : Int)
        else hours * 60 + minutes) := by
  obtain ⟨mark_eq, digits_eq⟩ := List.cons.inj written
  refine ⟨offset.natAbs / 60, by omega, offset.natAbs % 60, by omega, digits_eq, ?_⟩
  rw [Option.some_inj, mark_eq]
  by_cases negative : offset < 0
  · rw [if_pos negative, if_pos rfl]
    omega
  · rw [if_neg negative, if_neg (by decide)]
    omega

/-- Only an offset of zero is read of two different octet strings. -/
theorem zone?_ber_iff (isMark : startsZone mark = true) :
    zone? .ber (mark :: digits) = some offset? ↔
      (offset?.getD 0).natAbs < 1440 ∧
        (mark :: digits = zoneOctets offset? ∨
          offset? = some 0 ∧ mark :: digits = minusZero) := by
  by_cases isLiteral : mark = 0x5a
  · subst isLiteral
    rw [zone?_ber_literal_iff]
    constructor
    · rintro ⟨rfl, rfl⟩
      exact ⟨by decide, .inl rfl⟩
    · rintro ⟨-, written | ⟨-, written⟩⟩
      · cases offset? with
        | none => exact ⟨(List.cons.inj written).2, rfl⟩
        | some offset =>
            have mark_eq := (List.cons.inj written).1
            split at mark_eq <;> exact absurd mark_eq (by decide)
      · exact absurd (List.cons.inj written).1 (by decide)
  · rw [zone?_ber_sign_iff isLiteral]
    constructor
    · rintro ⟨hours, hoursBelow, minutes, minutesBelow, rfl, rfl⟩
      have isSign := (startsZone_iff.mp isMark).resolve_left isLiteral
      refine ⟨?_, eq_zoneOctets_or_minusZero isSign minutesBelow rfl⟩
      rw [Option.getD_some]
      split <;> omega
    · rintro ⟨below, written | ⟨rfl, written⟩⟩
      · cases offset? with
        | none => exact absurd (List.cons.inj written).1 isLiteral
        | some offset => exact exists_of_eq_zoneOctets below written
      · obtain ⟨rfl, rfl⟩ := List.cons.inj written
        exact ⟨0, by decide, 0, by decide, rfl, rfl⟩

end Zones

def numbers (time : UtcTime) : List Nat :=
  [time.year % 100, time.month, time.day, time.hour, time.minute] ++ time.second?.toList

def written (time : UtcTime) : Octets := time.numbers.flatMap pair ++ zoneOctets time.offset?

def date (time : UtcTime) : Calendar.Date := ⟨time.year, time.month, time.day⟩

/-- A day of the calendar in the years that two digits stand for, a time of day without leap
seconds, and an offset of less than a day. -/
structure IsValid (time : UtcTime) : Prop where
  century : 1950 ≤ time.year ∧ time.year ≤ 2049
  date_exists : time.date.Exists
  hour_lt : time.hour < 24
  minute_lt : time.minute < 60
  second_lt : time.second < 60
  offset_lt : time.offset.natAbs < 1440

section Times

variable {mode : Mode} {octets front back : Octets} {time : UtcTime} {offset? : Option Int}

theorem isOnCalendar_iff :
    time.isOnCalendar = true ↔
      time.date.Exists ∧ time.hour < 24 ∧ time.minute < 60 ∧ time.second < 60 := by
  rw [isOnCalendar, decide_eq_true_iff, date, Calendar.Date.exists_iff]
  simp only [and_assoc]

theorem fullYear_mod {year : Nat} (century : 1950 ≤ year ∧ year ≤ 2049) :
    fullYear (year % 100) = year := by
  rw [fullYear]
  split <;> omega

theorem fullYear_century {short : Nat} (small : short < 100) :
    (1950 ≤ fullYear short ∧ fullYear short ≤ 2049) ∧ fullYear short % 100 = short := by
  rw [fullYear]
  split <;> omega

theorem fields?_ber_iff {numbers : List Nat} (each : ∀ number ∈ numbers, number < 100) :
    fields? .ber numbers offset? = some time ↔
      (1950 ≤ time.year ∧ time.year ≤ 2049) ∧ numbers = time.numbers ∧ offset? = time.offset? := by
  constructor
  · intro read
    match numbers with
    | [] | [_] | [_, _] | [_, _, _] | [_, _, _, _] | _ :: _ :: _ :: _ :: _ :: _ :: _ :: _ =>
        cases read
    | [short, month, day, hour, minute] | [short, month, day, hour, minute, second] =>
        obtain ⟨century, short_eq⟩ := fullYear_century (each short List.mem_cons_self)
        cases read
        exact ⟨century, by simp only [UtcTime.numbers, short_eq]; rfl, rfl⟩
  · rintro ⟨century, rfl, rfl⟩
    obtain ⟨year, month, day, hour, minute, second?, offset?⟩ := time
    have year_eq : fullYear (year % 100) = year := fullYear_mod century
    cases second? <;> simp only [UtcTime.numbers, fields?, Option.toList, List.cons_append,
      List.nil_append, List.append_nil, year_eq]

theorem IsValid.number_lt (isValid : time.IsValid) : ∀ number ∈ time.numbers, number < 100 := by
  have month_le : time.month ≤ 12 := isValid.date_exists.bounds.1.2
  have day_le : time.day ≤ 31 := isValid.date_exists.day_le
  have second_lt : ∀ second ∈ time.second?, second < 100 := by
    intro second given
    exact Nat.lt_trans (by simpa [UtcTime.second, Option.mem_def.mp given] using isValid.second_lt)
      (by decide)
  simp only [numbers, List.cons_append, List.nil_append, List.forall_mem_cons, Option.mem_toList]
  exact ⟨Nat.mod_lt _ (by decide), by omega, by omega, Nat.lt_trans isValid.hour_lt (by decide),
    Nat.lt_trans isValid.minute_lt (by decide), second_lt⟩

/-- Octets split at the first one that can start a zone. -/
theorem mark_cases (octets : Octets) :
    (∀ octet ∈ octets, startsZone octet = false) ∨
      ∃ front mark digits, (∀ octet ∈ front, startsZone octet = false) ∧
        startsZone mark = true ∧ octets = front ++ mark :: digits := by
  induction octets with
  | nil => exact .inl fun _ membership => absurd membership List.not_mem_nil
  | cons octet octets inductionHypothesis =>
      cases starts : startsZone octet with
      | true =>
          exact .inr ⟨[], octet, octets, fun _ membership => absurd membership List.not_mem_nil,
            starts, rfl⟩
      | false =>
          rcases inductionHypothesis with noMark | ⟨front, mark, digits, noMark, isMark, rfl⟩
          · exact .inl (List.forall_mem_cons.mpr ⟨starts, noMark⟩)
          · exact .inr ⟨octet :: front, mark, digits, List.forall_mem_cons.mpr ⟨starts, noMark⟩,
              isMark, rfl⟩

theorem ofOctets?_of_noMark (noMark : ∀ octet ∈ octets, startsZone octet = false) :
    ofOctets? mode octets = none := by
  have empty : octets.dropWhile (fun octet => !startsZone octet) = [] :=
    List.dropWhile_eq_nil_iff.mpr fun octet membership => by rw [noMark octet membership]; rfl
  simp [ofOctets?, empty, zone?]

theorem ofOctets?_append {mark : UInt8} {digits : Octets}
    (noMark : ∀ octet ∈ front, startsZone octet = false) (isMark : startsZone mark = true) :
    ofOctets? mode (front ++ mark :: digits) = (do
      let numbers ← pairs? front
      let offset? ← zone? mode (mark :: digits)
      let time ← fields? mode numbers offset?
      if time.isOnCalendar then some time else none) := by
  have passed : ∀ octet ∈ front, (!startsZone octet) = true :=
    fun octet membership => by rw [noMark octet membership]; rfl
  have stopped : (mark :: digits).takeWhile (fun octet => !startsZone octet) = [] ∧
      (mark :: digits).dropWhile (fun octet => !startsZone octet) = mark :: digits := by
    simp [isMark]
  rw [ofOctets?, List.takeWhile_append_of_pos passed, List.dropWhile_append_of_pos passed,
    stopped.1, stopped.2, List.append_nil]

/-- What basic rules read before a zone and of it. -/
theorem ofOctets?_ber_append_iff {mark : UInt8} {digits : Octets}
    (noMark : ∀ octet ∈ front, startsZone octet = false) (isMark : startsZone mark = true) :
    ofOctets? .ber (front ++ mark :: digits) = some time ↔
      time.IsValid ∧ front = time.numbers.flatMap pair ∧
        (mark :: digits = zoneOctets time.offset? ∨
          time.offset? = some 0 ∧ mark :: digits = minusZero) := by
  simp only [ofOctets?_append noMark isMark, Option.bind_eq_bind, Option.bind_eq_some_iff,
    Option.ite_none_right_eq_some, Option.some_inj, pairs?_eq_some_iff, zone?_ber_iff isMark]
  constructor
  · rintro ⟨numbers, ⟨each, rfl⟩, offset?, ⟨offsetBelow, zone⟩, time, fieldsRead, onCalendar, rfl⟩
    obtain ⟨century, rfl, rfl⟩ := (fields?_ber_iff each).mp fieldsRead
    obtain ⟨isDate, hourBelow, minuteBelow, secondBelow⟩ := isOnCalendar_iff.mp onCalendar
    exact ⟨⟨century, isDate, hourBelow, minuteBelow, secondBelow, offsetBelow⟩, rfl, zone⟩
  · rintro ⟨isValid, rfl, zone⟩
    have onCalendar : time.isOnCalendar = true := isOnCalendar_iff.mpr
      ⟨isValid.date_exists, isValid.hour_lt, isValid.minute_lt, isValid.second_lt⟩
    exact ⟨_, ⟨isValid.number_lt, rfl⟩, _, ⟨isValid.offset_lt, zone⟩, _,
      (fields?_ber_iff isValid.number_lt).mpr ⟨isValid.century, rfl, rfl⟩, onCalendar, rfl⟩

theorem noMark_numbers (isValid : time.IsValid) :
    ∀ octet ∈ time.numbers.flatMap pair, startsZone octet = false :=
  fun octet membership => not_startsZone_of_digit?
    (digit?_isSome_of_pairs? (pairs?_eq_some_iff.mpr ⟨isValid.number_lt, rfl⟩) octet membership)

/-- Basic rules read the octets that a valid time writes, or those with `-0000` for `+0000`. -/
theorem ofOctets?_ber_iff :
    ofOctets? .ber octets = some time ↔
      time.IsValid ∧ (octets = time.written ∨
        time.offset? = some 0 ∧ octets = time.numbers.flatMap pair ++ minusZero) := by
  constructor
  · intro read
    rcases mark_cases octets with noMark | ⟨front, mark, digits, noMark, isMark, rfl⟩
    · rw [ofOctets?_of_noMark noMark] at read
      cases read
    · obtain ⟨isValid, rfl, zone⟩ := (ofOctets?_ber_append_iff noMark isMark).mp read
      refine ⟨isValid, zone.imp ?_ ?_⟩
      · intro zone_eq
        rw [zone_eq, written]
      · rintro ⟨isZero, zone_eq⟩
        exact ⟨isZero, by rw [zone_eq]⟩
  · rintro ⟨isValid, rfl | ⟨isZero, rfl⟩⟩
    · obtain ⟨mark, digits, isMark, zone_eq⟩ := startsZone_zoneOctets time.offset?
      rw [written, zone_eq]
      exact (ofOctets?_ber_append_iff (noMark_numbers isValid) isMark).mpr
        ⟨isValid, rfl, .inl zone_eq.symm⟩
    · exact (ofOctets?_ber_append_iff (noMark_numbers isValid) (by decide)).mpr
        ⟨isValid, rfl, .inr ⟨isZero, rfl⟩⟩

theorem written_eq_append_plusZero (isValid : time.IsValid)
    (ends : time.written = front ++ plusZero) :
    time.offset? = some 0 ∧ front = time.numbers.flatMap pair := by
  cases given : time.offset? with
  | none =>
      have last : (front ++ plusZero).getLast? = some 0x5a := by
        rw [← ends, written, given, List.getLast?_append]
        rfl
      rw [List.getLast?_append] at last
      exact absurd (Option.some_inj.mp last : (0x30 : UInt8) = 0x5a) (by decide)
  | some offset =>
      rw [written, given] at ends
      obtain ⟨front_eq, zone_eq⟩ := List.append_inj' ends rfl
      have below : offset.natAbs < 1440 := by simpa [UtcTime.offset, given] using isValid.offset_lt
      have read : zone? .ber plusZero = some (some offset) :=
        (zone?_ber_iff (by decide)).mpr ⟨below, .inl zone_eq.symm⟩
      have readZero : zone? .ber plusZero = some (some 0) := by decide
      exact ⟨Option.some_inj.mp (read.symm.trans readZero), front_eq.symm⟩

theorem getLast?_written_iff : time.written.getLast? = some 0x5a ↔ time.offset? = none := by
  rw [written, List.getLast?_append]
  cases time.offset? with
  | none => exact iff_of_true rfl rfl
  | some offset =>
      refine iff_of_false ?_ (Option.some_ne_none _)
      intro last
      have octet_eq : digit (offset.natAbs % 60 % 10) = 0x5a := Option.some_inj.mp last
      have value_eq := congrArg UInt8.toNat octet_eq
      rw [toNat_digit (Nat.mod_lt _ (by decide))] at value_eq
      change _ = 90 at value_eq
      omega

theorem ofOctets?_der_written (isValid : time.IsValid) :
    ofOctets? .der time.written =
      if time.second?.isSome ∧ time.offset? = none then some time else none := by
  have read : ofOctets? .ber time.written = some time := ofOctets?_ber_iff.mpr ⟨isValid, .inl rfl⟩
  apply Option.ext
  intro other
  rw [ofOctets?_der_iff, read, getLast?_written_iff, Option.ite_none_right_eq_some, Option.some_inj]
  constructor
  · rintro ⟨rfl, distinguished⟩
    exact ⟨distinguished, rfl⟩
  · rintro ⟨distinguished, rfl⟩
    exact ⟨rfl, distinguished⟩

theorem ofOctets?_ber_of_read (read : ofOctets? mode octets = some time) :
    ofOctets? .ber octets = some time := by
  cases mode with
  | ber => exact read
  | der => exact (ofOctets?_der_iff.mp read).1

theorem isValid_of_ofOctets? (read : ofOctets? mode octets = some time) : time.IsValid :=
  (ofOctets?_ber_iff.mp (ofOctets?_ber_of_read read)).1

theorem getLast?_append_minusZero_ne (front : Octets) :
    (front ++ minusZero).getLast? ≠ some 0x5a := by
  rw [List.getLast?_append]
  exact fun last => absurd (Option.some_inj.mp last : (0x30 : UInt8) = 0x5a) (by decide)

theorem of_ofOctets?_der (read : ofOctets? .der octets = some time) :
    time.second?.isSome ∧ time.offset? = none := by
  obtain ⟨readBasic, seconds, last⟩ := ofOctets?_der_iff.mp read
  obtain ⟨-, rfl | ⟨-, rfl⟩⟩ := ofOctets?_ber_iff.mp readBasic
  · exact ⟨seconds, getLast?_written_iff.mp last⟩
  · exact absurd last (getLast?_append_minusZero_ne _)

/-- The sign of an offset of zero makes no difference. -/
theorem ofOctets?_append_minusZero (isValid : time.IsValid) (isZero : time.offset? = some 0)
    (mode : Mode) :
    ofOctets? mode (time.numbers.flatMap pair ++ minusZero) = ofOctets? mode time.written := by
  cases mode with
  | ber =>
      rw [ofOctets?_ber_iff.mpr ⟨isValid, .inl rfl⟩,
        ofOctets?_ber_iff.mpr ⟨isValid, .inr ⟨isZero, rfl⟩⟩]
  | der =>
      have notUtc : time.offset? ≠ none := isZero ▸ Option.some_ne_none 0
      rw [ofOctets?_der_written isValid, if_neg fun distinguished => notUtc distinguished.2]
      refine Option.eq_none_iff_forall_ne_some.mpr fun other read => ?_
      exact getLast?_append_minusZero_ne _ (ofOctets?_der_iff.mp read).2.2

end Times

end Asn1.UtcTime
