import Asn1.Proofs.UtcTime.Written
import Mathlib.Data.List.Basic

/-!
# UTC times read by position

The first octet that can start a zone tells the layout, and each number is then read at its place.
Here an octet that is not there and a number too large for its word are faults. None occurs, and
what is read at the places is what is read from front to back.
-/

namespace Asn1.UtcTime

inductive Fault
  | outOfRange
  | overflow
  deriving DecidableEq, Repr

section Steps

variable {octets : Octets} {position count half number : Nat} {value : Int}

def octetAt (octets : Octets) (position : Nat) : Except Fault UInt8 :=
  match octets[position]? with
  | some octet => .ok octet
  | none => .error .outOfRange

def before (octets : Octets) (position : Nat) : Except Fault Octets :=
  if position ≤ octets.length then .ok (octets.take position) else .error .outOfRange

def onward (octets : Octets) (position : Nat) : Except Fault Octets :=
  if position ≤ octets.length then .ok (octets.drop position) else .error .outOfRange

/-- A number in an unsigned word of so many values. -/
def unsigned (count : Nat) (number : Int) : Except Fault Nat :=
  if 0 ≤ number ∧ number < count then .ok number.toNat else .error .overflow

/-- A number in a signed word, of whose values so many are negative and so many are not. -/
def signed (half : Nat) (number : Int) : Except Fault Int :=
  if -half ≤ number ∧ number < half then .ok number else .error .overflow

/-- The number of a digit, in words of eight bits. -/
def digitAt (octets : Octets) (position : Nat) : Except Fault Nat := do
  let octet ← octetAt octets position
  unsigned 256 (octet.toNat - '0'.toNat)

/-- The number of two digits, in words of eight bits. -/
def twoDigitsAt (octets : Octets) (position : Nat) : Except Fault Nat := do
  let tens ← digitAt octets position
  let shifted ← unsigned 256 (tens * 10)
  let units ← digitAt octets (position + 1)
  unsigned 256 (shifted + units)

theorem ok_bind {α β : Type} (value : α) (next : α → Except Fault β) :
    (Except.ok value >>= next) = next value := rfl

theorem octetAt_eq {octet : UInt8} (there : octets[position]? = some octet) :
    octetAt octets position = .ok octet := by
  rw [octetAt, there]

theorem before_append (front back : Octets) : before (front ++ back) front.length = .ok front := by
  rw [before, List.take_left, if_pos]
  exact List.length_append ▸ Nat.le_add_right _ _

theorem onward_append (front back : Octets) : onward (front ++ back) front.length = .ok back := by
  rw [onward, List.drop_left, if_pos]
  exact List.length_append ▸ Nat.le_add_right _ _

theorem unsigned_eq (same : value = number) (small : number < count) :
    unsigned count value = .ok number := by
  subst same
  exact if_pos ⟨Int.natCast_nonneg number, Int.ofNat_lt.mpr small⟩

theorem signed_eq (low : -half ≤ value) (high : value < half) : signed half value = .ok value :=
  if_pos ⟨low, high⟩

theorem digitAt_eq (there : octets[position]? = some (digit number)) (small : number < 10) :
    digitAt octets position = .ok number := by
  rw [digitAt, octetAt_eq there, ok_bind, toNat_digit small]
  refine unsigned_eq ?_ (by omega)
  change ((48 + number : Nat) : Int) - (48 : Nat) = number
  omega

theorem twoDigitsAt_eq (first : octets[position]? = some (digit (number / 10)))
    (second : octets[position + 1]? = some (digit (number % 10))) (small : number < 100) :
    twoDigitsAt octets position = .ok number := by
  have tens : digitAt octets position = .ok (number / 10) := digitAt_eq first (by omega)
  have units : digitAt octets (position + 1) = .ok (number % 10) :=
    digitAt_eq second (Nat.mod_lt _ (by decide))
  have shifted : unsigned 256 ((number / 10 : Nat) * 10) = .ok (number / 10 * 10) :=
    unsigned_eq (by omega) (by omega)
  rw [twoDigitsAt, tens, ok_bind, shifted, ok_bind, units, ok_bind]
  exact unsigned_eq (by omega) (by omega)

/-- Numbers in two digits each stand at every second position. -/
theorem getElem?_pairs {numbers : List Nat} {index : Nat} (there : numbers[index]? = some number)
    (back : Octets) :
    (numbers.flatMap pair ++ back)[2 * index]? = some (digit (number / 10)) ∧
      (numbers.flatMap pair ++ back)[2 * index + 1]? = some (digit (number % 10)) := by
  induction numbers generalizing index with
  | nil => cases there
  | cons first numbers inductionHypothesis =>
      cases index with
      | zero =>
          cases there
          exact ⟨rfl, rfl⟩
      | succ index => exact inductionHypothesis there

theorem twoDigitsAt_pairs {numbers : List Nat} (each : ∀ number ∈ numbers, number < 100)
    {index : Nat} (there : numbers[index]? = some number) (back : Octets) :
    twoDigitsAt (numbers.flatMap pair ++ back) (2 * index) = .ok number :=
  have ⟨first, second⟩ := getElem?_pairs there back
  twoDigitsAt_eq first second (each number (List.mem_of_getElem? there))

theorem length_pairs (numbers : List Nat) : (numbers.flatMap pair).length = 2 * numbers.length := by
  induction numbers with
  | nil => rfl
  | cons number numbers inductionHypothesis =>
      rw [List.flatMap_cons, List.length_append, inductionHypothesis, List.length_cons]
      change 2 + 2 * numbers.length = 2 * (numbers.length + 1)
      omega

def AreDigits (octets : Octets) : Prop := ∀ octet ∈ octets, (digit? octet).isSome = true

instance (octets : Octets) : Decidable (AreDigits octets) :=
  inferInstanceAs (Decidable (∀ octet ∈ octets, (digit? octet).isSome = true))

theorem isSome_pairs?_iff :
    (pairs? octets).isSome = true ↔ AreDigits octets ∧ 2 ∣ octets.length := by
  rw [AreDigits]
  fun_induction pairs? octets with
  | case1 => simp
  | case2 tens units rest inductionHypothesis =>
      have even_iff : 2 ∣ (tens :: units :: rest).length ↔ 2 ∣ rest.length := by
        rw [List.length_cons, List.length_cons]
        omega
      rw [even_iff, List.forall_mem_cons, List.forall_mem_cons, and_assoc, and_assoc,
        ← inductionHypothesis]
      cases digit? tens <;> cases digit? units <;> cases pairs? rest <;> simp
  | case3 octets notNil notCons =>
      cases octets with
      | nil => exact absurd rfl notNil
      | cons tens rest =>
          cases rest with
          | nil => simp
          | cons units rest => exact absurd rfl (notCons tens units rest)

theorem pairs?_eq_none (notDigits : ¬ AreDigits octets) : pairs? octets = none := by
  refine Option.eq_none_iff_forall_ne_some.mpr fun numbers digitsRead => ?_
  exact notDigits (digit?_isSome_of_pairs? digitsRead)

end Steps

section Records

variable {mode : Mode} {octets : Octets} {numbers : List Nat}

def secondAt? (octets : Octets) (hasSeconds : Bool) : Except Fault (Option Nat) :=
  if hasSeconds then some <$> twoDigitsAt octets 10 else .ok none

def recordAt (octets : Octets) (hasSeconds : Bool) : Except Fault UtcTime := do
  let short ← twoDigitsAt octets 0
  let year ← unsigned 65536 (fullYear short)
  let month ← twoDigitsAt octets 2
  let day ← twoDigitsAt octets 4
  let hour ← twoDigitsAt octets 6
  let minute ← twoDigitsAt octets 8
  let second? ← secondAt? octets hasSeconds
  return ⟨year, month, day, hour, minute, second?, none⟩

/-- The zone is where the seconds end, or under basic rules where the minutes do. -/
def IsLayout (mode : Mode) (mark : Nat) : Prop := mark = 12 ∨ mode = .ber ∧ mark = 10

instance (mode : Mode) (mark : Nat) : Decidable (IsLayout mode mark) :=
  inferInstanceAs (Decidable (_ ∨ _))

theorem fields?_eq_none (notLayout : ¬ IsLayout mode (2 * numbers.length)) (offset? : Option Int) :
    fields? mode numbers offset? = none := by
  rw [fields?.eq_def]
  split
  · exact absurd (.inl rfl) notLayout
  · exact absurd (.inr ⟨rfl, rfl⟩) notLayout
  · rfl

theorem unsigned_fullYear {short : Nat} (small : short < 100) :
    unsigned 65536 (fullYear short) = .ok (fullYear short) := by
  have century := (fullYear_century small).1.2
  exact unsigned_eq rfl (by omega)

theorem recordAt_eq {short month day hour minute : Nat} {hasSeconds : Bool} {second? : Option Nat}
    (years : twoDigitsAt octets 0 = .ok short) (small : short < 100)
    (months : twoDigitsAt octets 2 = .ok month) (days : twoDigitsAt octets 4 = .ok day)
    (hours : twoDigitsAt octets 6 = .ok hour) (minutes : twoDigitsAt octets 8 = .ok minute)
    (seconds : secondAt? octets hasSeconds = .ok second?) :
    recordAt octets hasSeconds =
      .ok ⟨fullYear short, month, day, hour, minute, second?, none⟩ := by
  rw [recordAt, years, ok_bind, unsigned_fullYear small, ok_bind, months, ok_bind, days, ok_bind,
    hours, ok_bind, minutes, ok_bind, seconds]
  rfl

/-- At the positions are the numbers that are read from front to back. -/
theorem exists_record (each : ∀ number ∈ numbers, number < 100)
    (layout : IsLayout mode (numbers.flatMap pair).length) (back : Octets) :
    ∃ record, recordAt (numbers.flatMap pair ++ back) ((numbers.flatMap pair).length = 12) =
        .ok record ∧
      ∀ offset?, fields? mode numbers offset? = some { record with offset? := offset? } := by
  have read : ∀ index number, numbers[index]? = some number →
      twoDigitsAt (numbers.flatMap pair ++ back) (2 * index) = .ok number :=
    fun index number there => twoDigitsAt_pairs each there back
  rw [length_pairs] at layout ⊢
  -- Only what is read at the positions matters from here on.
  generalize numbers.flatMap pair ++ back = octets at read
  match numbers with
  | [short, month, day, hour, minute] =>
      obtain ⟨rfl, -⟩ := layout.resolve_left fun length_eq => by cases length_eq
      exact ⟨_, recordAt_eq (read 0 _ rfl) (each _ List.mem_cons_self) (read 1 _ rfl) (read 2 _ rfl)
        (read 3 _ rfl) (read 4 _ rfl) rfl, fun _ => rfl⟩
  | [short, month, day, hour, minute, second] =>
      have seconds : secondAt? octets true = .ok (some second) := by
        rw [secondAt?, if_pos rfl, (read 5 _ rfl : twoDigitsAt octets 10 = .ok second)]
        rfl
      exact ⟨_, recordAt_eq (read 0 _ rfl) (each _ List.mem_cons_self) (read 1 _ rfl) (read 2 _ rfl)
        (read 3 _ rfl) (read 4 _ rfl) seconds, fun _ => rfl⟩
  | [] | [_] | [_, _] | [_, _, _] | [_, _, _, _] | _ :: _ :: _ :: _ :: _ :: _ :: _ :: _ =>
      simp only [IsLayout, List.length_cons, List.length_nil] at layout
      omega

end Records

section Zones

variable {mode : Mode} {zone : Octets}

/-- The offset of hours and minutes after a sign, in words of sixteen bits. -/
def offsetOf (mark : UInt8) (hours minutes : Nat) : Except Fault Int := do
  let shifted ← signed 32768 (hours * 60)
  let offset ← signed 32768 (shifted + minutes)
  if mark = 0x2d then signed 32768 (-offset) else return offset

def zoneAt (mode : Mode) (zone : Octets) : Except Fault (Option (Option Int)) := do
  if zone = [0x5a] then return some none
  if mode = .der ∨ zone.length ≠ 5 then return none
  let mark ← octetAt zone 0
  if mark = 0x5a then return none
  let digits ← onward zone 1
  if ¬ AreDigits digits then return none
  let hours ← twoDigitsAt zone 1
  let minutes ← twoDigitsAt zone 3
  if 24 ≤ hours ∨ 60 ≤ minutes then return none
  return some (some (← offsetOf mark hours minutes))

theorem offsetOf_eq {hours minutes : Nat} (hours_lt : hours < 24) (minutes_lt : minutes < 60)
    (mark : UInt8) :
    offsetOf mark hours minutes =
      .ok (if mark = 0x2d then -(hours * 60 + minutes : Int) else hours * 60 + minutes) := by
  have shifted : signed 32768 (hours * 60) = .ok (hours * 60 : Int) :=
    signed_eq (by omega) (by omega)
  have sum : signed 32768 (hours * 60 + minutes) = .ok (hours * 60 + minutes : Int) :=
    signed_eq (by omega) (by omega)
  have negated : signed 32768 (-(hours * 60 + minutes)) = .ok (-(hours * 60 + minutes) : Int) :=
    signed_eq (by omega) (by omega)
  rw [offsetOf, shifted, ok_bind, sum, ok_bind, negated]
  split <;> rfl

/-- A zone that is read is `Z`, or a mark with hours and minutes. -/
theorem zone?_eq_none (notLiteral : zone ≠ [0x5a])
    (notSigned : ∀ mark hours minutes, mode = .ber → mark ≠ 0x5a →
      pairs? ([hours, minutes].flatMap pair) = some [hours, minutes] →
        zone ≠ mark :: [hours, minutes].flatMap pair) :
    zone? mode zone = none := by
  refine Option.eq_none_iff_forall_ne_some.mpr fun offset? read => ?_
  cases mode with
  | der => exact notLiteral (zone?_der_iff.mp read).1
  | ber =>
      cases zone with
      | nil => cases read
      | cons mark digits =>
          by_cases isLiteral : mark = 0x5a
          · subst isLiteral
            obtain ⟨rfl, -⟩ := zone?_ber_literal_iff.mp read
            exact notLiteral rfl
          · obtain ⟨hours, hoursBelow, minutes, minutesBelow, rfl, -⟩ :=
              (zone?_ber_sign_iff isLiteral).mp read
            exact notSigned mark hours minutes rfl isLiteral (pairs?_two (by omega) (by omega)) rfl

theorem zoneAt_sign {mark : UInt8} {hours minutes : Nat} (isSign : mark ≠ 0x5a)
    (digitsRead : pairs? ([hours, minutes].flatMap pair) = some [hours, minutes]) :
    zoneAt .ber (mark :: [hours, minutes].flatMap pair) =
      .ok (zone? .ber (mark :: [hours, minutes].flatMap pair)) := by
  have each := (pairs?_eq_some_iff.mp digitsRead).1
  have hoursBelow : hours < 100 := each hours List.mem_cons_self
  have minutesBelow : minutes < 100 := each minutes (List.mem_cons_of_mem _ List.mem_cons_self)
  generalize zone_eq : mark :: [hours, minutes].flatMap pair = zone
  have notLiteral : zone ≠ [0x5a] := by
    rintro rfl
    cases zone_eq
  have layout : ¬ (Mode.ber = .der ∨ zone.length ≠ 5) := by
    rintro (isDer | length_ne)
    · cases isDer
    · exact length_ne (zone_eq ▸ rfl)
  have mark_at : octetAt zone 0 = .ok mark := octetAt_eq (zone_eq ▸ rfl)
  have digits_at : onward zone 1 = .ok ([hours, minutes].flatMap pair) :=
    zone_eq ▸ onward_append [mark] _
  have areDigits : AreDigits ([hours, minutes].flatMap pair) := digit?_isSome_of_pairs? digitsRead
  have hours_at : twoDigitsAt zone 1 = .ok hours :=
    twoDigitsAt_eq (zone_eq ▸ rfl) (zone_eq ▸ rfl) hoursBelow
  have minutes_at : twoDigitsAt zone 3 = .ok minutes :=
    twoDigitsAt_eq (zone_eq ▸ rfl) (zone_eq ▸ rfl) minutesBelow
  rw [zoneAt, if_neg notLiteral, if_neg layout, mark_at, ok_bind, if_neg isSign, digits_at, ok_bind,
    if_neg (not_not_intro areDigits), hours_at, ok_bind, minutes_at, ok_bind, ← zone_eq,
    zone?_ber_sign isSign, digitsRead]
  dsimp only
  by_cases within : hours < 24 ∧ minutes < 60
  · rw [if_neg (by omega), if_pos within, offsetOf_eq within.1 within.2]
    rfl
  · rw [if_pos (by omega), if_neg within]
    rfl

theorem zoneAt_eq (mode : Mode) (zone : Octets) : zoneAt mode zone = .ok (zone? mode zone) := by
  by_cases literal : zone = [0x5a]
  · subst literal
    cases mode <;> rfl
  by_cases layout : mode = .der ∨ zone.length ≠ 5
  · rw [zoneAt, if_neg literal, if_pos layout, zone?_eq_none literal]
    · rfl
    · rintro mark hours minutes rfl - - rfl
      rcases layout with isDer | length_ne
      · cases isDer
      · exact length_ne rfl
  obtain ⟨notDer, length_eq⟩ : mode ≠ .der ∧ zone.length = 5 := by
    rwa [not_or, not_not] at layout
  obtain ⟨mark, digits, rfl⟩ := List.exists_cons_of_length_eq_add_one length_eq
  have digits_at : onward (mark :: digits) 1 = .ok digits := onward_append [mark] digits
  by_cases isSign : mark = 0x5a
  · rw [zoneAt, if_neg literal, if_neg layout, octetAt_eq rfl, ok_bind, if_pos isSign,
      zone?_eq_none literal]
    · rfl
    · rintro other hours minutes - notLiteral - zone_eq
      exact notLiteral ((List.cons.inj zone_eq).1 ▸ isSign)
  by_cases areDigits : AreDigits digits
  · obtain ⟨numbers, digitsRead⟩ := Option.isSome_iff_exists.mp
      (isSome_pairs?_iff.mpr ⟨areDigits, by rw [Nat.succ.inj length_eq]; decide⟩)
    obtain ⟨-, rfl⟩ := pairs?_eq_some_iff.mp digitsRead
    have two : numbers.length = 2 := by
      have four := Nat.succ.inj length_eq
      rw [length_pairs] at four
      omega
    obtain ⟨hours, minutes, rfl⟩ := List.length_eq_two.mp two
    cases mode with
    | der => exact absurd rfl notDer
    | ber => exact zoneAt_sign isSign digitsRead
  · rw [zoneAt, if_neg literal, if_neg layout, octetAt_eq rfl, ok_bind, if_neg isSign, digits_at,
      ok_bind, if_pos areDigits, zone?_eq_none literal]
    · rfl
    · rintro other hours minutes - - digitsRead zone_eq
      rw [(List.cons.inj zone_eq).2] at areDigits
      exact areDigits (digit?_isSome_of_pairs? digitsRead)

end Zones

/-- Reads the content octets of a UTC time by position. -/
def atPositions (mode : Mode) (octets : Octets) : Except Fault (Option UtcTime) := do
  let some mark := octets.findIdx? startsZone | return none
  if ¬ IsLayout mode mark then return none
  let front ← before octets mark
  if ¬ AreDigits front then return none
  let record ← recordAt octets (mark = 12)
  if !record.isOnCalendar then return none
  let zone ← onward octets mark
  let some offset? ← zoneAt mode zone | return none
  return some { record with offset? := offset? }

section Times

variable {mode : Mode} {front : Octets} {mark : UInt8} {digits : Octets}

theorem findIdx?_append_mark (noMark : ∀ octet ∈ front, startsZone octet = false)
    (isMark : startsZone mark = true) :
    (front ++ mark :: digits).findIdx? startsZone = some front.length := by
  rw [List.findIdx?_append, List.findIdx?_eq_none_iff.mpr noMark, List.findIdx?_cons, if_pos isMark]
  simp

theorem ofOctets?_of_not_layout (noMark : ∀ octet ∈ front, startsZone octet = false)
    (isMark : startsZone mark = true) (notLayout : ¬ IsLayout mode front.length) :
    ofOctets? mode (front ++ mark :: digits) = none := by
  rw [ofOctets?_append noMark isMark]
  cases digitsRead : pairs? front with
  | none => rfl
  | some numbers =>
      obtain ⟨-, rfl⟩ := pairs?_eq_some_iff.mp digitsRead
      rw [length_pairs] at notLayout
      simp [fields?_eq_none notLayout]

theorem atPositions_of_pairs? {numbers : List Nat}
    (noMark : ∀ octet ∈ front, startsZone octet = false) (isMark : startsZone mark = true)
    (layout : IsLayout mode front.length) (digitsRead : pairs? front = some numbers) :
    atPositions mode (front ++ mark :: digits) =
      .ok (ofOctets? mode (front ++ mark :: digits)) := by
  have areDigits : AreDigits front := digit?_isSome_of_pairs? digitsRead
  rw [ofOctets?_append noMark isMark, digitsRead, atPositions, findIdx?_append_mark noMark isMark]
  obtain ⟨each, rfl⟩ := pairs?_eq_some_iff.mp digitsRead
  obtain ⟨record, recordRead, fields_eq⟩ := exists_record each layout (mark :: digits)
  dsimp only
  rw [if_neg (not_not_intro layout), before_append, ok_bind, if_neg (not_not_intro areDigits),
    recordRead, ok_bind, onward_append, ok_bind, zoneAt_eq, ok_bind]
  have sameDate : ∀ offset?, isOnCalendar { record with offset? := offset? } =
      record.isOnCalendar := fun _ => rfl
  cases zone? mode (mark :: digits) with
  | none => cases record.isOnCalendar <;> rfl
  | some offset? =>
      simp only [Option.bind_eq_bind, Option.bind_some, fields_eq, sameDate]
      cases record.isOnCalendar <;> rfl

/-- Reading by position meets no fault, and reads what is read from front to back. -/
theorem atPositions_eq (mode : Mode) (octets : Octets) :
    atPositions mode octets = .ok (ofOctets? mode octets) := by
  rcases mark_cases octets with noMark | ⟨front, mark, digits, noMark, isMark, rfl⟩
  · rw [atPositions, List.findIdx?_eq_none_iff.mpr noMark, ofOctets?_of_noMark noMark]
    rfl
  by_cases layout : IsLayout mode front.length
  · by_cases areDigits : AreDigits front
    · have even : 2 ∣ front.length := by
        rcases layout with length_eq | ⟨-, length_eq⟩ <;> rw [length_eq] <;> decide
      obtain ⟨numbers, digitsRead⟩ := Option.isSome_iff_exists.mp
        (isSome_pairs?_iff.mpr ⟨areDigits, even⟩)
      exact atPositions_of_pairs? noMark isMark layout digitsRead
    · rw [atPositions, findIdx?_append_mark noMark isMark, ofOctets?_append noMark isMark,
        pairs?_eq_none areDigits]
      dsimp only
      rw [if_neg (not_not_intro layout), before_append, ok_bind, if_pos areDigits]
      rfl
  · rw [atPositions, findIdx?_append_mark noMark isMark,
      ofOctets?_of_not_layout noMark isMark layout]
    exact if_pos layout

/-- What is read as a time is valid and is written by it, except that `-0000` may stand for `+0000`.
Each valid time is read back from what it writes, under distinguished rules if it has seconds and
`Z`, and `-0000` in place of `+0000` changes nothing. Reading by position meets no fault. -/
theorem ofOctets?_exact :
    (∀ mode octets time, ofOctets? mode octets = some time →
      time.IsValid ∧ (mode = .der → time.second?.isSome ∧ time.offset? = none) ∧
        (octets = time.written ∨
          ∃ front, time.written = front ++ plusZero ∧ octets = front ++ minusZero)) ∧
    (∀ time, IsValid time →
      ofOctets? .ber time.written = some time ∧
      ofOctets? .der time.written =
        (if time.second?.isSome ∧ time.offset? = none then some time else none) ∧
      ∀ front, time.written = front ++ plusZero →
        ∀ mode, ofOctets? mode (front ++ minusZero) = ofOctets? mode time.written) ∧
    ∀ mode octets, atPositions mode octets = .ok (ofOctets? mode octets) := by
  refine ⟨?sound, ?complete, atPositions_eq⟩
  case sound =>
    intro mode octets time read
    have distinguished : mode = .der → time.second?.isSome ∧ time.offset? = none := by
      rintro rfl
      exact of_ofOctets?_der read
    obtain ⟨isValid, octets_eq⟩ := ofOctets?_ber_iff.mp (ofOctets?_ber_of_read read)
    refine ⟨isValid, distinguished, octets_eq.imp_right ?_⟩
    rintro ⟨isZero, rfl⟩
    exact ⟨_, by rw [written, isZero]; rfl, rfl⟩
  case complete =>
    intro time isValid
    refine ⟨ofOctets?_ber_iff.mpr ⟨isValid, .inl rfl⟩, ofOctets?_der_written isValid, ?_⟩
    intro front ends mode
    obtain ⟨isZero, rfl⟩ := written_eq_append_plusZero isValid ends
    exact ofOctets?_append_minusZero isValid isZero mode

theorem ofOctets?_exact_minusZero :
    ofOctets? .ber ([1995 % 100, 2, 8, 4, 0].flatMap pair ++ minusZero) =
        some ⟨1995, 2, 8, 4, 0, none, some 0⟩ ∧
      IsValid ⟨1995, 2, 8, 4, 0, none, some 0⟩ := by
  have isValid : IsValid ⟨1995, 2, 8, 4, 0, none, some 0⟩ :=
    ⟨by decide, .february (by decide) (by decide), by decide, by decide, by decide, by decide⟩
  obtain ⟨readWritten, -, replaced⟩ := ofOctets?_exact.2.1 _ isValid
  have read := (replaced ([1995 % 100, 2, 8, 4, 0].flatMap pair) rfl .ber).trans readWritten
  exact ⟨read, (ofOctets?_exact.1 _ _ _ read).1⟩

end Times

end Asn1.UtcTime
