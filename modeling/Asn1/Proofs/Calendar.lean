import Asn1.Calendar
import Mathlib.Order.Monotone.Basic

/-!
# Days of the Gregorian calendar

The number of a day grows by one from each day to the next, so that it counts the days from the
first one of 1970, and the order of numbers is that of dates.
-/

namespace Asn1.Calendar

section Months

variable {year month : Nat}

theorem isLeap_iff : isLeap year = true ↔ 4 ∣ year ∧ (100 ∣ year → 400 ∣ year) := by
  rw [isLeap, decide_eq_true_iff]
  omega

def longMonths : List Nat := [1, 3, 5, 7, 8, 10, 12]

def shortMonths : List Nat := [4, 6, 9, 11]

theorem mem_longMonths_or (low : 1 ≤ month) (high : month ≤ 12) :
    month ∈ longMonths ∨ month ∈ shortMonths ∨ month = 2 := by
  simp only [longMonths, shortMonths, List.mem_cons, List.not_mem_nil, or_false]
  omega

theorem lastDay_of_mem_longMonths (year : Nat) (isLong : month ∈ longMonths) :
    (1 ≤ month ∧ month ≤ 12) ∧ lastDay year month = 31 := by
  simp only [longMonths, List.mem_cons, List.not_mem_nil, or_false] at isLong
  rcases isLong with rfl | rfl | rfl | rfl | rfl | rfl | rfl <;> exact ⟨by decide, rfl⟩

theorem lastDay_of_mem_shortMonths (year : Nat) (isShort : month ∈ shortMonths) :
    (1 ≤ month ∧ month ≤ 12) ∧ lastDay year month = 30 := by
  simp only [shortMonths, List.mem_cons, List.not_mem_nil, or_false] at isShort
  rcases isShort with rfl | rfl | rfl | rfl <;> exact ⟨by decide, rfl⟩

def yearLength (year : Nat) : Nat := if isLeap year then 366 else 365

-- Each quotient grows where its divisor divides the year, and each divisor divides the next.
theorem daysBeforeYear_succ (positive : 1 ≤ year) :
    daysBeforeYear (year + 1) = daysBeforeYear year + yearLength year := by
  obtain ⟨before, rfl⟩ := Nat.exists_eq_add_of_le' positive
  have century_of_fourth : 400 ∣ before + 1 → 100 ∣ before + 1 := Nat.dvd_trans (by decide)
  have fourth_of_century : 100 ∣ before + 1 → 4 ∣ before + 1 := Nat.dvd_trans (by decide)
  have enough : before / 100 ≤ before / 4 := Nat.div_le_div_left (by decide) (by decide)
  simp only [daysBeforeYear, yearLength, isLeap_iff, Nat.add_sub_cancel, Nat.succ_div]
  by_cases fourth : 4 ∣ before + 1
  · by_cases century : 100 ∣ before + 1
    · by_cases fourthCentury : 400 ∣ before + 1
      · rw [if_pos fourth, if_pos century, if_pos fourthCentury,
          if_pos ⟨fourth, fun _ => fourthCentury⟩]
        omega
      · rw [if_pos fourth, if_pos century, if_neg fourthCentury,
          if_neg fun leap => fourthCentury (leap.2 century)]
        omega
    · rw [if_pos fourth, if_neg century, if_neg fun divides => century (century_of_fourth divides),
        if_pos ⟨fourth, fun divides => absurd divides century⟩]
      omega
  · have notCentury : ¬ 100 ∣ before + 1 := fun divides => fourth (fourth_of_century divides)
    rw [if_neg fourth, if_neg notCentury,
      if_neg fun divides => notCentury (century_of_fourth divides),
      if_neg fun leap => fourth leap.1]
    omega

theorem daysBeforeYear_le {later : Nat} (positive : 1 ≤ year) (order : year ≤ later) :
    daysBeforeYear year ≤ daysBeforeYear later := by
  induction later, order using Nat.le_induction with
  | base => exact Nat.le_refl _
  | succ later order inductionHypothesis =>
      rw [daysBeforeYear_succ (positive.trans order)]
      exact inductionHypothesis.trans (Nat.le_add_right _ _)

theorem daysBeforeMonth_succ (year month : Nat) :
    daysBeforeMonth year (month + 1) = daysBeforeMonth year month + lastDay year month := rfl

theorem daysBeforeMonth_one (year : Nat) : daysBeforeMonth year 1 = 0 := rfl

/-- The months of a year make up the year. -/
theorem daysBeforeMonth_thirteen (year : Nat) : daysBeforeMonth year 13 = yearLength year := by
  simp only [daysBeforeMonth, lastDay, yearLength]
  split <;> rfl

theorem daysBeforeMonth_mono (year : Nat) : Monotone (daysBeforeMonth year) :=
  monotone_nat_of_le_succ fun _ => Nat.le_add_right _ _

theorem lastDay_pos (low : 1 ≤ month) (high : month ≤ 12) : 1 ≤ lastDay year month := by
  rcases mem_longMonths_or low high with isLong | isShort | rfl
  · rw [(lastDay_of_mem_longMonths year isLong).2]
    decide
  · rw [(lastDay_of_mem_shortMonths year isShort).2]
    decide
  · rw [lastDay]
    split <;> decide

end Months

structure Date where
  year : Nat
  month : Nat
  day : Nat
  deriving DecidableEq, Repr

namespace Date

/-- The day is one of the calendar. -/
inductive Exists : Date → Prop
  | long {year month day} : month ∈ longMonths → 1 ≤ day → day ≤ 31 → Exists ⟨year, month, day⟩
  | short {year month day} : month ∈ shortMonths → 1 ≤ day → day ≤ 30 → Exists ⟨year, month, day⟩
  | february {year day} : 1 ≤ day → day ≤ 28 → Exists ⟨year, 2, day⟩
  /-- Every fourth year has one more day, but of the full centuries only every fourth one. -/
  | leapDay {year} : 4 ∣ year → (100 ∣ year → 400 ∣ year) → Exists ⟨year, 2, 29⟩

def number (date : Date) : Int := dayNumber date.year date.month date.day

/-- The day from which seconds are counted. -/
def epoch : Date := ⟨1970, 1, 1⟩

variable {date : Date} {year month day : Nat}

/-- The days of a month are those up to its last one. -/
theorem exists_iff :
    Exists ⟨year, month, day⟩ ↔
      (1 ≤ month ∧ month ≤ 12) ∧ 1 ≤ day ∧ day ≤ lastDay year month := by
  constructor
  · intro isDate
    cases isDate with
    | long isLong first last =>
        obtain ⟨isMonth, length⟩ := lastDay_of_mem_longMonths year isLong
        exact ⟨isMonth, first, length.symm ▸ last⟩
    | short isShort first last =>
        obtain ⟨isMonth, length⟩ := lastDay_of_mem_shortMonths year isShort
        exact ⟨isMonth, first, length.symm ▸ last⟩
    | february first last =>
        have length : 28 ≤ lastDay year 2 := by
          rw [lastDay]
          split <;> decide
        exact ⟨by decide, first, last.trans length⟩
    | leapDay fourth century =>
        rw [lastDay, if_pos (isLeap_iff.mpr ⟨fourth, century⟩)]
        decide
  · rintro ⟨⟨low, high⟩, first, last⟩
    rcases mem_longMonths_or low high with isLong | isShort | rfl
    · rw [(lastDay_of_mem_longMonths year isLong).2] at last
      exact .long isLong first last
    · rw [(lastDay_of_mem_shortMonths year isShort).2] at last
      exact .short isShort first last
    · by_cases isExtra : day ≤ 28
      · exact .february first isExtra
      · rw [lastDay] at last
        split at last
        · next leap =>
            obtain ⟨fourth, century⟩ := isLeap_iff.mp leap
            rw [show day = 29 by omega]
            exact .leapDay fourth century
        · exact absurd last isExtra

theorem Exists.bounds (isDate : date.Exists) :
    (1 ≤ date.month ∧ date.month ≤ 12) ∧ 1 ≤ date.day ∧
      date.day ≤ lastDay date.year date.month :=
  exists_iff.mp isDate

theorem Exists.day_le (isDate : date.Exists) : date.day ≤ 31 := by
  cases isDate with
  | long _ _ last => exact last
  | short _ _ last | february _ last => exact last.trans (by decide)
  | leapDay => exact (by decide : 29 ≤ 31)

instance : DecidablePred Exists := fun _ => decidable_of_iff _ exists_iff.symm

/-- The day after a day: in the same month if that has one more day, otherwise the first one of the
month that follows. -/
def next (date : Date) : Date :=
  if Exists { date with day := date.day + 1 } then { date with day := date.day + 1 }
  else if date.month < 12 then ⟨date.year, date.month + 1, 1⟩
  else ⟨date.year + 1, 1, 1⟩

theorem next_of_lt (isMonth : 1 ≤ month ∧ month ≤ 12) (within : day < lastDay year month) :
    next ⟨year, month, day⟩ = ⟨year, month, day + 1⟩ :=
  if_pos (exists_iff.mpr ⟨isMonth, Nat.succ_pos _, within⟩)

theorem not_exists_of_lastDay_lt (beyond : lastDay year month < day) :
    ¬ Exists ⟨year, month, day⟩ :=
  fun isDate => Nat.not_lt.mpr isDate.bounds.2.2 beyond

theorem next_lastDay (notLast : month < 12) :
    next ⟨year, month, lastDay year month⟩ = ⟨year, month + 1, 1⟩ := by
  rw [next, if_neg (not_exists_of_lastDay_lt (Nat.lt_succ_self _)), if_pos notLast]

theorem next_december (year : Nat) : next ⟨year, 12, lastDay year 12⟩ = ⟨year + 1, 1, 1⟩ := by
  rw [next, if_neg (not_exists_of_lastDay_lt (Nat.lt_succ_self _)), if_neg (Nat.lt_irrefl _)]

/-- The ways in which a day has a next one. -/
theorem next_cases (isDate : date.Exists) :
    (date.day < lastDay date.year date.month ∧ date.next = { date with day := date.day + 1 }) ∨
    date.day = lastDay date.year date.month ∧
      (date.month < 12 ∧ date.next = ⟨date.year, date.month + 1, 1⟩ ∨
        date.month = 12 ∧ date.next = ⟨date.year + 1, 1, 1⟩) := by
  obtain ⟨year, month, day⟩ := date
  obtain ⟨isMonth, first, last⟩ := isDate.bounds
  dsimp only at isMonth first last ⊢
  rcases Nat.lt_or_eq_of_le last with within | rfl
  · exact .inl ⟨within, next_of_lt isMonth within⟩
  · rcases Nat.lt_or_eq_of_le isMonth.2 with notLast | rfl
    · exact .inr ⟨rfl, .inl ⟨notLast, next_lastDay notLast⟩⟩
    · exact .inr ⟨rfl, .inr ⟨rfl, next_december year⟩⟩

theorem exists_next (isDate : date.Exists) : date.next.Exists := by
  obtain ⟨⟨low, high⟩, first, last⟩ := isDate.bounds
  rcases next_cases isDate with ⟨within, next⟩ | ⟨-, ⟨notLast, next⟩ | ⟨-, next⟩⟩
  · rw [next]
    exact exists_iff.mpr ⟨⟨low, high⟩, by omega, within⟩
  · rw [next]
    exact exists_iff.mpr ⟨⟨by omega, notLast⟩, le_rfl, lastDay_pos (by omega) notLast⟩
  · rw [next]
    exact exists_iff.mpr ⟨by decide, le_rfl, lastDay_pos le_rfl (by decide)⟩

theorem year_le_next (isDate : date.Exists) : date.year ≤ date.next.year := by
  rcases next_cases isDate with ⟨-, next⟩ | ⟨-, ⟨-, next⟩ | ⟨-, next⟩⟩
  · rw [next]
  · rw [next]
  · rw [next]
    exact Nat.le_succ _

theorem number_epoch : epoch.number = 0 := by decide

/-- The number of a day grows by one from each day to the next. -/
theorem number_next (isDate : date.Exists) (positive : 1 ≤ date.year) :
    date.next.number = date.number + 1 := by
  obtain ⟨year, month, day⟩ := date
  rcases next_cases isDate with ⟨-, next⟩ | ⟨isLast, ⟨-, next⟩ | ⟨isDecember, next⟩⟩
  · rw [next, number, number, dayNumber, dayNumber]
    push_cast
    omega
  · dsimp only at isLast
    rw [next, number, number, dayNumber, dayNumber, daysBeforeMonth_succ, isLast]
    push_cast
    omega
  · dsimp only at isLast isDecember positive
    subst isDecember
    have whole := daysBeforeMonth_thirteen year
    rw [daysBeforeMonth_succ, ← isLast] at whole
    rw [next, number, number, dayNumber, dayNumber, daysBeforeYear_succ positive,
      daysBeforeMonth_one, ← whole]
    push_cast
    omega

example : dayNumber 2000 3 1 = dayNumber 2000 2 29 + 1 := by decide

/-- What holds of a day and of the next one alike, in the years up to a limit. -/
def IsKept (limit : Nat) (motive : Date → Prop) : Prop :=
  ∀ date : Date, date.Exists → 1 ≤ date.year → date.next.year ≤ limit →
    (motive date ↔ motive date.next)

section Kept

variable {limit : Nat} {motive : Date → Prop}

theorem IsKept.inMonth (kept : IsKept limit motive) (positive : 1 ≤ year) (within : year ≤ limit)
    (isMonth : 1 ≤ month ∧ month ≤ 12) (low : 1 ≤ day) (high : day ≤ lastDay year month) :
    motive ⟨year, month, 1⟩ ↔ motive ⟨year, month, day⟩ := by
  induction day, low using Nat.le_induction with
  | base => exact Iff.rfl
  | succ day low inductionHypothesis =>
      have next := kept ⟨year, month, day⟩ (exists_iff.mpr ⟨isMonth, low, by omega⟩) positive
      rw [next_of_lt isMonth high] at next
      exact (inductionHypothesis (by omega)).trans (next within)

theorem IsKept.inYear (kept : IsKept limit motive) (positive : 1 ≤ year) (within : year ≤ limit)
    (low : 1 ≤ month) (high : month ≤ 12) :
    motive ⟨year, 1, 1⟩ ↔ motive ⟨year, month, 1⟩ := by
  induction month, low using Nat.le_induction with
  | base => exact Iff.rfl
  | succ month low inductionHypothesis =>
      have isMonth : 1 ≤ month ∧ month ≤ 12 := ⟨low, by omega⟩
      have last : 1 ≤ lastDay year month := lastDay_pos isMonth.1 isMonth.2
      have next := kept _ (exists_iff.mpr ⟨isMonth, last, le_rfl⟩) positive
      rw [next_lastDay high] at next
      have wholeMonth := kept.inMonth positive within isMonth last le_rfl
      exact (inductionHypothesis (by omega)).trans (wholeMonth.trans (next within))

theorem IsKept.inYears (kept : IsKept limit motive) (positive : 1 ≤ year) (within : year ≤ limit) :
    motive ⟨1, 1, 1⟩ ↔ motive ⟨year, 1, 1⟩ := by
  induction year, positive using Nat.le_induction with
  | base => exact Iff.rfl
  | succ year positive inductionHypothesis =>
      have below : year ≤ limit := by omega
      have isMonth : 1 ≤ 12 ∧ 12 ≤ 12 := by decide
      have last : 1 ≤ lastDay year 12 := lastDay_pos isMonth.1 isMonth.2
      have next := kept _ (exists_iff.mpr ⟨isMonth, last, le_rfl⟩) positive
      rw [next_december] at next
      have wholeYear := kept.inYear positive below isMonth.1 isMonth.2
      have wholeMonth := kept.inMonth positive below isMonth last le_rfl
      exact (inductionHypothesis below).trans
        (wholeYear.trans (wholeMonth.trans (next within)))

/-- What holds of the first day of 1970 and is kept from each day to the next, and back, holds of
all days. -/
theorem IsKept.holds (kept : IsKept limit motive) (reached : epoch.year ≤ limit)
    (first : motive epoch) (isDate : date.Exists) (positive : 1 ≤ date.year)
    (within : date.year ≤ limit) : motive date := by
  obtain ⟨year, month, day⟩ := date
  obtain ⟨isMonth, low, high⟩ := isDate.bounds
  have start : motive ⟨1, 1, 1⟩ := (kept.inYears (by decide) reached).mpr first
  have newYear := (kept.inYears positive within).mp start
  have firstDay := (kept.inYear positive within isMonth.1 isMonth.2).mp newYear
  exact (kept.inMonth positive within isMonth low high).mp firstDay

end Kept

/-- The order of years, of months within a year, and of days within a month. -/
def Precedes (date other : Date) : Prop :=
  date.year < other.year ∨ date.year = other.year ∧
    (date.month < other.month ∨ date.month = other.month ∧ date.day < other.day)

theorem daysBeforeMonth_add_day_le (isDate : date.Exists) :
    daysBeforeMonth date.year date.month + date.day ≤
      daysBeforeMonth date.year (date.month + 1) := by
  rw [daysBeforeMonth_succ]
  exact Nat.add_le_add_left isDate.bounds.2.2 _

theorem daysBeforeMonth_add_day_le_yearLength (isDate : date.Exists) :
    daysBeforeMonth date.year date.month + date.day ≤ yearLength date.year :=
  calc daysBeforeMonth date.year date.month + date.day
      ≤ daysBeforeMonth date.year (date.month + 1) := daysBeforeMonth_add_day_le isDate
    _ ≤ daysBeforeMonth date.year 13 :=
        daysBeforeMonth_mono date.year (Nat.succ_le_succ isDate.bounds.1.2)
    _ = yearLength date.year := daysBeforeMonth_thirteen date.year

theorem Precedes.number_lt {other : Date} (precedes : date.Precedes other) (isDate : date.Exists)
    (isOther : other.Exists) (positive : 1 ≤ date.year) : date.number < other.number := by
  obtain ⟨-, low, -⟩ := isOther.bounds
  rw [number, number, dayNumber, dayNumber]
  rcases precedes with earlierYear | ⟨sameYear, earlierMonth | ⟨sameMonth, earlierDay⟩⟩
  · have inYear := daysBeforeMonth_add_day_le_yearLength isDate
    have years := daysBeforeYear_le (Nat.le_add_left 1 date.year) earlierYear
    rw [daysBeforeYear_succ positive] at years
    omega
  · have inMonth := daysBeforeMonth_add_day_le isDate
    have months : daysBeforeMonth date.year (date.month + 1) ≤
        daysBeforeMonth date.year other.month := daysBeforeMonth_mono date.year earlierMonth
    rw [← sameYear]
    omega
  · rw [← sameYear, ← sameMonth]
    omega

end Date

end Asn1.Calendar
