import Mathlib

namespace MarketingAgents.Library

/-! # Civil time

Dates of the proleptic Gregorian calendar with their times of day, their places
on the line of microseconds since the first of January of the year one, and
their extended texts with microseconds.
-/

structure Datetime where
  year : Nat
  month : Nat
  day : Nat
  hour : Nat
  minute : Nat
  second : Nat
  microsecond : Nat
deriving DecidableEq

def isLeap (year : Nat) : Bool := year % 4 = 0 && (year % 100 ≠ 0 || year % 400 = 0)

def daysInYear (year : Nat) : Nat := if isLeap year then 366 else 365

/-- The days before the first of January of a year. -/
def daysBeforeYear (year : Nat) : Nat :=
  (year - 1) * 365 + (year - 1) / 4 - (year - 1) / 100 + (year - 1) / 400

def daysInMonth (year : Nat) : Nat → Nat
  | 1 | 3 | 5 | 7 | 8 | 10 | 12 => 31
  | 4 | 6 | 9 | 11 => 30
  | 2 => if isLeap year then 29 else 28
  | _ => 0

/-- The days of a year before the first of a month. -/
def daysBeforeMonth (year : Nat) : Nat → Nat
  | 0 => 0
  | month + 1 => daysBeforeMonth year month + daysInMonth year month

def maxYear : Nat := 9999

namespace Datetime

structure Valid (value : Datetime) : Prop where
  year : 1 ≤ value.year ∧ value.year ≤ maxYear
  month : 1 ≤ value.month ∧ value.month ≤ 12
  day : 1 ≤ value.day ∧ value.day ≤ daysInMonth value.year value.month
  hour : value.hour < 24
  minute : value.minute < 60
  second : value.second < 60
  microsecond : value.microsecond < 1000000

instance (value : Datetime) : Decidable value.Valid :=
  decidable_of_iff ((1 ≤ value.year ∧ value.year ≤ maxYear) ∧ (1 ≤ value.month ∧ value.month ≤ 12) ∧
      (1 ≤ value.day ∧ value.day ≤ daysInMonth value.year value.month) ∧ value.hour < 24 ∧
        value.minute < 60 ∧
      value.second < 60 ∧ value.microsecond < 1000000)
    ⟨fun ⟨year, month, day, hour, minute, second, microsecond⟩ =>
      ⟨year, month, day, hour, minute, second, microsecond⟩,
    fun valid => ⟨valid.year, valid.month, valid.day, valid.hour, valid.minute, valid.second,
      valid.microsecond⟩⟩

/-- The days before the date. -/
def ordinal (value : Datetime) : Nat :=
  daysBeforeYear value.year + daysBeforeMonth value.year value.month + (value.day - 1)

def secondOfDay (value : Datetime) : Nat := value.hour * 3600 + value.minute * 60 + value.second

def toInstant (value : Datetime) : Nat :=
  (value.ordinal * 86400 + value.secondOfDay) * 1000000 + value.microsecond

end Datetime

/-- The last place of a growing sequence whose start is not behind a position. -/
def lastStart (start : Nat → Nat) (bound position : Nat) : Nat :=
  Nat.findGreatest (fun place => start place ≤ position) bound

def yearOf (days : Nat) : Nat := lastStart daysBeforeYear maxYear days

def monthOf (year days : Nat) : Nat := lastStart (daysBeforeMonth year) 12 days

def Datetime.ofInstant (instant : Nat) : Datetime :=
  let seconds := instant / 1000000
  let days := seconds / 86400
  let year := yearOf days
  let month := monthOf year (days - daysBeforeYear year)
  { year
    month
    day := days - daysBeforeYear year - daysBeforeMonth year month + 1
    hour := seconds % 86400 / 3600
    minute := seconds % 3600 / 60
    second := seconds % 60
    microsecond := instant % 1000000 }

/-- The first instant that no datetime stands for. -/
def endOfTime : Nat := daysBeforeYear (maxYear + 1) * 86400 * 1000000

section

variable {start : Nat → Nat} {bound position place : Nat}

theorem lastStart_eq (growing : Monotone start) (within : place ≤ bound)
    (begun : start place ≤ position)
    (running : position < start (place + 1)) : lastStart start bound position = place := by
  refine Nat.findGreatest_eq_iff.mpr ⟨within, fun _ => begun, fun later behind _ early => ?_⟩
  have started : start (place + 1) ≤ start later := growing behind
  omega

theorem lastStart_spec (first : start 1 = 0) (some : 1 ≤ bound)
    (inside : position < start (bound + 1)) :
    1 ≤ lastStart start bound position ∧ lastStart start bound position ≤ bound ∧
      start (lastStart start bound position) ≤ position ∧
      position < start (lastStart start bound position + 1) := by
  have begun : start 1 ≤ position := by omega
  have below : lastStart start bound position ≤ bound := Nat.findGreatest_le bound
  have reached : start (lastStart start bound position) ≤ position :=
    @Nat.findGreatest_spec 1 (fun place => start place ≤ position) _ bound some begun
  refine ⟨Nat.le_findGreatest some begun, below, reached, ?_⟩
  rcases Nat.lt_or_ge (lastStart start bound position) bound with inner | last
  · have above : ¬start (lastStart start bound position + 1) ≤ position :=
      @Nat.findGreatest_is_greatest _ (fun place => start place ≤ position) _ bound
        (Nat.lt_succ_self (lastStart start bound position)) inner
    exact Nat.lt_of_not_le above
  · have whole : lastStart start bound position = bound := Nat.le_antisymm below last
    rw [whole]
    exact inside

end

theorem isLeap_iff {year : Nat} : isLeap year = true ↔
    year % 4 = 0 ∧ (year % 100 ≠ 0 ∨ year % 400 = 0) := by
  simp [isLeap]

/-- Every fourth year counts, but not every hundredth one, and again every four hundredth one. -/
theorem leapYears_succ (year : Nat) : (year + 1) / 4 + (year + 1) / 400 + year / 100 =
    year / 4 + year / 400 + (year + 1) / 100 + if isLeap (year + 1) then 1 else 0 := by
  simp only [isLeap_iff]
  split <;> omega

theorem daysBeforeYear_succ {year : Nat} (positive : 1 ≤ year) :
    daysBeforeYear (year + 1) = daysBeforeYear year + daysInYear year := by
  obtain ⟨previous, rfl⟩ : ∃ previous, year = previous + 1 :=
    ⟨year - 1, (Nat.sub_add_cancel positive).symm⟩
  -- The differences are named, so that no truncated subtraction is left.
  have linear (days nextDays fours hundreds fourHundreds nextFours nextHundreds
    nextFourHundreds leap : Nat)
      (counted : nextFours + nextFourHundreds + hundreds =
        fours + fourHundreds + nextHundreds + leap)
      (earlier : days + hundreds = previous * 365 + fours)
      (later : nextDays + nextHundreds = (previous + 1) * 365 + nextFours) :
      nextDays + nextFourHundreds = days + fourHundreds + (365 + leap) := by
    omega
  have before : previous / 100 ≤ previous * 365 + previous / 4 := by omega
  have after : (previous + 1) / 100 ≤ (previous + 1) * 365 + (previous + 1) / 4 := by omega
  have counted := leapYears_succ previous
  have year := linear _ _ _ _ _ _ _ _ _ counted (Nat.sub_add_cancel before)
    (Nat.sub_add_cancel after)
  have length : daysInYear (previous + 1) = 365 + if isLeap (previous + 1) then 1 else 0 := by
    rw [daysInYear]
    split <;> rfl
  rw [length]
  exact year

theorem daysBeforeYear_monotone : Monotone daysBeforeYear := by
  refine monotone_nat_of_le_succ fun year => ?_
  rcases Nat.eq_zero_or_pos year with rfl | positive
  · decide
  · rw [daysBeforeYear_succ positive]
    exact Nat.le_add_right _ _

theorem daysBeforeMonth_monotone (year : Nat) : Monotone (daysBeforeMonth year) :=
  monotone_nat_of_le_succ fun _ => Nat.le_add_right _ _

theorem daysBeforeMonth_year (year : Nat) : daysBeforeMonth year 13 = daysInYear year := by
  simp only [daysBeforeMonth, daysInMonth, daysInYear]
  split <;> omega

theorem daysBeforeYear_first : daysBeforeYear 1 = 0 := rfl

theorem one_le_maxYear : 1 ≤ maxYear := by
  unfold maxYear
  omega

theorem daysBeforeMonth_first (year : Nat) : daysBeforeMonth year 1 = 0 := rfl

namespace Datetime

variable {value : Datetime}

theorem Valid.day_inside (valid : value.Valid) :
    daysBeforeMonth value.year value.month + (value.day - 1) <
      daysBeforeMonth value.year (value.month + 1) := by
  have day := valid.day
  rw [daysBeforeMonth]
  omega

theorem Valid.ordinal_inside (valid : value.Valid) :
    value.ordinal < daysBeforeYear (value.year + 1) := by
  have inside := valid.day_inside
  have months := daysBeforeMonth_monotone value.year
    (show value.month + 1 ≤ 13 by have := valid.month; omega)
  rw [daysBeforeMonth_year] at months
  rw [daysBeforeYear_succ valid.year.1, ordinal]
  omega

theorem Valid.yearOf (valid : value.Valid) : yearOf value.ordinal = value.year := by
  refine lastStart_eq daysBeforeYear_monotone valid.year.2 ?_ valid.ordinal_inside
  rw [ordinal]
  omega

theorem Valid.monthOf (valid : value.Valid) :
    monthOf value.year (value.ordinal - daysBeforeYear value.year) = value.month := by
  have inside := valid.day_inside
  refine lastStart_eq (daysBeforeMonth_monotone value.year) valid.month.2 ?_ ?_ <;>
    rw [ordinal] <;> omega

theorem Valid.secondOfDay_lt (valid : value.Valid) : value.secondOfDay < 86400 := by
  have hour := valid.hour
  have minute := valid.minute
  have second := valid.second
  rw [secondOfDay]
  omega

/-- A datetime is found again at its instant. -/
theorem ofInstant_toInstant (valid : value.Valid) : ofInstant value.toInstant = value := by
  have clock := valid.secondOfDay_lt
  have second : value.toInstant / 1000000 = value.ordinal * 86400 + value.secondOfDay := by
    have below := valid.microsecond
    rw [toInstant]
    omega
  have day : value.toInstant / 1000000 / 86400 = value.ordinal := by
    rw [second]
    omega
  have ofDay : value.toInstant / 1000000 % 86400 = value.secondOfDay := by
    rw [second]
    omega
  have ofHour : value.toInstant / 1000000 % 3600 = value.minute * 60 + value.second := by
    have minute := valid.minute
    have seconds := valid.second
    rw [second, secondOfDay]
    omega
  have ofMinute : value.toInstant / 1000000 % 60 = value.second := by
    have seconds := valid.second
    rw [second, secondOfDay]
    omega
  have micro : value.toInstant % 1000000 = value.microsecond := by
    have below := valid.microsecond
    rw [toInstant]
    omega
  simp only [ofInstant, day, ofDay, ofHour, ofMinute, micro, valid.yearOf, valid.monthOf]
  have hour := valid.hour
  have minute := valid.minute
  have seconds := valid.second
  have days := valid.day
  cases value
  simp only [ordinal, secondOfDay, Datetime.mk.injEq, true_and, and_true] at *
  omega

theorem Valid.toInstant_lt (valid : value.Valid) : value.toInstant < endOfTime := by
  have inside := valid.ordinal_inside
  have clock := valid.secondOfDay_lt
  have micro := valid.microsecond
  have years : daysBeforeYear (value.year + 1) ≤ daysBeforeYear (maxYear + 1) :=
    daysBeforeYear_monotone (Nat.succ_le_succ valid.year.2)
  have days : value.ordinal + 1 ≤ daysBeforeYear (maxYear + 1) := Nat.le_trans inside years
  have scaled : (value.ordinal + 1) * 86400 * 1000000 ≤ endOfTime :=
    Nat.mul_le_mul_right _ (Nat.mul_le_mul_right _ days)
  refine Nat.lt_of_lt_of_le ?_ scaled
  rw [toInstant]
  omega

/-- Every instant before the end of time is the instant of a valid datetime. -/
theorem ofInstant_valid {instant : Nat} (inside : instant < endOfTime) :
    (ofInstant instant).Valid ∧ (ofInstant instant).toInstant = instant := by
  have days : instant / 1000000 / 86400 < daysBeforeYear (maxYear + 1) := by
    rw [Nat.div_lt_iff_lt_mul (by decide), Nat.div_lt_iff_lt_mul (by decide)]
    exact inside
  obtain ⟨firstYear, lastYear, yearBegun, yearRunning⟩ :=
    lastStart_spec daysBeforeYear_first one_le_maxYear days
  rw [daysBeforeYear_succ firstYear, ← daysBeforeMonth_year] at yearRunning
  have dayOfYear : instant / 1000000 / 86400 - daysBeforeYear (yearOf (instant / 1000000 / 86400)) <
      daysBeforeMonth (yearOf (instant / 1000000 / 86400)) 13 := by
    rw [Library.yearOf]
    omega
  obtain ⟨firstMonth, lastMonth, monthBegun, monthRunning⟩ :=
    lastStart_spec (daysBeforeMonth_first _) (by decide)
      (show _ < daysBeforeMonth _ (12 + 1) from dayOfYear)
  rw [daysBeforeMonth] at monthRunning
  constructor
  · refine ⟨⟨firstYear, lastYear⟩, ⟨firstMonth, lastMonth⟩, ⟨Nat.le_add_left _ _, ?_⟩,
      ?_, ?_, ?_, ?_⟩
    · exact Nat.succ_le_of_lt (Nat.sub_lt_left_of_lt_add monthBegun monthRunning)
    all_goals
      simp only [ofInstant]
      omega
  · have yearBegun : daysBeforeYear (Library.yearOf (instant / 1000000 / 86400)) ≤
      instant / 1000000 / 86400 := yearBegun
    simp only [toInstant, ordinal, secondOfDay, ofInstant, Library.monthOf, Nat.add_sub_cancel]
    omega

end Datetime

def writeDigits : Nat → Nat → List Char
  | 0, _ => []
  | width + 1, value => writeDigits width (value / 10) ++ [Nat.digitChar (value % 10)]

/-- Read as many digits as told. -/
def readDigits : Nat → List Char → Option (Nat × List Char)
  | 0, rest => some (0, rest)
  | width + 1, text =>
      match readDigits width text with
      | some (value, digit :: rest) =>
        if digit.isDigit then some (value * 10 + (digit.toNat - 48), rest) else none
      | _ => none

/-- Read digits behind a mark. -/
def readField (mark : Char → Bool) (width : Nat) : List Char → Option (Nat × List Char)
  | first :: rest => if mark first then readDigits width rest else none
  | [] => none

/-- A datetime with its minutes east of universal time, where it has them. -/
structure ZonedDatetime where
  datetime : Datetime
  offset : Option Int
deriving DecidableEq

namespace ZonedDatetime

def writeOffset : Option Int → List Char
  | none => []
  | some minutes => (if minutes < 0 then '-' else '+') :: writeDigits 2 (minutes.natAbs / 60) ++
      ':' :: writeDigits 2 (minutes.natAbs % 60)

def isoformat (value : ZonedDatetime) : String :=
  String.ofList (writeDigits 4 value.datetime.year ++ '-' :: writeDigits 2 value.datetime.month ++
    '-' :: writeDigits 2 value.datetime.day ++ 'T' :: writeDigits 2 value.datetime.hour ++
    ':' :: writeDigits 2 value.datetime.minute ++ ':' :: writeDigits 2 value.datetime.second ++
    '.' :: writeDigits 6 value.datetime.microsecond ++ writeOffset value.offset)

def readOffset : List Char → Option (Option Int)
  | [] => some none
  | ['Z'] => some (some 0)
  | sign :: rest => do
      let (hours, rest) ← readDigits 2 rest
      let (minutes, rest) ← readField (· = ':') 2 rest
      if rest = [] ∧ minutes < 60 ∧ hours < 24 then
        if sign = '+' then some (some (hours * 60 + minutes))
        else if sign = '-' then some (some (-(hours * 60 + minutes)))
        else none
      else none

/-- Read an extended text with microseconds.  Any character may stand between date and time. -/
def fromIsoformat (text : String) : Option ZonedDatetime := do
  let (year, rest) ← readDigits 4 text.toList
  let (month, rest) ← readField (· = '-') 2 rest
  let (day, rest) ← readField (· = '-') 2 rest
  let (hour, rest) ← readField (fun _ => true) 2 rest
  let (minute, rest) ← readField (· = ':') 2 rest
  let (second, rest) ← readField (· = ':') 2 rest
  let (microsecond, rest) ← readField (· = '.') 6 rest
  let offset ← readOffset rest
  let datetime : Datetime := { year, month, day, hour, minute, second, microsecond }
  if datetime.Valid then some { datetime, offset } else none

end ZonedDatetime

theorem readDigits_writeDigits (width value : Nat) (bounded : value < 10 ^ width)
    (rest : List Char) :
    readDigits width (writeDigits width value ++ rest) = some (value, rest) := by
  induction width generalizing value rest with
  | zero =>
      have zero : value = 0 := by simpa using bounded
      rw [zero]
      rfl
  | succ width ih =>
      have smaller : value / 10 < 10 ^ width := by
        rw [Nat.pow_succ] at bounded
        omega
      have digits : ∀ digit < 10, (Nat.digitChar digit).isDigit = true ∧
          (Nat.digitChar digit).toNat - 48 = digit := by
        decide
      obtain ⟨isDigit, read⟩ := digits (value % 10) (Nat.mod_lt _ (by decide))
      rw [writeDigits, List.append_assoc, readDigits, ih _ smaller]
      simp only [List.singleton_append, isDigit, if_true, read]
      congr 2
      omega

theorem readField_writeDigits {mark : Char → Bool} (first : Char) (width value : Nat)
    (marked : mark first = true) (bounded : value < 10 ^ width) (rest : List Char) :
    readField mark width (first :: (writeDigits width value ++ rest)) = some (value, rest) := by
  rw [readField, if_pos marked]
  exact readDigits_writeDigits width value bounded rest

theorem readField_mark (mark : Char) (width value : Nat) (bounded : value < 10 ^ width)
    (rest : List Char) :
    readField (fun first => decide (first = mark)) width
      (mark :: (writeDigits width value ++ rest)) = some (value, rest) :=
  readField_writeDigits mark width value (decide_eq_true rfl) bounded rest

theorem readField_any (first : Char) (width value : Nat) (bounded : value < 10 ^ width)
    (rest : List Char) :
    readField (fun _ => true) width (first :: (writeDigits width value ++ rest)) =
      some (value, rest) :=
  readField_writeDigits first width value rfl bounded rest

theorem daysInMonth_le (year month : Nat) : daysInMonth year month ≤ 31 := by
  unfold daysInMonth
  split <;> try split
  all_goals omega

namespace ZonedDatetime

theorem readOffset_signed (sign : Char) {hours minutes : Nat} (hour : hours < 24)
    (minute : minutes < 60) :
    readOffset (sign :: (writeDigits 2 hours ++ ':' :: writeDigits 2 minutes)) =
      if sign = '+' then some (some ((hours * 60 + minutes : Nat) : Int))
      else if sign = '-' then some (some (-((hours * 60 + minutes : Nat) : Int))) else none := by
  have first := readDigits_writeDigits 2 hours (by omega) (':' :: writeDigits 2 minutes)
  have second := readField_mark ':' 2 minutes (by omega) []
  rw [List.append_nil] at second
  have shape : ∃ digit rest, writeDigits 2 hours ++ ':' :: writeDigits 2 minutes = digit :: rest :=
    ⟨_, _, rfl⟩
  obtain ⟨digit, rest, shape⟩ := shape
  rw [shape] at first ⊢
  rw [readOffset]
  · simp only [first, second, Option.bind_eq_bind, Option.bind_some, minute, hour,
      true_and, if_true]
    rfl
  · intro _ impossible
    cases impossible

theorem readOffset_writeOffset {offset : Option Int}
    (bounded : ∀ minutes ∈ offset, minutes.natAbs < 1440) :
    readOffset (writeOffset offset) = some offset := by
  cases offset with
  | none => rfl
  | some minutes =>
      have small := bounded minutes rfl
      have whole : minutes.natAbs / 60 * 60 + minutes.natAbs % 60 = minutes.natAbs :=
        Nat.div_add_mod' _ _
      rw [writeOffset, List.cons_append, readOffset_signed _ (by omega) (Nat.mod_lt _ (by decide)),
        whole]
      by_cases negative : minutes < 0
      · rw [if_pos negative, if_neg (by decide), if_pos rfl,
          Int.ofNat_natAbs_of_nonpos (Int.le_of_lt negative), Int.neg_neg]
      · rw [if_neg negative, if_pos rfl, Int.natAbs_of_nonneg (Int.not_lt.mp negative)]

theorem fromIsoformat_isoformat {value : ZonedDatetime} (valid : value.datetime.Valid)
    (bounded : ∀ minutes ∈ value.offset, minutes.natAbs < 1440) :
      fromIsoformat value.isoformat = some value := by
  have year := readDigits_writeDigits 4 value.datetime.year (Nat.lt_succ_of_le valid.year.2)
  have lastDay := daysInMonth_le value.datetime.year value.datetime.month
  have month := readField_mark '-' 2 value.datetime.month (by have := valid.month; omega)
  have day := readField_mark '-' 2 value.datetime.day (by have := valid.day; omega)
  have hour := readField_any 'T' 2 value.datetime.hour (by have := valid.hour; omega)
  have minute := readField_mark ':' 2 value.datetime.minute (by have := valid.minute; omega)
  have second := readField_mark ':' 2 value.datetime.second (by have := valid.second; omega)
  have microsecond := readField_mark '.' 6 value.datetime.microsecond valid.microsecond
  have offset := readOffset_writeOffset bounded
  simp only [fromIsoformat, isoformat, String.toList_ofList, List.append_assoc, List.cons_append,
    year, month, day, hour,
    minute, second, microsecond, offset, Option.bind_eq_bind, Option.bind_some]
  exact if_pos valid

theorem fromIsoformat_valid (read : fromIsoformat text = some value) :
    value.datetime.Valid := by
  simp only [fromIsoformat, Option.bind_eq_bind, Option.bind_eq_some_iff] at read
  obtain ⟨_, _, _, _, _, _, _, _, _, _, _, _, _, _, _, _, read⟩ := read
  split at read
  · rename_i valid
    cases read
    exact valid
  · cases read

end ZonedDatetime

end MarketingAgents.Library
