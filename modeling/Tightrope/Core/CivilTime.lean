import Mathlib.Algebra.Order.Field.Rat
import Mathlib.Data.List.GetD
import Mathlib.Tactic.Linarith
import Tightrope.Core.Ascii

namespace Tightrope.Core.CivilTime

open Bytes

section Calendar

def isLeap (year : ℤ) : Bool := year % 4 = 0 && (year % 100 ≠ 0 || year % 400 = 0)

def daysInMonth (year : ℤ) (month : ℕ) : ℕ :=
  ([31, if isLeap year then 29 else 28, 31, 30, 31, 30, 31, 31, 30, 31, 30, 31] : List ℕ).getD (month - 1) 0

def daysBeforeYear (year : ℤ) : ℤ := 365 * (year - 1) + (year - 1) / 4 - (year - 1) / 100 + (year - 1) / 400

def daysBeforeMonth (year : ℤ) (month : ℕ) : ℕ := ((List.range' 1 (month - 1)).map (daysInMonth year)).sum

def epochDays (year : ℤ) (month : ℕ) (day : ℤ) : ℤ :=
  daysBeforeYear year + daysBeforeMonth year month + day - 1 - 719162

example : epochDays 2000 3 1 = 11017 := by decide

end Calendar

section GetTime

-- The fields of `std::tm` that the formats fill, by the year and the month as they are written.
structure Tm where
  year : ℕ := 1900
  month : ℕ := 1
  day : ℕ := 0
  hour : ℕ := 0
  minute : ℕ := 0
  second : ℕ := 0
  deriving DecidableEq

def timegm (tm : Tm) : ℤ :=
  epochDays tm.year tm.month tm.day * 86400 + tm.hour * 3600 + tm.minute * 60 + tm.second

-- `%Y %m %d %H %M %S`
inductive Field where
  | year
  | month
  | day
  | hour
  | minute
  | second
  deriving DecidableEq

def Field.digits : Field → ℕ
  | .year => 4
  | .month | .day | .hour | .minute | .second => 2

def Field.admits : Field → ℕ → Bool
  | .year, _ => true
  | .month, n => 1 ≤ n && n ≤ 12
  | .day, n => 1 ≤ n && n ≤ 31
  | .hour, n => n ≤ 23
  | .minute, n => n ≤ 59
  | .second, n => n ≤ 60

def Tm.set (tm : Tm) : Field → ℕ → Tm
  | .year, n => { tm with year := n }
  | .month, n => { tm with month := n }
  | .day, n => { tm with day := n }
  | .hour, n => { tm with hour := n }
  | .minute, n => { tm with minute := n }
  | .second, n => { tm with second := n }

def isDigit (c : UInt8) : Bool := 48 ≤ c && c ≤ 57

def readDigits (count : ℕ) (text : Bytes) : Option (ℕ × Bytes) :=
  let digits := (text.take count).takeWhile isDigit
  if digits = [] then none
  else some (digits.foldl (fun n c => n * 10 + (c.toNat - 48)) 0, text.drop digits.length)

inductive FormatItem where
  | field (field : Field)
  | blank
  | literal (c : UInt8)
  deriving DecidableEq

def toUpper (c : UInt8) : UInt8 := if 97 ≤ c ∧ c ≤ 122 then c - 32 else c

def getTime : List FormatItem → Bytes → Tm → Option Tm
  | [], _, tm => some tm
  | _ :: _, [], _ => none
  | .field field :: format, text, tm =>
    match readDigits field.digits text with
    | none => none
    | some (n, rest) =>
      if field.admits n then if rest = [] then some (tm.set field n) else getTime format rest (tm.set field n)
      else none
  | .blank :: format, text, tm => getTime format (text.dropWhile isSpace) tm
  | .literal c :: format, b :: text, tm => if toUpper b = toUpper c then getTime format text tm else none

end GetTime

section Stamps

inductive Zone where
  | unmarked
  | utc (lower : Bool)
  | offset (behind : Bool) (hours minutes : ℕ) (colon : Bool)
  deriving DecidableEq

structure ClockTime where
  separator : UInt8
  hour : ℕ
  minute : ℕ
  -- The second and the digits of its fraction.
  second : Option (ℕ × List ℕ)
  zone : Zone
  deriving DecidableEq

structure Stamp where
  year : ℕ
  month : ℕ
  day : ℕ
  time : Option ClockTime
  deriving DecidableEq

def digit (n : ℕ) : UInt8 := UInt8.ofNat (48 + n % 10)

def twoDigits (n : ℕ) : Bytes := [digit (n / 10), digit n]

def fourDigits (n : ℕ) : Bytes := [digit (n / 1000), digit (n / 100), digit (n / 10), digit n]

def Zone.text : Zone → Bytes
  | .unmarked => []
  | .utc lower => [if lower then 122 else 90]
  | .offset behind hours minutes colon =>
    (if behind then 45 else 43) :: twoDigits hours ++ (if colon then [58] else []) ++ twoDigits minutes

def fractionText (fraction : List ℕ) : Bytes := if fraction = [] then [] else 46 :: fraction.map digit

def secondText : Option (ℕ × List ℕ) → Bytes
  | none => []
  | some (second, fraction) => 58 :: twoDigits second ++ fractionText fraction

def ClockTime.text (time : ClockTime) : Bytes :=
  time.separator :: twoDigits time.hour ++ 58 :: twoDigits time.minute ++ secondText time.second ++ time.zone.text

def Stamp.text (stamp : Stamp) : Bytes :=
  fourDigits stamp.year ++ 45 :: twoDigits stamp.month ++ 45 :: twoDigits stamp.day ++
    (stamp.time.map ClockTime.text).getD []

def Zone.Valid : Zone → Prop
  | .unmarked | .utc _ => True
  | .offset _ hours minutes _ => hours ≤ 23 ∧ minutes ≤ 59

structure ClockTime.Valid (time : ClockTime) : Prop where
  separator : time.separator = 32 ∨ time.separator = 84 ∨ time.separator = 116
  hour : time.hour ≤ 23
  minute : time.minute ≤ 59
  second : ∀ second fraction, time.second = some (second, fraction) → second ≤ 59 ∧ ∀ d ∈ fraction, d ≤ 9
  zone : time.zone.Valid

/-- The date is in the calendar, and the time of day on the clock. -/
structure Stamp.Valid (stamp : Stamp) : Prop where
  year : stamp.year ≤ 9999
  month : 1 ≤ stamp.month ∧ stamp.month ≤ 12
  day : 1 ≤ stamp.day ∧ stamp.day ≤ daysInMonth stamp.year stamp.month
  time : ∀ time, stamp.time = some time → time.Valid

def Zone.ahead : Zone → ℤ
  | .unmarked | .utc _ => 0
  | .offset behind hours minutes _ => (if behind then -1 else 1) * (hours * 3600 + minutes * 60)

def fractionValue (fraction : List ℕ) : ℚ := fraction.foldr (fun (d : ℕ) (rest : ℚ) => (d + rest) / 10) 0

def Stamp.clock (stamp : Stamp) : ℤ :=
  epochDays stamp.year stamp.month stamp.day * 86400 +
    (stamp.time.map fun time => (time.hour * 3600 + time.minute * 60 + (time.second.map Prod.fst).getD 0 : ℤ)).getD 0

def Stamp.instant (stamp : Stamp) : ℚ :=
  stamp.clock - ((stamp.time.map fun time => time.zone.ahead).getD 0 : ℤ) +
    fractionValue ((stamp.time.bind fun time => time.second.map Prod.snd).getD [])

end Stamps

section Reading

variable {n : ℕ} {rest : Bytes} {tm : Tm} {format : List FormatItem}

@[simp] theorem digit_toNat (n : ℕ) : (digit n).toNat = 48 + n % 10 := by
  rw [digit, UInt8.toNat_ofNat']
  omega

@[simp] theorem isDigit_digit (n : ℕ) : isDigit (digit n) = true := by
  simp only [isDigit, UInt8.le_iff_toNat_le, digit_toNat, UInt8.reduceToNat, Bool.and_eq_true, decide_eq_true_eq]
  omega

@[simp] theorem isSpace_digit (n : ℕ) : isSpace (digit n) = false := by
  simp only [isSpace, UInt8.le_iff_toNat_le, ← UInt8.toNat_inj, digit_toNat, UInt8.reduceToNat, Bool.or_eq_false_iff,
    Bool.and_eq_false_iff, decide_eq_false_iff_not]
  omega

theorem readDigits_two (h : n < 100) (rest : Bytes) : readDigits 2 (twoDigits n ++ rest) = some (n, rest) := by
  simp only [readDigits, twoDigits, List.cons_append, List.nil_append, List.take_succ_cons, List.take_zero,
    List.takeWhile_cons, isDigit_digit, if_true, List.takeWhile_nil, List.foldl_cons, List.foldl_nil, digit_toNat,
    List.length_cons, List.length_nil, List.drop_succ_cons, List.drop_zero]
  rw [if_neg (List.cons_ne_nil _ _)]
  congr 2
  omega

theorem readDigits_four (h : n < 10000) (rest : Bytes) : readDigits 4 (fourDigits n ++ rest) = some (n, rest) := by
  simp only [readDigits, fourDigits, List.cons_append, List.nil_append, List.take_succ_cons, List.take_zero,
    List.takeWhile_cons, isDigit_digit, if_true, List.takeWhile_nil, List.foldl_cons, List.foldl_nil, digit_toNat,
    List.length_cons, List.length_nil, List.drop_succ_cons, List.drop_zero]
  rw [if_neg (List.cons_ne_nil _ _)]
  congr 2
  omega

theorem getTime_two {field : Field} (hdigits : field.digits = 2) (hadmits : field.admits n = true) (h : n < 100) :
    getTime (.field field :: format) (twoDigits n ++ rest) tm =
      if rest = [] then some (tm.set field n) else getTime format rest (tm.set field n) := by
  have hread := readDigits_two h rest
  rw [twoDigits, List.cons_append] at hread ⊢
  rw [getTime, hdigits, hread]
  · exact if_pos hadmits
  · exact List.cons_ne_nil _ _

theorem getTime_four (h : n < 10000) :
    getTime (.field .year :: format) (fourDigits n ++ rest) tm =
      if rest = [] then some (tm.set .year n) else getTime format rest (tm.set .year n) := by
  have hread := readDigits_four h rest
  rw [fourDigits, List.cons_append] at hread ⊢
  rw [getTime, Field.digits, hread]
  · rfl
  · exact List.cons_ne_nil _ _

theorem getTime_literal (c : UInt8) (rest : Bytes) : getTime (.literal c :: format) (c :: rest) tm =
    getTime format rest tm :=
  if_pos rfl

def dateItems : List FormatItem := [.field .year, .literal 45, .field .month, .literal 45, .field .day]

def clockItems : List FormatItem := [.field .hour, .literal 58, .field .minute, .literal 58, .field .second]

def dateText (stamp : Stamp) : Bytes :=
  fourDigits stamp.year ++ 45 :: twoDigits stamp.month ++ 45 :: twoDigits stamp.day

def dateTm (stamp : Stamp) : Tm := { year := stamp.year, month := stamp.month, day := stamp.day }

theorem daysInMonth_le (year : ℤ) (month : ℕ) : daysInMonth year month ≤ 31 := by
  unfold daysInMonth
  have hall : ∀ d ∈ ([31, if isLeap year then 29 else 28, 31, 30, 31, 30, 31, 31, 30, 31, 30, 31] : List ℕ),
      d ≤ 31 := by
    cases isLeap year <;> decide
  by_cases hmonth : month - 1 < 12
  · rw [List.getD_eq_getElem _ _ hmonth]
    exact hall _ (List.getElem_mem _)
  · rw [List.getD_eq_default _ _ (Nat.le_of_not_lt hmonth)]
    decide

theorem getTime_date {stamp : Stamp} (h : stamp.Valid) (format : List FormatItem) (rest : Bytes) :
    getTime (dateItems ++ format) (dateText stamp ++ rest) {} =
      if rest = [] then some (dateTm stamp) else getTime format rest (dateTm stamp) := by
  have hmonth : (Field.month).admits stamp.month = true := by simpa [Field.admits] using h.month
  have hday : (Field.day).admits stamp.day = true := by
    have hle := h.day.2.trans (daysInMonth_le stamp.year stamp.month)
    simpa [Field.admits] using ⟨h.day.1, hle⟩
  simp only [dateItems, dateText, List.cons_append, List.nil_append, List.append_assoc]
  rw [getTime_four (by have := h.year; omega), if_neg (List.cons_ne_nil _ _), getTime_literal,
    getTime_two rfl hmonth (by have := h.month; omega), if_neg (List.cons_ne_nil _ _), getTime_literal,
    getTime_two rfl hday (by have := daysInMonth_le stamp.year stamp.month; have := h.day; omega)]
  rfl

theorem getTime_minute {hour minute : ℕ} (hhour : hour ≤ 23) (hminute : minute ≤ 59) (rest : Bytes) (tm : Tm) :
    getTime clockItems (twoDigits hour ++ 58 :: twoDigits minute ++ rest) tm =
      if rest = [] then some { tm with hour, minute }
      else getTime [.literal 58, .field .second] rest { tm with hour, minute } := by
  have hhour' : (Field.hour).admits hour = true := by simpa [Field.admits] using hhour
  have hminute' : (Field.minute).admits minute = true := by simpa [Field.admits] using hminute
  simp only [clockItems, List.cons_append, List.append_assoc]
  rw [getTime_two rfl hhour' (by omega), if_neg (List.cons_ne_nil _ _), getTime_literal,
    getTime_two rfl hminute' (by omega)]
  rfl

theorem getTime_second {second : ℕ} (h : second ≤ 59) (rest : Bytes) (tm : Tm) :
    getTime [.literal 58, .field .second] (58 :: twoDigits second ++ rest) tm = some { tm with second } := by
  have hsecond : (Field.second).admits second = true := by
    simp only [Field.admits, decide_eq_true_eq]
    omega
  rw [List.cons_append, getTime_literal, getTime_two rfl hsecond (by omega)]
  split_ifs
  · rfl
  · rfl

theorem getTime_of_ne {c d : UInt8} (h : toUpper d ≠ toUpper c) (rest : Bytes) :
    getTime (.literal c :: format) (d :: rest) tm = none :=
  if_neg h

def timeTm (tm : Tm) (time : ClockTime) : Tm :=
  { tm with hour := time.hour, minute := time.minute, second := (time.second.map Prod.fst).getD 0 }

theorem getTime_clock {time : ClockTime} (h : time.Valid) {rest : Bytes} (hrest : ∀ c ∈ rest.head?, toUpper c ≠ 58)
    (tm : Tm) (htm : tm.second = 0) :
    getTime clockItems (twoDigits time.hour ++ 58 :: twoDigits time.minute ++ (secondText time.second ++ rest)) tm =
      if time.second = none ∧ rest ≠ [] then none else some (timeTm tm time) := by
  rw [getTime_minute h.hour h.minute]
  cases hsecond : time.second with
  | none =>
    rw [secondText, List.nil_append]
    cases rest with
    | nil => simp [timeTm, hsecond, ← htm]
    | cons c rest =>
      rw [if_neg (List.cons_ne_nil _ _), if_pos ⟨rfl, List.cons_ne_nil _ _⟩]
      exact getTime_of_ne (hrest c rfl) rest
  | some value =>
    obtain ⟨second, fraction⟩ := value
    rw [secondText, List.append_assoc, if_neg (by simp), if_neg (by simp),
      getTime_second (h.second second fraction hsecond).1]
    simp [timeTm, hsecond]

end Reading

end Tightrope.Core.CivilTime
