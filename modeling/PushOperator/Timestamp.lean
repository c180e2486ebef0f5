import PushOperator.Text.CharSet

/-!
# Timestamps

Moments are read from ISO 8601 text with an offset and written in universal time, to the second or
to the microsecond. Reading is lenient in the way of the Kubernetes API: numbers may have fewer
digits than usual, blanks may stand around the separators, and `UTC` does for an offset. The date
has to be in the calendar both as it is written and in universal time.
-/

namespace PushOperator

/-- A moment in universal time. `second` is 60 in a leap second. -/
structure Timestamp where
  year : Int
  month : Nat
  day : Nat
  hour : Nat
  minute : Nat
  second : Nat
  nanosecond : Nat
  deriving DecidableEq, Inhabited

namespace Timestamp

/-! ## The calendar -/

/-- Days from the first of March of year 0 to a date. -/
def daysOfDate (year : Int) (month day : Nat) : Int :=
  let y := if month ≤ 2 then year - 1 else year
  let m : Int := (month + 9) % 12
  365 * y + Int.fdiv y 4 - Int.fdiv y 100 + Int.fdiv y 400 + Int.fdiv (153 * m + 2) 5 + day - 1

/-- The date a number of days after the first of March of year 0. -/
def dateOfDays (days : Int) : Int × Nat × Nat :=
  let era := Int.fdiv days 146097
  let dayOfEra := (days - era * 146097).toNat
  let yearOfEra := (dayOfEra - dayOfEra / 1460 + dayOfEra / 36524 - dayOfEra / 146096) / 365
  let dayOfYear := dayOfEra - (365 * yearOfEra + yearOfEra / 4 - yearOfEra / 100)
  let m := (5 * dayOfYear + 2) / 153
  let day := dayOfYear - (153 * m + 2) / 5 + 1
  let month := if m < 10 then m + 3 else m - 9
  (era * 400 + yearOfEra + (if month ≤ 2 then 1 else 0), month, day)

/-- Whether a year is in the calendar, which spans about a quarter of a million years either way. -/
def isYear (year : Int) : Bool := -262143 ≤ year && year ≤ 262142

def isDate (year : Int) (month day : Nat) : Bool :=
  isYear year && 1 ≤ month && month ≤ 12 && 1 ≤ day && day ≤ 31 &&
    dateOfDays (daysOfDate year month day) == (year, month, day)

/-! ## Reading -/

/-- A reader takes characters from the front of a text. -/
abbrev Reader := StateT (List Char) Option

def skipBlank : Reader Unit := modify Text.trimStart

def take (c : Char) : Reader Unit := do
  match ← get with
  | d :: rest => if c = d then set rest else failure
  | [] => failure

/-- Takes one or more digits, at most `most` of them. -/
def number (most : Nat) : Reader Nat := do
  let digits := ((← get).take most).takeWhile Char.isDigit
  if digits.isEmpty then failure
  modify (·.drop digits.length)
  return digits.foldl (fun n c => n * 10 + (c.toNat - 48)) 0

/-- Takes a year: four digits at most, or any number of them after a sign. -/
def yearNumber : Reader Int := do
  skipBlank
  let s ← get
  match s with
  | '-' :: rest => set rest; return -(← number s.length)
  | '+' :: rest => set rest; return ← number s.length
  | _ => return ← number 4

/-- Takes two digits or one, after blanks. -/
def shortNumber : Reader Nat := do skipBlank; number 2

def fraction : Reader Nat := do
  match ← get with
  | '.' :: rest =>
    let digits := rest.takeWhile Char.isDigit
    if digits.isEmpty then failure
    set (rest.dropWhile Char.isDigit)
    return ((digits ++ List.replicate 9 '0').take 9).foldl (fun n c => n * 10 + (c.toNat - 48)) 0
  | _ => return 0

def twoDigits : Reader Nat := do
  match ← get with
  | a :: b :: rest =>
    if a.isDigit && b.isDigit then
      set rest
      return (a.toNat - 48) * 10 + (b.toNat - 48)
    else failure
  | _ => failure

/-- Takes an offset from universal time, in minutes. -/
def offset : Reader Int := do
  skipBlank
  match ← get with
  | 'Z' :: rest | 'z' :: rest => set rest; return 0
  | c :: rest =>
    if (c :: rest.take 2).map Char.toUpper = ['U', 'T', 'C'] then
      set (rest.drop 2)
      return 0
    if c ≠ '+' ∧ c ≠ '-' ∧ c ≠ '−' then failure
    set rest
    let hours ← twoDigits
    modify (·.dropWhile fun c => c = ':' || CharSet.blank.contains c)
    let minutes ← twoDigits
    if 60 ≤ minutes ∨ 24 ≤ hours then failure
    let total : Int := hours * 60 + minutes
    return if c = '+' then total else -total
  | [] => failure

def moment : Reader Timestamp := do
  let year ← yearNumber
  skipBlank; take '-'
  let month ← shortNumber
  skipBlank; take '-'
  let day ← shortNumber
  match ← get with
  | 'T' :: rest | 't' :: rest | ' ' :: rest => set rest
  | _ => failure
  let hour ← shortNumber
  skipBlank; take ':'
  let minute ← shortNumber
  skipBlank; take ':'
  let second ← shortNumber
  let nanosecond ← fraction
  let offset ← offset
  if !isDate year month day || 24 ≤ hour || 60 ≤ minute || 61 ≤ second then failure
  let minutes := daysOfDate year month day * 1440 + hour * 60 + minute - offset
  let (year, month, day) := dateOfDays (Int.fdiv minutes 1440)
  if !isYear year then failure
  let rest := (Int.fmod minutes 1440).toNat
  return { year, month, day, hour := rest / 60, minute := rest % 60, second, nanosecond }

def parse? (s : String) : Option Timestamp := do
  let (t, rest) ← moment.run s.toList
  if (Text.trimStart rest).isEmpty then some t else none

/-! ## Writing -/

/-- A number with zeros in front, to at least `width` digits. -/
def padded (width n : Nat) : String :=
  let digits := toString n
  String.ofList (List.replicate (width - digits.length) '0') ++ digits

/-- The year: four digits, or a sign and at least four digits outside the years 0 to 9999. -/
def yearText (year : Int) : String :=
  if year < 0 then "-" ++ padded 4 year.natAbs
  else if 9999 < year then "+" ++ padded 4 year.natAbs
  else padded 4 year.natAbs

def civil (t : Timestamp) : String :=
  yearText t.year ++ "-" ++ padded 2 t.month ++ "-" ++ padded 2 t.day ++ "T" ++ padded 2 t.hour ++
    ":" ++ padded 2 t.minute ++ ":" ++ padded 2 t.second

def toSeconds (t : Timestamp) : String := t.civil ++ "Z"

def toMicroseconds (t : Timestamp) : String :=
  t.civil ++ "." ++ padded 6 (t.nanosecond / 1000) ++ "Z"

end Timestamp

end PushOperator
