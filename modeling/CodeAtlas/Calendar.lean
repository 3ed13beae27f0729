import CodeAtlas.Decimal.Notation
import CodeAtlas.Text.Basic
import CodeAtlas.Json.Number

/-!
Instants of the calendar, in nanoseconds since the first of January 1970 in Universal Time, and how they are
written: `2024-05-01T12:30:00.25Z`. Reading takes any offset from Universal Time, a blank in place of the
`T`, and blanks before a number or a colon.
-/
namespace CodeAtlas

/-- An instant in nanoseconds since 1970. -/
abbrev Instant := Int

namespace Instant

/-- The days of four hundred years. -/
def eraDays : Nat := 146097

/-- Days from the first of March of the year zero to the first of January 1970. -/
def epochDay : Nat := 719468

/-- Days from the start of an era to the start of one of its years. -/
def yearStart (y : Nat) : Nat := 365 * y + y / 4 - y / 100

/-- Days from the first of March to the start of a month, counted from March. -/
def monthStart (m : Nat) : Nat := (153 * m + 2) / 5

/-- Days from the first of January 1970 to a date. Years count from March, so that the leap day ends one. -/
def dayNumber (year : Int) (month day : Nat) : Int :=
  let y := if month ≤ 2 then year - 1 else year
  let dayOfYear := monthStart ((month + 9) % 12) + day - 1
  y / 400 * eraDays + (yearStart (y % 400).toNat + dayOfYear : Nat) - epochDay

/-- Whether a year has a leap day. -/
def isLeap (year : Int) : Bool := year % 4 == 0 && (year % 100 != 0 || year % 400 == 0)

/-- The number of days of a month. -/
def monthLength (year : Int) (month : Nat) : Nat :=
  if month = 2 then (if isLeap year then 29 else 28)
  else if month = 4 ∨ month = 6 ∨ month = 9 ∨ month = 11 then 30 else 31

/-- Skip white space. -/
def skipBlanks (cs : List Char) : List Char := cs.dropWhile Text.isBlank

/-- Read from one to `most` digits. -/
def number? (most : Nat) (cs : List Char) : Option (Nat × List Char) :=
  let digits := (cs.take most).takeWhile Char.isDigit
  if digits.isEmpty then none else some (Json.digitsValue digits, cs.drop digits.length)

/-- Read two digits, after white space. -/
def two? (cs : List Char) : Option (Nat × List Char) := number? 2 (skipBlanks cs)

/-- Read a year: up to four digits, or any number of them after a sign. -/
def year? (cs : List Char) : Option (Int × List Char) :=
  match skipBlanks cs with
  | '-' :: rest => (number? rest.length rest).map fun (n, rest) => (-(n : Int), rest)
  | '+' :: rest => (number? rest.length rest).map fun (n, rest) => ((n : Int), rest)
  | rest => (number? 4 rest).map fun (n, rest) => ((n : Int), rest)

/-- Read a mark, after white space. -/
def mark? (c : Char) (cs : List Char) : Option (List Char) :=
  match skipBlanks cs with
  | d :: rest => if d = c then some rest else none
  | [] => none

/-- Read a fraction of a second in nanoseconds; digits after the ninth are passed over. -/
def fraction? (cs : List Char) : Option (Nat × List Char) :=
  match cs with
  | '.' :: rest =>
    let digits := rest.takeWhile Char.isDigit
    if digits.isEmpty then none
    else
      let nine := (digits ++ List.replicate 9 '0').take 9
      some (Json.digitsValue nine, rest.drop digits.length)
  | _ => some (0, cs)

/-- Skip colons and white space. -/
def skipColons (cs : List Char) : List Char := cs.dropWhile fun c => c == ':' || Text.isBlank c

/-- Read the offset from Universal Time in seconds. -/
def offset? (cs : List Char) : Option (Int × List Char) := do
  match cs with
  | 'Z' :: rest => return (0, rest)
  | 'z' :: rest => return (0, rest)
  | sign :: rest =>
    if (cs.take 3).map Char.toUpper == ['U', 'T', 'C'] then return (0, cs.drop 3)
    let sign : Int ← if sign = '+' then some 1 else if sign = '-' ∨ sign = '−' then some (-1) else none
    match rest with
    | a :: b :: rest =>
      if !(a.isDigit && b.isDigit) then none
      match skipColons rest with
      | c :: d :: rest =>
        if !('0' ≤ c && c ≤ '5' && d.isDigit) then none
        return (sign * (Json.digitsValue [a, b] * 3600 + Json.digitsValue [c, d] * 60), rest)
      | _ => none
    | _ => none
  | [] => none

/-- The instant at a date, a time of day and an offset, if there is one. A minute may have a leap second. -/
def ofParts? (year : Int) (month day hour minute second nanos : Nat) (offset : Int) : Option Instant :=
  if -262143 ≤ year ∧ year ≤ 262142 ∧ 1 ≤ month ∧ month ≤ 12 ∧ 1 ≤ day ∧ day ≤ monthLength year month ∧
      hour ≤ 23 ∧ minute ≤ 59 ∧ second ≤ 60 ∧ offset.natAbs < 86400 then
    some ((dayNumber year month day * 86400 + hour * 3600 + minute * 60 + second - offset) * 1000000000 +
      nanos)
  else none

/-- Read an instant. -/
def read? (text : String) : Option Instant := do
  let (year, cs) ← year? text.toList
  let (month, cs) ← two? (← mark? '-' cs)
  let (day, cs) ← two? (← mark? '-' cs)
  let cs ← match cs with
    | 'T' :: rest => some rest
    | 't' :: rest => some rest
    | ' ' :: rest => some rest
    | _ => none
  let (hour, cs) ← two? cs
  let (minute, cs) ← two? (← mark? ':' cs)
  let (second, cs) ← two? (← mark? ':' cs)
  let (nanos, cs) ← fraction? cs
  let (offset, cs) ← offset? (skipBlanks cs)
  if (skipBlanks cs).isEmpty then ofParts? year month day hour minute second nanos offset else none

/-- The year of an era that one of its days lies in. -/
def yearOfEra (day : Nat) : Nat := (day - day / 1460 + day / 36524 - day / 146096) / 365

/-- The month of a day of a year, both counted from March. -/
def marchMonth (day : Nat) : Nat := (5 * day + 2) / 153

/-- The month of the calendar that a month counted from March is. -/
def calendarMonth (m : Nat) : Nat := if m < 10 then m + 3 else m - 9

/-- The year of the calendar that a year counted from March is for one of its months. -/
def calendarYear (year : Int) (m : Nat) : Int := if calendarMonth m ≤ 2 then year + 1 else year

/-- The date of a day, counted from the first of January 1970. -/
def dateOf (days : Int) : Int × Nat × Nat :=
  let shifted := days + epochDay
  let dayOfEra := (shifted % eraDays).toNat
  let dayOfYear := dayOfEra - yearStart (yearOfEra dayOfEra)
  let m := marchMonth dayOfYear
  (calendarYear (yearOfEra dayOfEra + shifted / eraDays * 400) m, calendarMonth m,
    dayOfYear - monthStart m + 1)

/-- A number with zeros in front, up to a width. -/
def padded (width n : Nat) : String :=
  let digits := Decimal.natText n
  Decimal.zeros (width - digits.length) ++ digits

/-- A year as text, with a sign when it has not four digits. -/
def yearText (year : Int) : String :=
  if 0 ≤ year ∧ year ≤ 9999 then padded 4 year.toNat
  else if year < 0 then "-" ++ padded 4 year.natAbs
  else "+" ++ padded 5 year.toNat

/-- A fraction of a second as text: none, or three, six or nine digits. -/
def fractionText (nanos : Nat) : String :=
  if nanos = 0 then ""
  else if nanos % 1000000 = 0 then "." ++ padded 3 (nanos / 1000000)
  else if nanos % 1000 = 0 then "." ++ padded 6 (nanos / 1000)
  else "." ++ padded 9 nanos

/-- An instant as text, in Universal Time. -/
def text (i : Instant) : String :=
  let seconds := i / 1000000000
  let (year, month, day) := dateOf (seconds / 86400)
  let s := (seconds % 86400).toNat
  yearText year ++ "-" ++ padded 2 month ++ "-" ++ padded 2 day ++ "T" ++ padded 2 (s / 3600) ++ ":" ++
    padded 2 (s / 60 % 60) ++ ":" ++ padded 2 (s % 60) ++ fractionText (i % 1000000000).toNat ++ "Z"

end Instant
end CodeAtlas
