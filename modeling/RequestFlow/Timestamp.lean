import RequestFlow.Number.Literal
import RequestFlow.Text.Blank

/-!
# Moments in time

The date and the time of day of a moment in UTC, to the nanosecond, and their text. A text is
read more freely than it is written: the time of day may stand behind a blank, numbers need no
leading zeros, blanks may stand between the parts, and the time may be that of another zone, whose
offset is then taken off. The second 60 is a leap second.

* `Timestamp.text`: the text of a moment;
* `Timestamp.parse?`: the moment of a text.
-/

namespace RequestFlow

/-- A day of the calendar. -/
structure Date where
  year : Int
  month : Nat
  day : Nat
deriving DecidableEq, Repr, Inhabited

namespace Date

/-- The year has a 29th of February. -/
def isLeap (year : Int) : Bool := year % 4 == 0 && (year % 100 != 0 || year % 400 == 0)

/-- The number of days of a month. -/
def monthLength (year : Int) : Nat → Nat
  | 2 => if isLeap year then 29 else 28
  | 4 | 6 | 9 | 11 => 30
  | _ => 31

/-- The day exists, in a year that is within reach. -/
def isValid (date : Date) : Bool :=
  -262143 ≤ date.year && date.year ≤ 262142 && 1 ≤ date.month && date.month ≤ 12 &&
    1 ≤ date.day && date.day ≤ monthLength date.year date.month

/-- The day after. -/
def next (date : Date) : Date :=
  if date.day < monthLength date.year date.month then { date with day := date.day + 1 }
  else if date.month < 12 then ⟨date.year, date.month + 1, 1⟩
  else ⟨date.year + 1, 1, 1⟩

/-- The day before. -/
def previous (date : Date) : Date :=
  if 1 < date.day then { date with day := date.day - 1 }
  else if 1 < date.month then
    ⟨date.year, date.month - 1, monthLength date.year (date.month - 1)⟩
  else ⟨date.year - 1, 12, 31⟩

end Date

/-- A moment in UTC. -/
structure Timestamp where
  date : Date
  hour : Nat
  minute : Nat
  second : Nat
  nano : Nat
deriving DecidableEq, Repr, Inhabited

namespace Timestamp

/-- The first moment of 1970. -/
def epoch : Timestamp := ⟨⟨1970, 1, 1⟩, 0, 0, 0, 0⟩

/-- The moment exists. -/
def isValid (time : Timestamp) : Bool :=
  time.date.isValid && time.hour < 24 && time.minute < 60 && time.second ≤ 60 &&
    time.nano < 1000000000

/-! ## Writing -/

/-- A number with zeros in front, up to a width. -/
def padded (width n : Nat) : List Char :=
  let digits := Nat.toDigits 10 n
  List.replicate (width - digits.length) '0' ++ digits

/-- A year: four digits, and a sign in front where they are not enough. -/
def yearText (year : Int) : List Char :=
  if year < 0 then '-' :: padded 4 year.natAbs
  else if year ≤ 9999 then padded 4 year.natAbs
  else '+' :: padded 4 year.natAbs

/-- The date of a moment. -/
def dateText (time : Timestamp) : List Char :=
  yearText time.date.year ++ '-' :: padded 2 time.date.month ++ '-' :: padded 2 time.date.day

/-- The time of day of a moment, in whole seconds. -/
def clockText (time : Timestamp) : List Char :=
  padded 2 time.hour ++ ':' :: padded 2 time.minute ++ ':' :: padded 2 time.second

/-- A fraction of a second: three, six or nine digits, as few as tell it, or none for zero. -/
def fractionText (nano : Nat) : List Char :=
  if nano = 0 then []
  else if nano % 1000000 = 0 then '.' :: padded 3 (nano / 1000000)
  else if nano % 1000 = 0 then '.' :: padded 6 (nano / 1000)
  else '.' :: padded 9 nano

/-- The text of a moment. -/
def text (time : Timestamp) : String :=
  String.ofList (time.dateText ++ 'T' :: time.clockText ++ fractionText time.nano ++ ['Z'])

/-! ## Reading -/

/-- Digits at the front of a text, at most `width` of them, and what follows. -/
def digits? (width : Nat) (cs : List Char) : Option (List Char × List Char) :=
  let front := (cs.take width).takeWhile Char.isDigit
  if front.isEmpty then none else some (front, cs.drop front.length)

/-- A number of at most `width` digits after blanks, and what follows. -/
def number? (width : Nat) (cs : List Char) : Option (Nat × List Char) :=
  (digits? width (Text.trimStart cs)).map fun (front, rest) => (Number.digitsValue front, rest)

/-- A year, with any number of digits behind a sign and at most four without, and what follows. -/
def year? (cs : List Char) : Option (Int × List Char) :=
  match Text.trimStart cs with
  | '-' :: rest =>
    (digits? rest.length rest).map fun (front, rest) => (-(Number.digitsValue front : Int), rest)
  | '+' :: rest =>
    (digits? rest.length rest).map fun (front, rest) => ((Number.digitsValue front : Int), rest)
  | cs => (digits? 4 cs).map fun (front, rest) => ((Number.digitsValue front : Int), rest)

/-- What follows a mark after blanks. -/
def mark? (mark : Char) (cs : List Char) : Option (List Char) :=
  match Text.trimStart cs with
  | c :: rest => if c = mark then some rest else none
  | [] => none

/-- The nanoseconds of a fraction: nine digits count, and none may be missing after the point. -/
def fraction? (cs : List Char) : Option (Nat × List Char) :=
  match cs with
  | '.' :: cs => do
    let (front, rest) ← digits? 9 cs
    return (Number.digitsValue front * Nat.pow 10 (9 - front.length), rest.dropWhile Char.isDigit)
  | cs => some (0, cs)

/-- Hours and minutes of an offset, in minutes, and what follows. -/
def offsetSize? (cs : List Char) : Option (Nat × List Char) := do
  let (hours, rest) ← digits? 2 cs
  if hours.length != 2 then none
  let rest := rest.dropWhile fun c => c = ':' || Text.isBlank c
  let (minutes, rest) ← digits? 2 rest
  if minutes.length != 2 then none
  let (hours, minutes) := (Number.digitsValue hours, Number.digitsValue minutes)
  if hours < 24 && minutes < 60 then some (60 * hours + minutes, rest) else none

/-- The offset of a zone in minutes, and what follows. -/
def offset? (cs : List Char) : Option (Int × List Char) :=
  match cs with
  | 'Z' :: rest | 'z' :: rest => some (0, rest)
  | '+' :: rest => (offsetSize? rest).map fun (size, rest) => ((size : Int), rest)
  | '-' :: rest | '\u2212' :: rest => (offsetSize? rest).map fun (size, rest) => (-(size : Int), rest)
  | cs =>
    if (cs.take 3).map Char.toLower = ['u', 't', 'c'] then some (0, cs.drop 3) else none

/-- A date, and what follows. -/
def date? (cs : List Char) : Option (Date × List Char) := do
  let (year, rest) ← year? cs
  let (month, rest) ← number? 2 (← mark? '-' rest)
  let (day, rest) ← number? 2 (← mark? '-' rest)
  return (⟨year, month, day⟩, rest)

/-- What follows the sign between date and time. -/
def between? (cs : List Char) : Option (List Char) :=
  match cs with
  | 'T' :: rest | 't' :: rest | ' ' :: rest => some rest
  | _ => none

/-- The moment an offset earlier. -/
def shift (time : Timestamp) (offset : Int) : Timestamp :=
  let minutes := 60 * (time.hour : Int) + time.minute - offset
  let date :=
    if minutes < 0 then time.date.previous
    else if 1440 ≤ minutes then time.date.next else time.date
  let minutes := (minutes % 1440).toNat
  { time with date, hour := minutes / 60, minute := minutes % 60 }

/-- The moment of a text. -/
def parse? (text : String) : Option Timestamp := do
  let (date, rest) ← date? text.toList
  let (hour, rest) ← number? 2 (← between? rest)
  let (minute, rest) ← number? 2 (← mark? ':' rest)
  let (second, rest) ← number? 2 (← mark? ':' rest)
  let (nano, rest) ← fraction? rest
  let (offset, rest) ← offset? (Text.trimStart rest)
  let there : Timestamp := ⟨date, hour, minute, second, nano⟩
  if (Text.trimStart rest).isEmpty && there.isValid && (there.shift offset).isValid then
    some (there.shift offset)
  else none

end Timestamp

end RequestFlow
