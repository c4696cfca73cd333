import Targeting.Decimal.Digits

/-!
# Dates and times of TOML

A document may name a day, a time of the day, or both, and with both the distance of the clock from
universal time. Settings know no dates: they keep the text, but always in one form, whichever the
document has. In this form a capital T stands between the day and the time, seconds are written out,
and a fraction of a second has no zeros at its end.

## Main definitions

* `Targeting.Toml.Day`, `Targeting.Toml.Clock`, `Targeting.Toml.Zone` — days of the calendar, times
  of a day and distances from universal time.
* `Targeting.Toml.Stamp` — what a document may name; `Targeting.Toml.Stamp.text` — its text.
* `Targeting.Toml.Stamp.ofWord?` — reads it.
-/

set_option autoImplicit false

namespace Targeting.Toml

/-! ## Days and times -/

/-- Whether a year has a 29th of February: every fourth one has, but of the full hundreds only every
fourth. -/
def isLeap (year : Nat) : Bool := year % 4 = 0 && (year % 100 ≠ 0 || year % 400 = 0)

/-- The number of days of a month; the months are counted from one. -/
def daysOf (year month : Nat) : Nat :=
  match month with
  | 2 => if isLeap year then 29 else 28
  | 4 | 6 | 9 | 11 => 30
  | _ => 31

/-- A day of the calendar. -/
structure Day where
  year : Nat
  month : Nat
  day : Nat
  /-- The day is one of its month. -/
  valid : (1 ≤ month ∧ month ≤ 12) ∧ 1 ≤ day ∧ day ≤ daysOf year month
deriving DecidableEq, Repr

/-- A time of the day, to the nanosecond. A minute has a second 60 where one is put in. -/
structure Clock where
  hour : Nat
  minute : Nat
  second : Nat
  nanosecond : Nat
  /-- The time is before the end of the day. -/
  valid : hour < 24 ∧ minute < 60 ∧ second ≤ 60
deriving DecidableEq, Repr

/-- How a clock is set: to universal time, or so many minutes ahead of it. -/
inductive Zone where
  | universal
  | ahead (minutes : Int)
deriving DecidableEq, Repr, Inhabited

/-- A day, a time of any day, or a time of one day; only this may say how the clock is set. -/
inductive Stamp where
  | day (date : Day)
  | clock (time : Clock)
  | both (date : Day) (time : Clock) (zone : Option Zone)
deriving DecidableEq, Repr

/-! ## Writing -/

/-- The digits of a number with zeros in front of them, up to a length. -/
def padded (width n : Nat) : List Char :=
  List.replicate (width - (digitsOf n).length) '0' ++ digitsOf n

/-- The text of a day, as in `1979-05-27`. -/
def Day.text (day : Day) : List Char :=
  padded 4 day.year ++ '-' :: (padded 2 day.month ++ '-' :: padded 2 day.day)

/-- The text of a time, as in `07:32:00.5`. -/
def Clock.text (clock : Clock) : List Char :=
  let fraction := ((padded 9 clock.nanosecond).reverse.dropWhile (· = '0')).reverse
  padded 2 clock.hour ++ ':' :: (padded 2 clock.minute ++ ':' :: padded 2 clock.second) ++
    if fraction.isEmpty then [] else '.' :: fraction

/-- The text of the way in which a clock is set, as in `-07:00`. -/
def Zone.text : Zone → List Char
  | universal => ['Z']
  | ahead minutes =>
    (if minutes < 0 then '-' else '+') ::
      (padded 2 (minutes.natAbs / 60) ++ ':' :: padded 2 (minutes.natAbs % 60))

/-- The text of a day and a time. -/
def Stamp.text : Stamp → String
  | day date => String.ofList date.text
  | clock time => String.ofList time.text
  | both date time zone =>
    String.ofList (date.text ++ 'T' :: (time.text ++ (zone.map Zone.text).getD []))

/-! ## Reading -/

/-- Reads a number of exactly so many digits. -/
def readFixed? (width : Nat) (text : List Char) : Option (Nat × List Char) :=
  let digits := text.take width
  if digits.length = width then (natural? digits).map fun n => (n, text.drop width) else none

/-- Reads a number of two digits after a character. -/
def readTwo? (mark : Char) (text : List Char) : Option (Nat × List Char) :=
  match text with
  | c :: rest => if c = mark then readFixed? 2 rest else none
  | [] => none

/-- Reads a day. -/
def readDay? (text : List Char) : Option (Day × List Char) := do
  let (year, rest) ← readFixed? 4 text
  let (month, rest) ← readTwo? '-' rest
  let (day, rest) ← readTwo? '-' rest
  if valid : (1 ≤ month ∧ month ≤ 12) ∧ 1 ≤ day ∧ day ≤ daysOf year month then
    return (⟨year, month, day, valid⟩, rest)
  else none

/-- Reads the fraction of a second, in nanoseconds; what is finer is left out. -/
def readFraction? (text : List Char) : Option (Nat × List Char) :=
  match text with
  | '.' :: rest =>
    let digits := rest.takeWhile Char.isDigit
    if digits.isEmpty then none
    else some (readDigits ((digits ++ List.replicate 9 '0').take 9), rest.dropWhile Char.isDigit)
  | _ => some (0, text)

/-- Reads the seconds of a time with their fraction; where there are none, they are zero. -/
def readSeconds? (text : List Char) : Option ((Nat × Nat) × List Char) :=
  match text with
  | ':' :: _ => do
    let (second, rest) ← readTwo? ':' text
    let (nanosecond, rest) ← readFraction? rest
    return ((second, nanosecond), rest)
  | _ => some ((0, 0), text)

/-- Reads a time of the day. -/
def readClock? (text : List Char) : Option (Clock × List Char) := do
  let (hour, rest) ← readFixed? 2 text
  let (minute, rest) ← readTwo? ':' rest
  let ((second, nanosecond), rest) ← readSeconds? rest
  if valid : hour < 24 ∧ minute < 60 ∧ second ≤ 60 then
    return (⟨hour, minute, second, nanosecond, valid⟩, rest)
  else none

/-- The way in which a clock is set, from the text behind the time; nothing need be said of it. -/
def Zone.ofWord? (text : List Char) : Option (Option Zone) :=
  match text with
  | [] => some none
  | sign :: rest =>
    if sign = 'Z' ∨ sign = 'z' then if rest.isEmpty then some (some universal) else none
    else if sign = '+' ∨ sign = '-' then
      match readFixed? 2 rest with
      | none => none
      | some (hours, rest) =>
        match readTwo? ':' rest with
        | some (minutes, []) =>
          if hours < 24 ∧ minutes < 60 then
            some (some (ahead (withSign (sign = '-') (hours * 60 + minutes))))
          else none
        | _ => none
    else none

/-- The day or time that a word names. A letter T or a blank stands between day and time. -/
def Stamp.ofWord? (word : List Char) : Option Stamp :=
  match readDay? word with
  | some (date, []) => some (.day date)
  | some (date, mark :: rest) =>
    if mark = 'T' ∨ mark = 't' ∨ mark = ' ' then do
      let (time, rest) ← readClock? rest
      return .both date time (← Zone.ofWord? rest)
    else none
  | none =>
    match readClock? word with
    | some (time, []) => some (.clock time)
    | _ => none

end Targeting.Toml
