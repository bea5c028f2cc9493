import TypeOrigins.Text.Digit

/-! # Dates and times

A date of the Gregorian calendar, with or without a time of day and an offset from universal time.
`Moment.fault?` says what is out of range first, and `Moment.wording` writes a moment out in full.
-/

namespace TypeOrigins
set_option autoImplicit false

/-- A time of day. -/
structure Clock where
  hour : Nat
  minute : Nat
  second : Nat
  microsecond : Nat := 0
deriving DecidableEq, Repr

/-- A date, or a time on it. The offset is in minutes east. -/
structure Moment where
  year : Nat
  month : Nat
  day : Nat
  clock : Option Clock := none
  offset : Option Int := none
deriving DecidableEq, Repr

/-- What is out of range in a moment. -/
inductive MomentFault where
  | offset (minutes : Int)
  | year (n : Nat)
  | month
  | day
  | hour
  | minute
  | second
deriving DecidableEq, Repr

namespace Moment

/-- Whether a year has a day more. -/
def isLeap (year : Nat) : Bool := year % 4 == 0 && (year % 100 != 0 || year % 400 == 0)

/-- The days of a month. -/
def daysIn (year month : Nat) : Nat :=
  if month == 2 then if isLeap year then 29 else 28
  else if month == 4 || month == 6 || month == 9 || month == 11 then 30
  else 31

/-- What is out of range first. An offset is less than a day either way. -/
def fault? (m : Moment) : Option MomentFault :=
  let clock := m.clock.getD ⟨0, 0, 0, 0⟩
  let offset := m.offset.getD 0
  if 1440 ≤ offset.natAbs then some (.offset offset)
  else if m.year == 0 || 9999 < m.year then some (.year m.year)
  else if m.month == 0 || 12 < m.month then some .month
  else if m.day == 0 || daysIn m.year m.month < m.day then some .day
  else if 23 < clock.hour then some .hour
  else if 59 < clock.minute then some .minute
  else if 59 < clock.second then some .second
  else none

/-- Two digits at the start of a text, and the text after them. -/
def twoDigits? : List Char → Option (Nat × List Char)
  | a :: b :: rest =>
      if Text.isAsciiDigit a && Text.isAsciiDigit b then some (Text.ofBase 10 [a, b], rest)
      else none
  | _ => none

/-- The text after a character that has to be there. -/
def after? (wanted : Char) : List Char → Option (List Char)
  | c :: rest => if c = wanted then some rest else none
  | [] => none

/-- A span of minutes, in days and seconds. -/
def spanWording (minutes : Int) : String :=
  let days := minutes.fdiv 1440
  let seconds := minutes.fmod 1440 * 60
  let parts :=
    (if days = 0 then [] else ["days=" ++ toString days]) ++
      (if seconds = 0 then [] else ["seconds=" ++ toString seconds])
  "datetime.timedelta(" ++ (if parts.isEmpty then "0" else ", ".intercalate parts) ++ ")"

/-- The numbers of a time of day that are written: seconds only if they or what follows are not
zero. -/
def clockNumbers (c : Clock) : List Nat :=
  let tail :=
    if c.microsecond != 0 then [c.second, c.microsecond]
    else if c.second != 0 then [c.second]
    else []
  [c.hour, c.minute] ++ tail

/-- A moment in full. -/
def wording (m : Moment) : String :=
  let date := [m.year, m.month, m.day]
  let list (ns : List Nat) : String := ", ".intercalate (ns.map toString)
  match m.clock with
  | none => "datetime.date(" ++ list date ++ ")"
  | some c =>
      let zone :=
        match m.offset with
        | none => ""
        | some 0 => ", tzinfo=datetime.timezone.utc"
        | some minutes => ", tzinfo=datetime.timezone(" ++ spanWording minutes ++ ")"
      "datetime.datetime(" ++ list (date ++ clockNumbers c) ++ zone ++ ")"

end Moment

/-- The wording of a fault. -/
def MomentFault.message : MomentFault → String
  | .offset minutes =>
      "offset must be a timedelta strictly between -timedelta(hours=24) and " ++
        "timedelta(hours=24), not " ++ Moment.spanWording minutes ++ "."
  | .year n => "year " ++ toString n ++ " is out of range"
  | .month => "month must be in 1..12"
  | .day => "day is out of range for month"
  | .hour => "hour must be in 0..23"
  | .minute => "minute must be in 0..59"
  | .second => "second must be in 0..59"

end TypeOrigins
