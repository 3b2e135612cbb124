/-!
# Dates and times

Dates of the Gregorian calendar in the years 1 to 9999, clock times to the microsecond, and
moments that join the two with an optional offset from UTC in minutes.
-/
namespace GraphImport.Document

structure Date where
  year : Nat
  month : Nat
  day : Nat
deriving DecidableEq, Repr, Inhabited

structure Clock where
  hour : Nat
  minute : Nat
  second : Nat
  microsecond : Nat := 0
deriving DecidableEq, Repr, Inhabited

structure Moment where
  date : Date
  clock : Clock
  offset : Option Int := none
deriving DecidableEq, Repr, Inhabited

/-- Why numbers name no date or time. -/
inductive CalendarFault
  | year (value : Nat)
  | month
  | day
  | hour
  | minute
  | second
  | offset (minutes : Int)
  | overflow
deriving DecidableEq, Repr

def isLeapYear (year : Nat) : Bool :=
  year % 4 == 0 && (year % 100 != 0 || year % 400 == 0)

def daysInMonth (year month : Nat) : Nat :=
  if month == 2 then if isLeapYear year then 29 else 28
  else if month == 4 || month == 6 || month == 9 || month == 11 then 30
  else 31

def Date.fault? (d : Date) : Option CalendarFault :=
  if d.year < 1 || 9999 < d.year then some (.year d.year)
  else if d.month < 1 || 12 < d.month then some .month
  else if d.day < 1 || daysInMonth d.year d.month < d.day then some .day
  else none

def Clock.fault? (c : Clock) : Option CalendarFault :=
  if 23 < c.hour then some .hour
  else if 59 < c.minute then some .minute
  else if 59 < c.second then some .second
  else none

/-- The first fault of a moment: its offset, then its date, then its clock. -/
def Moment.fault? (t : Moment) : Option CalendarFault :=
  match t.offset with
  | some minutes => if 1440 ≤ minutes.natAbs then some (.offset minutes) else rest
  | none => rest
where rest := t.date.fault?.orElse fun _ => t.clock.fault?

/-- Days from the first of March of year zero. -/
def Date.toDays (d : Date) : Nat :=
  let year := if d.month ≤ 2 then d.year - 1 else d.year
  let month := (d.month + 9) % 12
  365 * year + year / 4 - year / 100 + year / 400 + (153 * month + 2) / 5 + d.day - 1

/-- The date a number of days after the first of March of year zero. -/
def Date.ofDays (days : Nat) : Date :=
  let era := days / 146097
  let dayOfEra := days % 146097
  let yearOfEra := (dayOfEra - dayOfEra / 1460 + dayOfEra / 36524 - dayOfEra / 146096) / 365
  let dayOfYear := dayOfEra - (365 * yearOfEra + yearOfEra / 4 - yearOfEra / 100)
  let shifted := (5 * dayOfYear + 2) / 153
  let day := dayOfYear - (153 * shifted + 2) / 5 + 1
  let month := if shifted < 10 then shifted + 3 else shifted - 9
  { year := era * 400 + yearOfEra + (if month ≤ 2 then 1 else 0), month, day }

/-- The same moment in UTC, its offset dropped; none when it leaves the calendar. -/
def Moment.inUtc? (t : Moment) : Option Moment :=
  let minutes : Int :=
    (t.date.toDays : Int) * 1440 + (t.clock.hour * 60 + t.clock.minute : Nat) - t.offset.getD 0
  let days := minutes.ediv 1440
  let inDay := (minutes.emod 1440).toNat
  let date := Date.ofDays days.toNat
  if days < 0 || date.fault?.isSome then none
  else some { date, clock := { t.clock with hour := inDay / 60, minute := inDay % 60 } }

/-- A number in decimal, with zeros in front up to the given width. -/
def padded (width n : Nat) : String :=
  let digits := Nat.toDigits 10 n
  String.ofList (List.replicate (width - digits.length) '0' ++ digits)

def Date.iso (d : Date) : String :=
  s!"{padded 4 d.year}-{padded 2 d.month}-{padded 2 d.day}"

/-- Hours, minutes and seconds, and six decimal places when there is a fraction. -/
def Clock.iso (c : Clock) : String :=
  let fraction := if c.microsecond == 0 then "" else s!".{padded 6 c.microsecond}"
  s!"{padded 2 c.hour}:{padded 2 c.minute}:{padded 2 c.second}{fraction}"

def offsetIso (minutes : Int) : String :=
  let sign := if minutes < 0 then "-" else "+"
  s!"{sign}{padded 2 (minutes.natAbs / 60)}:{padded 2 (minutes.natAbs % 60)}"

/-- A moment in a document: the letter T between date and time, and Z for UTC. -/
def Moment.iso (t : Moment) : String :=
  let zone := match t.offset with
    | none => ""
    | some 0 => "Z"
    | some minutes => offsetIso minutes
  s!"{t.date.iso}T{t.clock.iso}{zone}"

/-- A moment in running text: a blank between date and time, the offset always in figures. -/
def Moment.plain (t : Moment) : String :=
  let zone := (t.offset.map offsetIso).getD ""
  s!"{t.date.iso} {t.clock.iso}{zone}"

def durationTerm (minutes : Int) : String :=
  let seconds := minutes * 60
  let days := seconds.ediv 86400
  let rest := seconds.emod 86400
  let parts := (if days == 0 then [] else [s!"days={days}"]) ++
    (if rest == 0 then [] else [s!"seconds={rest}"])
  let body := if parts.isEmpty then "0" else ", ".intercalate parts
  s!"datetime.timedelta({body})"

def Date.term (d : Date) : String :=
  s!"datetime.date({d.year}, {d.month}, {d.day})"

/-- The numbers of a clock time, seconds and microseconds left out while they are zero. -/
def Clock.parts (c : Clock) : List Nat :=
  [c.hour, c.minute] ++
    (if c.microsecond != 0 then [c.second, c.microsecond]
    else if c.second != 0 then [c.second] else [])

def Clock.term (c : Clock) : String :=
  "datetime.time(" ++ ", ".intercalate (c.parts.map toString) ++ ")"

def Moment.term (t : Moment) : String :=
  let numbers := ([t.date.year, t.date.month, t.date.day] ++ t.clock.parts).map toString
  let zone := match t.offset with
    | none => []
    | some 0 => ["tzinfo=datetime.timezone.utc"]
    | some minutes => [s!"tzinfo=datetime.timezone({durationTerm minutes})"]
  "datetime.datetime(" ++ ", ".intercalate (numbers ++ zone) ++ ")"

def CalendarFault.message : CalendarFault → String
  | .year value => s!"year {value} is out of range"
  | .month => "month must be in 1..12"
  | .day => "day is out of range for month"
  | .hour => "hour must be in 0..23"
  | .minute => "minute must be in 0..59"
  | .second => "second must be in 0..59"
  | .offset minutes =>
    "offset must be a timedelta strictly between -timedelta(hours=24) and timedelta(hours=24), " ++
      s!"not {durationTerm minutes}."
  | .overflow => "date value out of range"

end GraphImport.Document
