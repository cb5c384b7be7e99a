/-!
Dates, and moments on a date with or without an offset from universal time.

A date and a moment have a plain text, and a described one that names their parts.  The offset of a
moment is a count of minutes and lies strictly within a day.
-/

namespace TextProviders.Calendar

/-- A day of a year. -/
structure Date where
  year : Nat
  month : Nat
  day : Nat
deriving DecidableEq, Repr

/-- A date and a time of the day. -/
structure Moment where
  date : Date
  hour : Nat
  minute : Nat
  second : Nat
  microsecond : Nat
  /-- The offset from universal time in minutes, if one is given. -/
  offset : Option Int
deriving DecidableEq, Repr

/-- Why numbers are no date or moment. -/
inductive Fault where
  | year (n : Nat)
  | month
  | day
  | hour
  | minute
  | second
  | offset (minutes : Int)
deriving DecidableEq, Repr

/-! ## Validity -/

/-- Whether a year has a leap day. -/
def isLeap (year : Nat) : Bool :=
  year % 4 = 0 && (year % 100 ≠ 0 || year % 400 = 0)

/-- The number of days of a month. -/
def daysIn (year month : Nat) : Nat :=
  if month = 2 then if isLeap year then 29 else 28
  else if [4, 6, 9, 11].contains month then 30 else 31

/-- The date that numbers make. -/
def date (year month day : Nat) : Except Fault Date :=
  if year = 0 then .error (.year year)
  else if month < 1 || 12 < month then .error .month
  else if day < 1 || daysIn year month < day then .error .day
  else .ok ⟨year, month, day⟩

/-- The moment that numbers make; the offset is looked at first. -/
def moment (year month day hour minute second microsecond : Nat) (offset : Option Int) :
    Except Fault Moment :=
  match offset.filter fun m => 1440 ≤ m.natAbs with
  | some m => .error (.offset m)
  | none =>
    match date year month day with
    | .error f => .error f
    | .ok d =>
      if 23 < hour then .error .hour
      else if 59 < minute then .error .minute
      else if 59 < second then .error .second
      else .ok ⟨d, hour, minute, second, microsecond, offset⟩

/-! ## Texts -/

/-- A number with zeros in front up to a width. -/
def padded (width n : Nat) : String :=
  let digits := toString n
  String.ofList (List.replicate (width - digits.length) '0') ++ digits

/-- The plain text of a date. -/
def Date.text (d : Date) : String :=
  padded 4 d.year ++ "-" ++ padded 2 d.month ++ "-" ++ padded 2 d.day

/-- The parts of a date, with commas between them. -/
def Date.parts (d : Date) : List String :=
  [d.year, d.month, d.day].map toString

/-- The described text of a date. -/
def Date.described (d : Date) : String :=
  "datetime.date(" ++ ", ".intercalate d.parts ++ ")"

/-- The plain text of an offset: a sign, hours and minutes. -/
def offsetText (minutes : Int) : String :=
  (if minutes < 0 then "-" else "+") ++ padded 2 (minutes.natAbs / 60) ++ ":" ++
    padded 2 (minutes.natAbs % 60)

/-- The described text of a span of minutes, as whole days and seconds that are not negative. -/
def spanDescribed (minutes : Int) : String :=
  let days := minutes.fdiv 1440
  let seconds := minutes.fmod 1440 * 60
  let parts := (if days = 0 then [] else ["days=" ++ toString days]) ++
    (if seconds = 0 then [] else ["seconds=" ++ toString seconds])
  "datetime.timedelta(" ++ (if parts.isEmpty then "0" else ", ".intercalate parts) ++ ")"

/-- The described text of an offset. -/
def offsetDescribed (minutes : Int) : String :=
  if minutes = 0 then "datetime.timezone.utc"
  else "datetime.timezone(" ++ spanDescribed minutes ++ ")"

/-- The plain text of a moment; microseconds are left out if there are none. -/
def Moment.text (m : Moment) : String :=
  m.date.text ++ " " ++ padded 2 m.hour ++ ":" ++ padded 2 m.minute ++ ":" ++
    padded 2 m.second ++ (if m.microsecond = 0 then "" else "." ++ padded 6 m.microsecond) ++
    (m.offset.map offsetText).getD ""

/-- The described text of a moment; seconds and microseconds are left out where only zeros
follow. -/
def Moment.described (m : Moment) : String :=
  let small :=
    if m.microsecond ≠ 0 then [m.second, m.microsecond]
    else if m.second ≠ 0 then [m.second] else []
  let parts := m.date.parts ++ ([m.hour, m.minute] ++ small).map toString ++
    (m.offset.map fun o => "tzinfo=" ++ offsetDescribed o).toList
  "datetime.datetime(" ++ ", ".intercalate parts ++ ")"

/-- The words for why numbers are no date or moment. -/
def Fault.message : Fault → String
  | year n => "year " ++ toString n ++ " is out of range"
  | month => "month must be in 1..12"
  | day => "day is out of range for month"
  | hour => "hour must be in 0..23"
  | minute => "minute must be in 0..59"
  | second => "second must be in 0..59"
  | offset minutes =>
    "offset must be a timedelta strictly between -timedelta(hours=24) and timedelta(hours=24), " ++
      "not " ++ spanDescribed minutes ++ "."

/-! ## Sameness -/

/-- The days from the first of March of year zero to a date. -/
def Date.dayNumber (d : Date) : Nat :=
  let year := if d.month ≤ 2 then d.year - 1 else d.year
  let month := (d.month + 9) % 12
  year * 365 + year / 4 - year / 100 + year / 400 + (month * 153 + 2) / 5 + d.day

/-- The microseconds from a fixed day to a moment, reckoned to universal time by its offset. -/
def Moment.instant (m : Moment) : Int :=
  ((((m.date.dayNumber * 24 + m.hour) * 60 + m.minute : Nat) : Int) - m.offset.getD 0) * 60000000 +
    m.second * 1000000 + m.microsecond

/-- Whether two moments are the same: both have an offset or neither has one, and the instants
agree. -/
def Moment.same (a b : Moment) : Bool :=
  a.offset.isSome == b.offset.isSome && a.instant == b.instant

/-! ## Reading -/

/-- The number made by the ASCII digits that a text starts with, if there are at least and at most
as many as given, and what follows them. -/
def number? (least most : Nat) (s : List Char) : Option (Nat × List Char) :=
  let digits := (s.take most).takeWhile Char.isDigit
  if digits.length < least then none
  else some (digits.foldl (fun n c => n * 10 + (c.toNat - 0x30)) 0, s.drop digits.length)

/-- What follows a character that a text starts with. -/
def after? (c : Char) : List Char → Option (List Char)
  | [] => none
  | d :: rest => if d = c then some rest else none

/-- Whether a character separates the parts of a moment. -/
def isGap (c : Char) : Bool :=
  c = ' ' || c = '\t'

/-- The microseconds that the digits of a fraction make. -/
def microseconds (digits : List Char) : Nat :=
  let six := digits.take 6
  (six ++ List.replicate (6 - six.length) '0').foldl (fun n c => n * 10 + (c.toNat - 0x30)) 0

/-- The offset that ends a moment: nothing, a Z, or a sign with hours and maybe minutes. -/
def offset? (s : List Char) : Option (Option Int) :=
  match s with
  | [] => some none
  | _ =>
    match s.dropWhile isGap with
    | ['Z'] => some (some 0)
    | sign :: rest =>
      if sign = '+' || sign = '-' then do
        let (hours, rest) ← number? 1 2 rest
        let minutes ←
          match rest with
          | [] => some 0
          | _ => do
            let (minutes, rest) ← number? 2 2 (← after? ':' rest)
            if rest.isEmpty then some minutes else none
        let total : Int := hours * 60 + minutes
        some (some (if sign = '-' then -total else total))
      else none
    | [] => none

/-- A date, or a moment. -/
inductive Stamp where
  | date (d : Date)
  | moment (m : Moment)
deriving DecidableEq, Repr

/-- What the time part of a stamp says: hour, minute, second, fraction and offset. -/
def time? (s : List Char) : Option (Nat × Nat × Nat × Nat × Option Int) := do
  let rest ←
    match s with
    | c :: rest =>
      if c = 'T' || c = 't' then some rest
      else if isGap c then some (rest.dropWhile isGap) else none
    | [] => none
  let (hour, rest) ← number? 1 2 rest
  let (minute, rest) ← number? 2 2 (← after? ':' rest)
  let (second, rest) ← number? 2 2 (← after? ':' rest)
  let (fraction, rest) :=
    match rest with
    | '.' :: rest => (rest.takeWhile Char.isDigit, rest.dropWhile Char.isDigit)
    | rest => ([], rest)
  let offset ← offset? rest
  some (hour, minute, second, microseconds fraction, offset)

/-- Reads a date or a moment; `none` if the text has the form of neither. -/
def read? (s : List Char) : Option (Except Fault Stamp) := do
  let (year, rest) ← number? 4 4 s
  let (month, rest) ← number? 1 2 (← after? '-' rest)
  let (day, rest) ← number? 1 2 (← after? '-' rest)
  match rest with
  | [] => some ((date year month day).map .date)
  | _ =>
    let (hour, minute, second, fraction, offset) ← time? rest
    some ((moment year month day hour minute second fraction offset).map .moment)

end TextProviders.Calendar
