/-!
# Dates and times

A date has a year of four digits, a month and a day that the month has. A time has hours, minutes,
seconds and perhaps a fraction, of which six places count. A date can be followed by a time, and
that by its offset from universal time.
-/

namespace BankTrace.Toml

/-- A day of the calendar. -/
structure Date where
  year : Nat
  month : Nat
  day : Nat
  deriving DecidableEq

/-- A time of a day. -/
structure Time where
  hour : Nat
  minute : Nat
  second : Nat
  microsecond : Nat
  deriving DecidableEq

/-- A point in time, or a part of one. -/
inductive Moment where
  | date (date : Date)
  | time (time : Time)
  /-- A date and a time with the offset in minutes, if it is known. -/
  | dateTime (date : Date) (time : Time) (offset : Option Int)
  deriving DecidableEq

namespace Date

/-- The year has a day more than others. -/
def isLeap (year : Nat) : Bool := year % 4 = 0 && (year % 100 ≠ 0 || year % 400 = 0)

/-- The number of days of a month. -/
def daysIn (year month : Nat) : Nat :=
  if month = 2 then if isLeap year then 29 else 28
  else if month = 4 ∨ month = 6 ∨ month = 9 ∨ month = 11 then 30
  else 31

/-- The calendar has the day. Years start with one. -/
def isValid (d : Date) : Bool := 1 ≤ d.year && 1 ≤ d.day && d.day ≤ daysIn d.year d.month

end Date

namespace Moment

/-- A call with its arguments. -/
def call (name : String) (arguments : List String) : String :=
  "datetime." ++ name ++ "(" ++ ", ".intercalate arguments ++ ")"

/-- The numbers of a date. -/
def dateParts (d : Date) : List Nat := [d.year, d.month, d.day]

/-- The numbers of a time; a fraction of zero is left out, and so are seconds of zero in front of
one that is left out. -/
def timeParts (t : Time) : List Nat :=
  [t.hour, t.minute] ++
    if t.microsecond ≠ 0 then [t.second, t.microsecond]
    else if t.second ≠ 0 then [t.second]
    else []

/-- The offset from universal time: whole days first, and seconds that are not negative. -/
def offsetText (minutes : Int) : String :=
  if minutes = 0 then "datetime.timezone.utc"
  else
    let seconds := minutes * 60
    let days := if seconds < 0 then ["days=-1"] else []
    call "timezone" [call "timedelta" (days ++ ["seconds=" ++ toString (seconds % 86400)])]

/-- The moment as it is shown in messages. -/
def shown : Moment → String
  | date d => call "date" ((dateParts d).map toString)
  | time t => call "time" ((timeParts t).map toString)
  | dateTime d t offset =>
    call "datetime" ((dateParts d ++ timeParts t).map toString ++
      offset.toList.map fun minutes => "tzinfo=" ++ offsetText minutes)

/-- The number of values that are shown inside each other: an offset from universal time is a value
in the moment, and its length one in the offset. -/
def shownDepth : Moment → Nat
  | date _ | time _ | dateTime _ _ none => 1
  | dateTime _ _ (some minutes) => if minutes = 0 then 2 else 3

/-- Two digits of a number that is not above `most`. -/
def twoDigits? (most : Nat) : List Char → Option (Nat × List Char)
  | a :: b :: rest =>
    let n := (a.toNat - '0'.toNat) * 10 + (b.toNat - '0'.toNat)
    if a.isDigit && b.isDigit && n ≤ most then some (n, rest) else none
  | _ => none

/-- One given character. -/
def mark? (c : Char) : List Char → Option (List Char)
  | d :: rest => if d = c then some rest else none
  | [] => none

/-- The fraction behind a point, in millionths; without a digit behind it, a point is left. -/
def fraction : List Char → Nat × List Char
  | '.' :: rest =>
    let digits := rest.takeWhile Char.isDigit
    if digits = [] then (0, '.' :: rest)
    else
      let places := (digits ++ List.replicate 6 '0').take 6
      (places.foldl (fun n c => n * 10 + (c.toNat - '0'.toNat)) 0, rest.dropWhile Char.isDigit)
  | rest => (0, rest)

/-- A time at the front. -/
def time? (s : List Char) : Option (Time × List Char) := do
  let (hour, s) ← twoDigits? 23 s
  let s ← mark? ':' s
  let (minute, s) ← twoDigits? 59 s
  let s ← mark? ':' s
  let (second, s) ← twoDigits? 59 s
  let (microsecond, s) := fraction s
  return (⟨hour, minute, second, microsecond⟩, s)

/-- A date at the front, which the calendar need not have. -/
def date? (s : List Char) : Option (Date × List Char) := do
  let (century, s) ← twoDigits? 99 s
  let (year, s) ← twoDigits? 99 s
  let s ← mark? '-' s
  let (month, s) ← twoDigits? 12 s
  let s ← mark? '-' s
  let (day, s) ← twoDigits? 31 s
  if month = 0 ∨ day = 0 then none else return (⟨century * 100 + year, month, day⟩, s)

/-- An offset at the front. -/
def offset? (s : List Char) : Option (Int × List Char) :=
  match s with
  | 'Z' :: rest | 'z' :: rest => some (0, rest)
  | '+' :: rest => minutes? rest
  | '-' :: rest => (minutes? rest).map fun (minutes, rest) => (-minutes, rest)
  | _ => none
where
  /-- Hours and minutes in minutes. -/
  minutes? (s : List Char) : Option (Int × List Char) := do
    let (hour, s) ← twoDigits? 23 s
    let s ← mark? ':' s
    let (minute, s) ← twoDigits? 59 s
    return (((hour * 60 + minute : Nat) : Int), s)

/-- A time behind a date, after the letter `T` or a blank. -/
def timeOfDay? : List Char → Option (Time × List Char)
  | 'T' :: rest | 't' :: rest | ' ' :: rest => time? rest
  | _ => none

/-- A moment at the front, with a date that the calendar need not have. -/
def read? (s : List Char) : Option (Moment × List Char) :=
  match date? s with
  | some (d, rest) =>
    match timeOfDay? rest with
    | none => some (date d, rest)
    | some (t, rest) =>
      match offset? rest with
      | some (minutes, rest) => some (dateTime d t (some minutes), rest)
      | none => some (dateTime d t none, rest)
  | none => (time? s).map fun (t, rest) => (time t, rest)

/-- The calendar has the date. -/
def isValid : Moment → Bool
  | date d | dateTime d .. => d.isValid
  | time _ => true

end Moment

end BankTrace.Toml
