/-
  ChatMarkup/Locale/Moment.lean
  =============================
  **Moments** — dates of the Gregorian calendar, extended to the years -9999 to 9999,
  and times of day, in four widths each.
-/
import ChatMarkup.Locale.Error
import ChatMarkup.Value.Typed

namespace ChatMarkup.Locale

/-! ### The calendar -/

/-- The first second of the year -9999. -/
def firstSecond : Int := -377705116800

/-- The last second of the year 9999. -/
def lastSecond : Int := 253402300799

def inCalendar (second : Int) : Prop := firstSecond ≤ second ∧ second ≤ lastSecond

instance (second : Int) : Decidable (inCalendar second) := by
  unfold inCalendar
  infer_instance

structure Date where
  year : Int
  month : Nat  -- from 1 to 12
  day : Nat
  deriving DecidableEq, Repr

/-- The date a number of days after the first of January 1970. Years are counted from the
    first of March, in cycles of 400 years, so that a leap day is the last day of its
    year and every month begins a fixed number of days into it. -/
def Date.ofDays (days : Int) : Date :=
  -- days from the first of March of the year 0
  let shifted := days + 719468
  let cycle := shifted / 146097
  let dayOfCycle := (shifted % 146097).toNat
  let yearOfCycle :=
    (dayOfCycle - dayOfCycle / 1460 + dayOfCycle / 36524 - dayOfCycle / 146096) / 365
  -- the leap days are those of the years that end before this one
  let dayOfYear := dayOfCycle - (365 * yearOfCycle + yearOfCycle / 4 - yearOfCycle / 100)
  -- from March on, any five months in a row have 153 days
  let monthFromMarch := (5 * dayOfYear + 2) / 153
  let day := dayOfYear - (153 * monthFromMarch + 2) / 5 + 1
  let month := if monthFromMarch < 10 then monthFromMarch + 3 else monthFromMarch - 9
  let year := (yearOfCycle : Int) + 400 * cycle + (if month ≤ 2 then 1 else 0)
  ⟨year, month, day⟩

/-- The day of the week a number of days after the first of January 1970, a Thursday;
    Monday is 0. -/
def weekday (days : Int) : Nat := ((days + 3) % 7).toNat

def weekdayNames : List String :=
  ["Monday", "Tuesday", "Wednesday", "Thursday", "Friday", "Saturday", "Sunday"]

def monthNames : List String :=
  ["January", "February", "March", "April", "May", "June", "July", "August", "September",
   "October", "November", "December"]

def monthName (month : Nat) : List Char := (monthNames.getD (month - 1) "").toList

/-! ### Texts -/

/-- A year in at least four digits. -/
def yearText (year : Int) : List Char :=
  Decimal.signed (decide (year < 0)) (Decimal.padded 4 year.natAbs)

def dateText (days : Int) : Width → List Char
  | .full =>
    let date := Date.ofDays days
    (weekdayNames.getD (weekday days) "").toList ++ ", ".toList ++ monthName date.month ++
      ' ' :: Decimal.ofNat date.day ++ ", ".toList ++ yearText date.year
  | .long =>
    let date := Date.ofDays days
    monthName date.month ++ ' ' :: Decimal.ofNat date.day ++ ", ".toList ++ yearText date.year
  | .medium =>
    let date := Date.ofDays days
    (monthName date.month).take 3 ++ ' ' :: Decimal.ofNat date.day ++ ", ".toList ++
      yearText date.year
  | .short =>
    let date := Date.ofDays days
    Decimal.ofNat date.month ++ '/' :: Decimal.ofNat date.day ++
      '/' :: Decimal.padTwo (date.year.natAbs % 100)

/-- The zone of an offset: in hours and minutes for the full width, otherwise as short as
    it can be. -/
def zoneText (offset : Offset) (width : Width) : List Char :=
  let sign := if offset.seconds < 0 then '-' else '+'
  let hours := offset.seconds.natAbs / 3600
  let minutes := offset.seconds.natAbs / 60 % 60
  "GMT".toList ++
    if width = .full then sign :: Decimal.padTwo hours ++ ':' :: Decimal.padTwo minutes
    else if offset.seconds = 0 then []
    else if minutes = 0 then sign :: Decimal.ofNat hours
    else sign :: Decimal.ofNat hours ++ ':' :: Decimal.padTwo minutes

def clockHour (hour : Nat) : Nat := if hour % 12 = 0 then 12 else hour % 12

def timeText (second : Nat) (offset : Offset) (width : Width) : List Char :=
  let hour := second / 3600
  let hourAndMinute := Decimal.ofNat (clockHour hour) ++ ':' :: Decimal.padTwo (second / 60 % 60)
  let period := if hour < 12 then " AM".toList else " PM".toList
  let withSeconds := hourAndMinute ++ ':' :: Decimal.padTwo (second % 60) ++ period
  match width with
  | .full => withSeconds ++ ' ' :: zoneText offset .full
  | .long => withSeconds ++ ' ' :: zoneText offset .long
  | .medium => withSeconds
  | .short => hourAndMinute ++ period

def dateTimeGlue : Width → List Char
  | .full => " at ".toList
  | .long => " at ".toList
  | .medium => ", ".toList
  | .short => ", ".toList

def formatMoment (moment : Moment) : Except Error (List Char) :=
  let universal := moment.timestamp.toInt
  let shifted := universal + moment.offset.seconds
  if ¬inCalendar universal then .error .timestampOutOfRange
  -- the moment itself is in range, but there is no local date for it
  else if ¬inCalendar shifted then .error .localTimeOutOfRange
  else
    let date := moment.date.map (dateText (shifted / 86400))
    let time := moment.time.map (timeText (shifted % 86400).toNat moment.offset)
    .ok <| match moment.date, date, time with
      | some width, some date, some time => date ++ dateTimeGlue width ++ time
      | _, date, time => date.getD [] ++ time.getD []

end ChatMarkup.Locale
