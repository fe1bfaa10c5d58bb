import Solr.Text.Digits

/-! Dates and instants of the proleptic Gregorian calendar, in universal time, and
their texts. Years outside 0 to 9999 carry a sign in standard texts. -/
namespace Solr

namespace Calendar

def isLeap (year : Int) : Bool :=
  year % 4 = 0 && (year % 100 ≠ 0 || year % 400 = 0)

def daysInMonth (year : Int) (month : Nat) : Nat :=
  if month = 2 then if isLeap year then 29 else 28
  else if month = 4 ∨ month = 6 ∨ month = 9 ∨ month = 11 then 30
  else 31

def ValidDate (year : Int) (month day : Nat) : Prop :=
  1 ≤ month ∧ month ≤ 12 ∧ 1 ≤ day ∧ day ≤ daysInMonth year month

instance (year : Int) (month day : Nat) : Decidable (ValidDate year month day) :=
  inferInstanceAs (Decidable (_ ∧ _))

/-- From `10 ^ 9` on, the nanoseconds of a second count on into a leap second. -/
def ValidTime (hour minute second nano : Nat) : Prop :=
  hour < 24 ∧ minute < 60 ∧ second < 60 ∧ nano < 2000000000 ∧ (1000000000 ≤ nano → second = 59)

instance (hour minute second nano : Nat) : Decidable (ValidTime hour minute second nano) :=
  inferInstanceAs (Decidable (_ ∧ _))

end Calendar

structure Date where
  year : Int
  month : Nat
  day : Nat
  valid : Calendar.ValidDate year month day
  deriving DecidableEq

structure Instant where
  date : Date
  hour : Nat
  minute : Nat
  second : Nat
  nano : Nat
  valid : Calendar.ValidTime hour minute second nano
  deriving DecidableEq

namespace Date

def ofParts? (year : Int) (month day : Nat) : Option Date :=
  if h : Calendar.ValidDate year month day then some ⟨year, month, day, h⟩ else none

/-- The day after; the first candidate that is a date. -/
def next (d : Date) : Date :=
  ((ofParts? d.year d.month (d.day + 1)).or (ofParts? d.year (d.month + 1) 1)).getD
    ⟨d.year + 1, 1, 1, by simp [Calendar.ValidDate, Calendar.daysInMonth]⟩

/-- The day before. -/
def previous (d : Date) : Date :=
  ((ofParts? d.year d.month (d.day - 1)).or
    (ofParts? d.year (d.month - 1) (Calendar.daysInMonth d.year (d.month - 1)))).getD
    ⟨d.year - 1, 12, 31, by simp [Calendar.ValidDate, Calendar.daysInMonth]⟩

def monthAndDay (d : Date) : List Char :=
  '-' :: Text.padded 2 d.month ++ '-' :: Text.padded 2 d.day

/-- Four digits; a sign in front of more digits and of years below 0. -/
def yearText (year : Int) : List Char :=
  if 0 ≤ year ∧ year ≤ 9999 then Text.padded 4 year.natAbs
  else (if year < 0 then '-' else '+') :: Text.padded 4 year.natAbs

/-- The standard text of a date. -/
def text (d : Date) : List Char :=
  yearText d.year ++ d.monthAndDay

/-- The year in at least four characters, of which the minus sign is one. -/
def plainYear (year : Int) : List Char :=
  if year < 0 then '-' :: Text.padded 3 year.natAbs else Text.padded 4 year.natAbs

/-- The text of a date in filters. -/
def filterText (d : Date) : List Char :=
  plainYear d.year ++ d.monthAndDay

end Date

namespace Instant

def ofParts? (date : Date) (hour minute second nano : Nat) : Option Instant :=
  if h : Calendar.ValidTime hour minute second nano then some ⟨date, hour, minute, second, nano, h⟩
  else none

/-- A leap second is written as second 60. -/
def clock (t : Instant) : List Char :=
  Text.padded 2 t.hour ++ ':' :: Text.padded 2 t.minute ++
    ':' :: Text.padded 2 (t.second + t.nano / 1000000000)

def fraction (t : Instant) : Nat :=
  t.nano % 1000000000

def millisecond (t : Instant) : Nat :=
  t.fraction / 1000000

/-- The text with milliseconds, the rest of the fraction cut off. -/
def millisecondText (t : Instant) : List Char :=
  t.date.text ++ 'T' :: t.clock ++ '.' :: Text.padded 3 t.millisecond ++ ['Z']

/-- The fraction in as many groups of three digits as it needs. -/
def fractionText (nano : Nat) : List Char :=
  if nano = 0 then []
  else if nano % 1000000 = 0 then '.' :: Text.padded 3 (nano / 1000000)
  else if nano % 1000 = 0 then '.' :: Text.padded 6 (nano / 1000)
  else '.' :: Text.padded 9 nano

/-- The text with nothing of the fraction lost. -/
def text (t : Instant) : List Char :=
  t.date.text ++ 'T' :: t.clock ++ fractionText t.fraction ++ ['Z']

def secondOfDay (t : Instant) : Nat :=
  3600 * t.hour + 60 * t.minute + t.second

/-- The date in a zone that is `offset` seconds, less than a day, ahead. -/
def localDate (t : Instant) (offset : Int) : Date :=
  let s := t.secondOfDay + offset
  if s < 0 then t.date.previous else if 86400 ≤ s then t.date.next else t.date

end Instant
end Solr
