import FlowGate.Text.Numeral

namespace FlowGate

/-- A moment: whole seconds since the start of 1970, and nanoseconds into that second. -/
structure Timestamp where
  seconds : Int
  nanos : Nat
  deriving DecidableEq, Repr

namespace Timestamp

def after (seconds : Int) (nanos : Nat) : Timestamp :=
  ⟨seconds + (nanos / 1000000000 : Nat), nanos % 1000000000⟩

/-- The first second of the year -262143 and the last of the year 262142. -/
def earliest : Int := -8334601228800

def latest : Int := 8210266876799

def ofUnix? (seconds : Int) (nanos : Nat) : Option Timestamp :=
  if earliest ≤ seconds ∧ seconds ≤ latest ∧ nanos < 1000000000 then some ⟨seconds, nanos⟩ else none

structure Date where
  year : Int
  month : Nat
  day : Nat
  deriving DecidableEq, Repr

/--
The date a number of days after 1970-01-01. Years are counted from the first of March, so that the
leap day is the last of its year; 400 years are 146097 days.
-/
def Date.ofDays (days : Int) : Date :=
  let shifted := days + 719468
  let era := shifted / 146097
  let dayOfEra := (shifted % 146097).toNat
  let yearOfEra := (dayOfEra - dayOfEra / 1460 + dayOfEra / 36524 - dayOfEra / 146096) / 365
  let dayOfYear := dayOfEra - (365 * yearOfEra + yearOfEra / 4 - yearOfEra / 100)
  let monthFromMarch := (5 * dayOfYear + 2) / 153
  let day := dayOfYear - (153 * monthFromMarch + 2) / 5 + 1
  let month := if monthFromMarch < 10 then monthFromMarch + 3 else monthFromMarch - 9
  let year := era * 400 + yearOfEra
  ⟨if month ≤ 2 then year + 1 else year, month, day⟩

def padded (width n : Nat) : List Char :=
  let digits := Text.Numeral.decimal n
  List.replicate (width - digits.length) '0' ++ digits

/-- Four digits for the years 0 to 9999; any other year has its sign in front. -/
def yearText (year : Int) : List Char :=
  if year < 0 then '-' :: padded 4 year.natAbs
  else if year ≤ 9999 then padded 4 year.natAbs
  else '+' :: padded 4 year.natAbs

/-- The part of a second, in as few groups of three digits as tell it exactly. -/
def fraction (nanos : Nat) : List Char :=
  if nanos = 0 then []
  else if nanos % 1000000 = 0 then '.' :: padded 3 (nanos / 1000000)
  else if nanos % 1000 = 0 then '.' :: padded 6 (nanos / 1000)
  else '.' :: padded 9 nanos

def chars (t : Timestamp) : List Char :=
  let date := Date.ofDays (t.seconds / 86400)
  let second := (t.seconds % 86400).toNat
  yearText date.year ++ '-' :: padded 2 date.month ++ '-' :: padded 2 date.day ++
    'T' :: padded 2 (second / 3600) ++ ':' :: padded 2 (second / 60 % 60) ++
    ':' :: padded 2 (second % 60) ++ fraction t.nanos ++ ['Z']

def text (t : Timestamp) : String := String.ofList t.chars

end Timestamp

end FlowGate
