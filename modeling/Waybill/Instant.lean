/-! Points in time, counted from the start of 1970 in seconds and nanoseconds; a leap second is a second with up
to two billion nanoseconds. Headers hold milliseconds, of which only a calendar's range is a point in time. -/
namespace Waybill

structure Instant where
  seconds : Int
  nanos : Nat
  deriving DecidableEq

namespace Instant

/-- Whole milliseconds, those of a leap second included. -/
def millis (t : Instant) : Int64 := Int64.ofInt (t.seconds * 1000 + t.nanos / 1000000)

def firstMillis : Int := -8334601228800000
def lastMillis : Int := 8210266876799999

def ofMillis? (ms : Int64) : Option Instant :=
  if firstMillis ≤ ms.toInt ∧ ms.toInt ≤ lastMillis then
    some ⟨ms.toInt / 1000, (ms.toInt % 1000).toNat * 1000000⟩
  else none

structure Date where
  year : Int
  month : Nat
  day : Nat

/-- The date that lies a number of days after the first of January 1970. Years are counted from March, so that
the leap day is the last of its year, in eras of four centuries. -/
def Date.ofDays (days : Int) : Date :=
  let shifted := days + 719468
  let era := shifted / 146097
  let inEra := (shifted % 146097).toNat
  let years := (inEra - inEra / 1460 + inEra / 36524 - inEra / 146096) / 365
  let inYear := inEra - (365 * years + years / 4 - years / 100)
  let march := (5 * inYear + 2) / 153
  let month := if march < 10 then march + 3 else march - 9
  { year := era * 400 + years + (if month ≤ 2 then 1 else 0)
    month := month
    day := inYear - (153 * march + 2) / 5 + 1 }

def padded (width n : Nat) : String :=
  let digits := Nat.toDigits 10 n
  String.ofList (List.replicate (width - digits.length) '0' ++ digits)

def yearText (year : Int) : String :=
  if 0 ≤ year ∧ year ≤ 9999 then padded 4 year.toNat
  else (if year < 0 then "-" else "+") ++ padded 4 year.natAbs

def fractionText (nanos : Nat) : String :=
  if nanos = 0 then ""
  else if nanos % 1000000 = 0 then "." ++ padded 3 (nanos / 1000000)
  else if nanos % 1000 = 0 then "." ++ padded 6 (nanos / 1000)
  else "." ++ padded 9 nanos

def secondText (t : Instant) : String :=
  let date := Date.ofDays (t.seconds / 86400)
  let inDay := (t.seconds % 86400).toNat
  let leap := t.nanos / 1000000000
  yearText date.year ++ "-" ++ padded 2 date.month ++ "-" ++ padded 2 date.day ++ "T" ++
    padded 2 (inDay / 3600) ++ ":" ++ padded 2 (inDay / 60 % 60) ++ ":" ++ padded 2 (inDay % 60 + leap)

def rfc3339 (t : Instant) : String := t.secondText ++ fractionText (t.nanos % 1000000000) ++ "+00:00"

def microText (t : Instant) : String :=
  t.secondText ++ "." ++ padded 6 (t.nanos % 1000000000 / 1000) ++ "Z"

end Instant
end Waybill
