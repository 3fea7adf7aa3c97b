import DocComponents.Text.Basic

/-!
# Times in zip archives

A zip archive tells the time of a member in two numbers of sixteen bits: the date, with years
counted from 1980, and the time of day, with seconds counted in pairs. All times are universal.
-/

set_option autoImplicit false

namespace DocComponents.Archive

structure Timestamp where
  date : UInt16
  time : UInt16
  deriving DecidableEq, Repr

namespace Timestamp

/-- The first time that can be told: the beginning of 1980. -/
def first : Timestamp := { date := 0x21, time := 0 }

inductive Fault where
  /-- The moment is before 1980. -/
  | tooEarly
  /-- The moment is after 2107. -/
  | tooLate
  deriving DecidableEq, Repr

def Fault.message : Fault → Text
  | .tooEarly => "ZIP does not support timestamps before 1980".toList
  | .tooLate => "ushort format requires 0 <= number <= 65535".toList

/-- The year, the month and the day of a number of days since the first of March of the year 0. A
year begins in March here, so a leap day is the last day of its year. -/
def dateOf (days : Nat) : Nat × Nat × Nat :=
  let inEra := days % 146097
  let yearOfEra := (inEra - inEra / 1460 + inEra / 36524 - inEra / 146096) / 365
  let inYear := inEra - (365 * yearOfEra + yearOfEra / 4 - yearOfEra / 100)
  let monthFromMarch := (5 * inYear + 2) / 153
  let day := inYear - (153 * monthFromMarch + 2) / 5 + 1
  let month := if monthFromMarch < 10 then monthFromMarch + 3 else monthFromMarch - 9
  let year := days / 146097 * 400 + yearOfEra
  (if month ≤ 2 then year + 1 else year, month, day)

/-- The time that tells a moment, which is given in seconds since the beginning of 1970. -/
def ofSeconds (seconds : Int) : Except Fault Timestamp :=
  if seconds < 315532800 then .error .tooEarly
  else if 4354819200 ≤ seconds then .error .tooLate
  else
    let days := seconds.toNat / 86400
    let inDay := seconds.toNat % 86400
    let (year, month, day) := dateOf (days + 719468)
    .ok
      { date := UInt16.ofNat ((year - 1980) * 512 + month * 32 + day)
        time := UInt16.ofNat (inDay / 3600 * 2048 + inDay / 60 % 60 * 32 + inDay % 60 / 2) }

end Timestamp

end DocComponents.Archive
