import Mathlib.Logic.Basic

/-!
# The clock

The functions of `Mid_RTC.c`. The clock counts the seconds since 1 January 1970 and keeps the date
that belongs to them.

## Main definitions

* `DateTime` — a date with the time of the day
* `midRTCConvertUnixToDate`, `midRTCConvertDateToUnixTime` — the conversions
* `midRTCComputeDayOfWeek` — the day of the week
* `RtcState`, `midRTCHandle`, `midRTCSetUnit` — the clock
-/

set_option autoImplicit false

namespace IrRemote

/-- `date_time_t`. -/
structure DateTime where
  second : BitVec 8
  minute : BitVec 8
  hour : BitVec 8
  day : BitVec 8
  month : BitVec 8
  year : BitVec 16
  milliseconds : BitVec 16
  dayOfWeek : BitVec 8
  deriving DecidableEq, Repr

/-- `Mid_RTCComputeDayOfWeek`. The sums are computed as int. -/
def midRTCComputeDayOfWeek (ulYear : BitVec 16) (ubMonth ubDay : BitVec 8) : BitVec 8 :=
  let early := ubMonth ≤ 2
  let ubMonth := if early then ubMonth + 12 else ubMonth
  let ulYear := if early then ulYear - 1 else ulYear
  let j := (ulYear / 100).toNat
  let k := (ulYear % 100).toNat
  let h := BitVec.ofNat 16
    (ubDay.toNat + 26 * (ubMonth.toNat + 1) / 10 + k + k / 4 + 5 * j + j / 4)
  BitVec.ofNat 8 ((h.toNat + 5) % 7 + 1)

/-! ## From seconds to dates -/

/-- The variable `a`, from the days since 1 January 1970. -/
def rtcA (days : BitVec 64) : BitVec 32 := ((4 * days + 102032) / 146097 + 15).setWidth 32

/-- The variable `b`. -/
def rtcB (days : BitVec 64) (a : BitVec 32) : BitVec 32 :=
  (days + 2442113 + a.setWidth 64 - (a / 4).setWidth 64).setWidth 32

/-- The variable `c`. -/
def rtcC (b : BitVec 32) : BitVec 32 := (20 * b - 2442) / 7305

/-- The variable `d`. -/
def rtcD (b c : BitVec 32) : BitVec 32 := b - 365 * c - c / 4

/-- The variable `e`. -/
def rtcE (d : BitVec 32) : BitVec 32 := d * 1000 / 30601

/-- The variable `f`. -/
def rtcF (d e : BitVec 32) : BitVec 32 := d - e * 30 - e * 601 / 1000

/-- `Mid_RTCConvertUnixToDate`. -/
def midRTCConvertUnixToDate (ulUnix : BitVec 64) : DateTime :=
  let ulUnix := if ulUnix < 1 then 0 else ulUnix
  let minutes := ulUnix / 60
  let hours := minutes / 60
  let days := hours / 24
  let a := rtcA days
  let b := rtcB days a
  let c := rtcC b
  let d := rtcD b c
  let e := rtcE d
  let f := rtcF d e
  let year := if e ≤ 13 then c - 4716 else c - 4715
  let month := if e ≤ 13 then e - 1 else e - 13
  {
    second := (ulUnix % 60).setWidth 8
    minute := (minutes % 60).setWidth 8
    hour := (hours % 24).setWidth 8
    day := f.setWidth 8
    month := month.setWidth 8
    year := year.setWidth 16
    milliseconds := 0
    dayOfWeek :=
      midRTCComputeDayOfWeek (year.setWidth 16) (month.setWidth 8) (f.setWidth 8) }

/-! ## From dates to seconds -/

/-- `Mid_RTCConvertDateToUnixTime`. The year, the month and the day are bytes. -/
def midRTCConvertDateToUnixTime (date : DateTime) : BitVec 64 :=
  let early := date.month ≤ 2
  let y := if early then date.year.setWidth 8 - 1 else date.year.setWidth 8
  let m := if early then date.month + 12 else date.month
  let d := date.day + 1
  let (y, m, d) := (y.toNat, m.toNat, d.toNat)
  let t := BitVec.ofNat 64 (365 * y + y / 4 - y / 100 + y / 400)
  let t := t + BitVec.ofNat 64 (30 * m + 3 * (m + 1) / 5 + d)
  let t := t - 65047
  let t := t * 86400
  t + BitVec.ofNat 64 (3600 * date.hour.toNat + 60 * date.minute.toNat + date.second.toNat)

/-! ## The clock -/

/-- The two globals of the clock. -/
structure RtcState where
  ullUnixTimeStamp : BitVec 64
  tCommonTime : DateTime
  deriving DecidableEq, Repr

/-- Both are zero at the start. -/
def RtcState.zero : RtcState where
  ullUnixTimeStamp := 0
  tCommonTime := {
    second := 0, minute := 0, hour := 0, day := 0, month := 0, year := 0, milliseconds := 0
    dayOfWeek := 0 }

/-- `Mid_RTCSetUnit`. -/
def midRTCSetUnit (ullUnixValue : BitVec 64) : RtcState where
  ullUnixTimeStamp := ullUnixValue
  tCommonTime := midRTCConvertUnixToDate ullUnixValue

/-- `Mid_RTCHandle`. -/
def midRTCHandle (s : RtcState) : RtcState := midRTCSetUnit (s.ullUnixTimeStamp + 1)

end IrRemote
