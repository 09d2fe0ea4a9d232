import IrRemote.Library.Gregorian
import IrRemote.Mid.Rtc

/-!
# The clock and the calendar

The conversion from seconds to dates counts the days of years that start in March: `c` is the
number of the year, up to a constant, and `d` the day of the year.

## Main definitions

* `calendarDate` — the date a number of days after 1 January 1970
* `ConvertFits`, `DayOfWeekFits` — no operation of the conversion leaves the range of its type

## Main results

* `convert_days` — the conversion finds the year from March and its day
* `unix_to_date_gregorian` — the date of every second up to the year 9999
-/

set_option autoImplicit false

namespace IrRemote

open Gregorian

/-- The date `n` days after 1 January 1970. -/
def calendarDate (n : ℕ) : Date := Date.next^[n] ⟨1970, 1, 1⟩

/-- 1 January 1970 in a year that starts in March. -/
theorem ofMarch_epoch : ofMarch 1969 306 = ⟨1970, 1, 1⟩ := by decide

theorem marchDays_epoch : marchDays 1969 + 306 = 719468 := by decide

/-- The date of a day of a year that starts in March. -/
theorem calendarDate_eq {n y doy : ℕ} (hn : marchDays y + doy = 719468 + n)
    (h : marchDays y + doy < marchDays (y + 1)) : calendarDate n = ofMarch y doy := by
  rw [calendarDate, ← ofMarch_epoch]
  refine iterate_next_ofMarch n (by decide) h ?_
  rw [marchDays_epoch, hn]

/-! ## The variables as numbers -/

/-- The variables of the conversion, without the bounds of their types. -/
structure CalendarTerms where
  a : ℕ
  b : ℕ
  c : ℕ
  d : ℕ
  deriving DecidableEq

/-- Their values for a number of days. -/
def calendarTerms (n : ℕ) : CalendarTerms :=
  let a := (4 * n + 102032) / 146097 + 15
  let b := n + 2442113 + a - a / 4
  let c := (20 * b - 2442) / 7305
  ⟨a, b, c, b - 365 * c - c / 4⟩

/-- The centuries of a day, counted by its number, are those of the year it is in. -/
theorem century_eq {n q y : ℕ} (hq : q = (4 * n + 3) / 146097)
    (hy : y = (4 * (n + q - q / 4) + 3) / 1461) : y / 100 = q := by
  omega

/-- The day is in the year that is found for it. -/
theorem march_year_spec {n q y : ℕ} (hq : q = (4 * n + 3) / 146097)
    (hy : y = (4 * (n + q - q / 4) + 3) / 1461) :
    marchDays y + (n + q - q / 4 - 365 * y - y / 4) = n ∧ n < marchDays (y + 1) := by
  have hcentury := century_eq hq hy
  have hfour : y / 400 = q / 4 := by
    rw [← hcentury, Nat.div_div_eq_div_mul]
  have hstart : 365 * y + y / 4 ≤ n + q - q / 4 := by omega
  constructor
  · rw [marchDays, hcentury, hfour]
    omega
  · obtain hsame | hturn : (y + 1) / 100 = q ∨ y + 1 = 100 * (q + 1) := by omega
    · have hnext : (y + 1) / 400 = q / 4 := by
        rw [← hsame, Nat.div_div_eq_div_mul]
      have hyear : 4 * (n + q - q / 4) + 3 < 1461 * (y + 1) := by omega
      rw [marchDays, hsame, hnext]
      omega
    · -- the year ends with the century
      have hnumber : 4 * n + 3 < 146097 * (q + 1) := by omega
      rw [marchDays, hturn]
      omega

/-- The conversion finds the year from March and its day. -/
theorem convert_days (n : ℕ) :
    ∃ y doy, (calendarTerms n).c = y + 4716 ∧ (calendarTerms n).d = doy + 123 ∧
      marchDays y + doy = 719468 + n ∧ marchDays y + doy < marchDays (y + 1) := by
  -- `q` is the century in the count from March of the year 0, and `j` the day with the days
  -- that its centuries are short of
  obtain ⟨q, hq⟩ : ∃ q, q = (4 * (719468 + n) + 3) / 146097 := ⟨_, rfl⟩
  obtain ⟨y, hy⟩ : ∃ y, y = (4 * (719468 + n + q - q / 4) + 3) / 1461 := ⟨_, rfl⟩
  obtain ⟨hsum, hlast⟩ := march_year_spec hq hy
  have ha : (calendarTerms n).a + 4 = q := by
    change (4 * n + 102032) / 146097 + 15 + 4 = q
    omega
  have hb : (calendarTerms n).b = 719468 + n + q - q / 4 + 1722642 := by
    change n + 2442113 + (calendarTerms n).a - (calendarTerms n).a / 4 = _
    omega
  have hc : (calendarTerms n).c = y + 4716 := by
    change (20 * (calendarTerms n).b - 2442) / 7305 = _
    omega
  refine ⟨y, _, hc, ?_, hsum, hsum.trans_lt hlast⟩
  change (calendarTerms n).b - 365 * (calendarTerms n).c - (calendarTerms n).c / 4 = _
  rw [hb, hc]
  omega

/-- The month and its day, from the day of the year. -/
theorem month_terms : ∀ doy < 366, (doy + 123) * 1000 / 30601 = marchMonth doy + 4 ∧
    doy + 123 - (marchMonth doy + 4) * 30 - (marchMonth doy + 4) * 601 / 1000 =
      doy - marchMonthDays (marchMonth doy) + 1 := by
  decide +kernel

/-! ## The operations -/

/-- No operation on the days and on the variables leaves the range of its type. -/
structure ConvertFits (days : BitVec 64) (a b c d e f : BitVec 32) : Prop where
  sum_a : 4 * days.toNat + 102032 < 18446744073709551616
  fits_a : (4 * days.toNat + 102032) / 146097 + 15 < 4294967296
  sum_b : days.toNat + 2442113 + a.toNat < 18446744073709551616
  fits_b : a.toNat / 4 ≤ days.toNat + 2442113 + a.toNat ∧
    days.toNat + 2442113 + a.toNat - a.toNat / 4 < 4294967296
  fits_c : 20 * b.toNat < 4294967296 ∧ 2442 ≤ 20 * b.toNat
  fits_d : 365 * c.toNat < 4294967296 ∧ 365 * c.toNat + c.toNat / 4 ≤ b.toNat
  fits_e : d.toNat * 1000 < 4294967296
  fits_f : e.toNat * 601 < 4294967296 ∧ e.toNat * 30 + e.toNat * 601 / 1000 ≤ d.toNat
  fits_year : 4716 ≤ c.toNat ∧ c.toNat - 4715 < 65536
  fits_month : 1 ≤ e.toNat ∧ e.toNat < 256
  fits_day : f.toNat < 256

/-- Nor does one of `midRTCComputeDayOfWeek`. -/
structure DayOfWeekFits (ulYear : BitVec 16) (ubMonth ubDay : BitVec 8) : Prop where
  fits_year : ubMonth ≤ 2 → 1 ≤ ulYear.toNat
  fits_month : ubMonth ≤ 2 → ubMonth.toNat + 12 < 256
  fits_h :
    let m := if ubMonth ≤ 2 then ubMonth.toNat + 12 else ubMonth.toNat
    let y := if ubMonth ≤ 2 then ulYear.toNat - 1 else ulYear.toNat
    ubDay.toNat + 26 * (m + 1) / 10 + y % 100 + y % 100 / 4 + 5 * (y / 100) + y / 100 / 4 < 65536

/-- No operation of the conversion wraps. -/
def ConvertNeverWraps (ulUnix : BitVec 64) : Prop :=
  let days := ulUnix / 60 / 60 / 24
  let a := rtcA days
  let b := rtcB days a
  let c := rtcC b
  let d := rtcD b c
  let e := rtcE d
  let date := midRTCConvertUnixToDate ulUnix
  ConvertFits days a b c d e (rtcF d e) ∧ DayOfWeekFits date.year date.month date.day

section Operations

variable {w m n : ℕ} {x y : BitVec w} {days : BitVec 64} {a b c d e : BitVec 32}

theorem toNat_add_of_fits (hx : x.toNat = m) (hy : y.toNat = n) (h : m + n < 2 ^ w) :
    (x + y).toNat = m + n := by
  rw [BitVec.toNat_add, hx, hy]
  exact Nat.mod_eq_of_lt h

theorem toNat_mul_of_fits (hx : x.toNat = m) (hy : y.toNat = n) (h : m * n < 2 ^ w) :
    (x * y).toNat = m * n := by
  rw [BitVec.toNat_mul, hx, hy]
  exact Nat.mod_eq_of_lt h

theorem toNat_sub_of_fits (hx : x.toNat = m) (hy : y.toNat = n) (h : n ≤ m) :
    (x - y).toNat = m - n := by
  rw [BitVec.toNat_sub_of_le (by rwa [BitVec.le_def, hx, hy]), hx, hy]

theorem toNat_div_of_fits (hx : x.toNat = m) (hy : y.toNat = n) : (x / y).toNat = m / n := by
  rw [BitVec.toNat_udiv, hx, hy]

theorem toNat_setWidth_of_fits {v : ℕ} (hx : x.toNat = m) (h : m < 2 ^ v) :
    (x.setWidth v).toNat = m := by
  rw [BitVec.toNat_setWidth, hx]
  exact Nat.mod_eq_of_lt h

theorem toNat_rtcA (h : days.toNat < 2932897) :
    (rtcA days).toNat = (4 * days.toNat + 102032) / 146097 + 15 := by
  have hmul : (4 * days).toNat = 4 * days.toNat := toNat_mul_of_fits rfl rfl (by omega)
  have hsum := toNat_add_of_fits (n := 102032) (y := 102032) hmul rfl (by omega)
  have hdiv := toNat_div_of_fits (n := 146097) (y := 146097) hsum rfl
  have ha := toNat_add_of_fits (n := 15) (y := 15) hdiv rfl (by omega)
  exact toNat_setWidth_of_fits ha (by omega)

theorem toNat_rtcB (h : days.toNat < 2932897) (ha : a.toNat < 256) :
    (rtcB days a).toNat = days.toNat + 2442113 + a.toNat - a.toNat / 4 := by
  have hstart : (days + 2442113).toNat = days.toNat + 2442113 :=
    toNat_add_of_fits rfl rfl (by omega)
  have hsum : (days + 2442113 + a.setWidth 64).toNat = days.toNat + 2442113 + a.toNat :=
    toNat_add_of_fits hstart (BitVec.toNat_setWidth_of_le (by decide)) (by omega)
  have hdiv : (a / 4).toNat = a.toNat / 4 := toNat_div_of_fits rfl rfl
  have hb := toNat_sub_of_fits hsum (toNat_setWidth_of_fits (v := 64) hdiv (by omega)) (by omega)
  exact toNat_setWidth_of_fits hb (by omega)

theorem toNat_rtcC (hlow : 123 ≤ b.toNat) (hhigh : b.toNat < 16777216) :
    (rtcC b).toNat = (20 * b.toNat - 2442) / 7305 := by
  have hmul : (20 * b).toNat = 20 * b.toNat := toNat_mul_of_fits rfl rfl (by omega)
  have hsub := toNat_sub_of_fits (n := 2442) (y := 2442) hmul rfl (by omega)
  exact toNat_div_of_fits hsub rfl

theorem toNat_rtcD (hb : b.toNat < 16777216) (hc : 365 * c.toNat + c.toNat / 4 ≤ b.toNat) :
    (rtcD b c).toNat = b.toNat - 365 * c.toNat - c.toNat / 4 := by
  have hmul : (365 * c).toNat = 365 * c.toNat := toNat_mul_of_fits rfl rfl (by omega)
  have hdiv : (c / 4).toNat = c.toNat / 4 := toNat_div_of_fits rfl rfl
  have hsub := toNat_sub_of_fits (m := b.toNat) rfl hmul (by omega)
  exact toNat_sub_of_fits hsub hdiv (by omega)

theorem toNat_rtcE (hd : d.toNat < 65536) : (rtcE d).toNat = d.toNat * 1000 / 30601 := by
  have hmul : (d * 1000).toNat = d.toNat * 1000 := toNat_mul_of_fits rfl rfl (by omega)
  exact toNat_div_of_fits hmul rfl

theorem toNat_rtcF (hd : d.toNat < 65536) (he : e.toNat * 30 + e.toNat * 601 / 1000 ≤ d.toNat) :
    (rtcF d e).toNat = d.toNat - e.toNat * 30 - e.toNat * 601 / 1000 := by
  have hmonths : (e * 30).toNat = e.toNat * 30 := toNat_mul_of_fits rfl rfl (by omega)
  have hmul : (e * 601).toNat = e.toNat * 601 := toNat_mul_of_fits rfl rfl (by omega)
  have hdiv := toNat_div_of_fits (n := 1000) (y := 1000) hmul rfl
  have hsub := toNat_sub_of_fits (m := d.toNat) rfl hmonths (by omega)
  exact toNat_sub_of_fits hsub hdiv (by omega)

end Operations

/-! ## The date -/

/-- The day `n` since 1 January 1970 is the day `doy` of the year from March of `y`. -/
structure IsMarchDay (n y doy : ℕ) : Prop where
  sum : marchDays y + doy = 719468 + n
  last : marchDays y + doy < marchDays (y + 1)

section Dates

variable {n y doy : ℕ} {days ulUnix : BitVec 64}

theorem IsMarchDay.doy_lt (h : IsMarchDay n y doy) : doy < 366 := by
  have hlast := h.last
  rw [marchDays_succ] at hlast
  split_ifs at hlast <;> omega

/-- Up to 31 December 9999. -/
theorem IsMarchDay.year_le (h : IsMarchDay n y doy) (hn : n < 2932897) : y ≤ 9999 := by
  have hsum := h.sum
  rw [marchDays] at hsum
  omega

/-- The variables of the conversion. -/
theorem rtc_variables (h : days.toNat < 2932897) :
    ∃ y doy, IsMarchDay days.toNat y doy ∧
      let a := rtcA days
      let b := rtcB days a
      let c := rtcC b
      let d := rtcD b c
      let e := rtcE d
      let f := rtcF d e
      c.toNat = y + 4716 ∧ e.toNat = marchMonth doy + 4 ∧
        f.toNat = doy - marchMonthDays (marchMonth doy) + 1 ∧ ConvertFits days a b c d e f := by
  dsimp only
  obtain ⟨y, doy, hc, hd, hsum, hlast⟩ := convert_days days.toNat
  have hday : IsMarchDay days.toNat y doy := ⟨hsum, hlast⟩
  have hdoy := hday.doy_lt
  have hyear := hday.year_le h
  obtain ⟨hmonth, hmonthDay⟩ := month_terms doy hdoy
  have hmp : marchMonth doy ≤ 11 := by
    rw [marchMonth]
    omega
  have ha := toNat_rtcA h
  have hb := toNat_rtcB h (a := rtcA days) (by omega)
  generalize rtcA days = a at *
  generalize rtcB days a = b at *
  have hterms : (calendarTerms days.toNat).c = (20 * b.toNat - 2442) / 7305 ∧
      (calendarTerms days.toNat).d =
        b.toNat - 365 * (calendarTerms days.toNat).c - (calendarTerms days.toNat).c / 4 := by
    rw [hb, ha]
    exact ⟨rfl, rfl⟩
  have hcvalue := toNat_rtcC (b := b) (by omega) (by omega)
  rw [← hterms.1, hc] at hcvalue
  rw [hc, ← hcvalue] at hterms
  generalize rtcC b = c at *
  have hdvalue := toNat_rtcD (b := b) (c := c) (by omega) (by omega)
  rw [← hterms.2, hd] at hdvalue
  generalize rtcD b c = d at *
  have hevalue := toNat_rtcE (d := d) (by omega)
  rw [hdvalue, hmonth] at hevalue
  generalize rtcE d = e at *
  have hfvalue := toNat_rtcF (d := d) (e := e) (by omega) (by omega)
  rw [hdvalue, hevalue, hmonthDay] at hfvalue
  refine ⟨y, doy, hday, hcvalue, hevalue, hfvalue, ?_⟩
  constructor <;> omega

/-- The year and the month, from the variables. -/
theorem toNat_year_month {c e : BitVec 32} {mp : ℕ} (hc : c.toNat = y + 4716)
    (he : e.toNat = mp + 4) (hy : y ≤ 9999) (hmp : mp ≤ 11) :
    ((if e ≤ 13 then c - 4716 else c - 4715).setWidth 16).toNat = (if mp < 10 then y else y + 1) ∧
      ((if e ≤ 13 then e - 1 else e - 13).setWidth 8).toNat =
        if mp < 10 then mp + 3 else mp - 9 := by
  have hmonth : e ≤ 13 ↔ mp < 10 := by
    have hlast : (13 : BitVec 32).toNat = 13 := rfl
    rw [BitVec.le_def, he, hlast]
    omega
  by_cases hearly : mp < 10
  · have hyear := toNat_sub_of_fits (n := 4716) (y := 4716) hc rfl (by omega)
    have hfirst := toNat_sub_of_fits (n := 1) (y := 1) he rfl (by omega)
    rw [if_pos (hmonth.mpr hearly), if_pos (hmonth.mpr hearly), if_pos hearly, if_pos hearly]
    refine ⟨?_, ?_⟩
    · exact toNat_setWidth_of_fits (hyear.trans (by omega)) (by omega)
    · exact toNat_setWidth_of_fits (hfirst.trans (by omega)) (by omega)
  · have hyear := toNat_sub_of_fits (n := 4715) (y := 4715) hc rfl (by omega)
    have hfirst := toNat_sub_of_fits (n := 13) (y := 13) he rfl (by omega)
    rw [if_neg (mt hmonth.mp hearly), if_neg (mt hmonth.mp hearly), if_neg hearly, if_neg hearly]
    refine ⟨?_, ?_⟩
    · exact toNat_setWidth_of_fits (hyear.trans (by omega)) (by omega)
    · exact toNat_setWidth_of_fits (hfirst.trans (by omega)) (by omega)

theorem toNat_days (ulUnix : BitVec 64) :
    (ulUnix / 60 / 60 / 24).toNat = ulUnix.toNat / 86400 := by
  have hminutes : (ulUnix / 60).toNat = ulUnix.toNat / 60 := toNat_div_of_fits rfl rfl
  have hhours := toNat_div_of_fits (n := 60) (y := 60) hminutes rfl
  have hdays := toNat_div_of_fits (n := 24) (y := 24) hhours rfl
  rw [hdays, Nat.div_div_eq_div_mul, Nat.div_div_eq_div_mul]

theorem clear_ulUnix (ulUnix : BitVec 64) : (if ulUnix < 1 then 0 else ulUnix) = ulUnix := by
  split_ifs with hzero
  · bv_omega
  · rfl

/-- The date is the one of the day in the year from March. -/
theorem convert_unix_to_date (h : ulUnix.toNat < 253402300800) :
    ∃ y doy, IsMarchDay (ulUnix.toNat / 86400) y doy ∧
      let date := midRTCConvertUnixToDate ulUnix
      date.year.toNat = (ofMarch y doy).year ∧ date.month.toNat = (ofMarch y doy).month ∧
        date.day.toNat = (ofMarch y doy).day ∧
        let days := ulUnix / 60 / 60 / 24
        let a := rtcA days
        let b := rtcB days a
        let c := rtcC b
        let d := rtcD b c
        let e := rtcE d
        ConvertFits days a b c d e (rtcF d e) := by
  have hdays := toNat_days ulUnix
  have hbound : (ulUnix / 60 / 60 / 24).toNat < 2932897 := by omega
  obtain ⟨y, doy, hday, hc, he, hf, hfits⟩ := rtc_variables hbound
  rw [hdays] at hday
  have hmp : marchMonth doy ≤ 11 := by
    have hdoy := hday.doy_lt
    rw [marchMonth]
    omega
  obtain ⟨hyear, hmonth⟩ := toNat_year_month hc he (hday.year_le (by omega)) hmp
  refine ⟨y, doy, hday, ?_, ?_, ?_, hfits⟩
  · rw [midRTCConvertUnixToDate, clear_ulUnix]
    exact hyear
  · rw [midRTCConvertUnixToDate, clear_ulUnix]
    exact hmonth
  · rw [midRTCConvertUnixToDate, clear_ulUnix]
    exact toNat_setWidth_of_fits hf (hf.symm.trans_lt hfits.fits_day)

/-- The congruence of the day of the week. -/
theorem dayOfWeek_congruence (h : IsMarchDay n y doy) :
    (doy - marchMonthDays (marchMonth doy) + 1 + 26 * (marchMonth doy + 4) / 10 + y % 100 +
      y % 100 / 4 + 5 * (y / 100) + y / 100 / 4 + 5) % 7 = (n + 3) % 7 := by
  have hsum := h.sum
  have hlow := (marchMonth_spec doy).1
  generalize marchMonth doy = mp at *
  have hfour : y / 400 = y / 100 / 4 := by rw [Nat.div_div_eq_div_mul]
  have hquarter : y / 4 = 25 * (y / 100) + y % 100 / 4 := by omega
  have hmonths : (153 * mp + 2) / 5 = 30 * mp + (3 * mp + 2) / 5 := by omega
  have hweeks : 26 * (mp + 4) / 10 = 2 * mp + 10 + (3 * mp + 2) / 5 := by omega
  have hcentury := Nat.div_add_mod y 100
  rw [marchDays, hfour, hquarter] at hsum
  rw [marchMonthDays, hmonths] at hlow ⊢
  rw [hweeks]
  generalize y / 100 = j, y % 100 = k, (3 * mp + 2) / 5 = t at *
  subst hcentury
  omega

/-- January and February count as the months 13 and 14. -/
theorem toNat_late_month {ubMonth : BitVec 8} {mp : ℕ}
    (h : ubMonth.toNat = if mp < 10 then mp + 3 else mp - 9) (hmp : mp ≤ 11) :
    (ubMonth ≤ 2 ↔ ¬mp < 10) ∧ (if ubMonth ≤ 2 then ubMonth + 12 else ubMonth).toNat = mp + 3 := by
  have htwo : (2 : BitVec 8).toNat = 2 := rfl
  have hearly : ubMonth ≤ 2 ↔ ¬mp < 10 := by
    rw [BitVec.le_def, htwo, h]
    split_ifs <;> omega
  refine ⟨hearly, ?_⟩
  by_cases hjanuary : mp < 10
  · rw [if_neg (hearly.not_left.mpr hjanuary), h, if_pos hjanuary]
  · rw [if_neg hjanuary] at h
    rw [if_pos (hearly.mpr hjanuary)]
    exact (toNat_add_of_fits (n := 12) h rfl (by omega)).trans (by omega)

/-- The day of the week of the date. -/
theorem toNat_dayOfWeek {ulYear : BitVec 16} {ubMonth ubDay : BitVec 8} (h : IsMarchDay n y doy)
    (hy : y ≤ 9999) (hyear : ulYear.toNat = (ofMarch y doy).year)
    (hmonth : ubMonth.toNat = (ofMarch y doy).month) (hday : ubDay.toNat = (ofMarch y doy).day) :
    (midRTCComputeDayOfWeek ulYear ubMonth ubDay).toNat = (n + 3) % 7 + 1 ∧
      DayOfWeekFits ulYear ubMonth ubDay := by
  have hdoy := h.doy_lt
  have hcongruence := dayOfWeek_congruence h
  have hlow := (marchMonth_spec doy).1
  have hmp : marchMonth doy ≤ 11 := by
    rw [marchMonth]
    omega
  dsimp only [ofMarch] at hyear hmonth hday
  generalize marchMonth doy = mp at *
  obtain ⟨hearly, hmonthByte⟩ := toNat_late_month hmonth hmp
  have hm : (if ubMonth ≤ 2 then ubMonth.toNat + 12 else ubMonth.toNat) = mp + 3 := by
    rw [hmonth]
    by_cases hjanuary : mp < 10
    · rw [if_neg (hearly.not_left.mpr hjanuary), if_pos hjanuary]
    · rw [if_pos (hearly.mpr hjanuary), if_neg hjanuary]
      omega
  have hy' : (if ubMonth ≤ 2 then ulYear.toNat - 1 else ulYear.toNat) = y := by
    rw [hyear]
    by_cases hjanuary : mp < 10
    · rw [if_neg (hearly.not_left.mpr hjanuary), if_pos hjanuary]
    · rw [if_pos (hearly.mpr hjanuary), if_neg hjanuary, Nat.add_sub_cancel]
  have hfits : DayOfWeekFits ulYear ubMonth ubDay := by
    refine ⟨fun hle => ?_, fun hle => ?_, ?_⟩
    · rw [if_pos hle] at hy'
      rw [hyear, if_neg (hearly.mp hle)]
      omega
    · rw [if_pos hle] at hm
      omega
    · rw [hm, hy', hday]
      dsimp only
      omega
  have hyearWord : (if ubMonth ≤ 2 then ulYear - 1 else ulYear).toNat = y := by
    rw [← hy']
    split_ifs with hle
    · exact toNat_sub_of_fits rfl rfl (hfits.fits_year hle)
    · rfl
  refine ⟨?_, hfits⟩
  have hj := toNat_div_of_fits (n := 100) (y := 100) hyearWord rfl
  have hk : ((if ubMonth ≤ 2 then ulYear - 1 else ulYear) % 100).toNat = y % 100 := by
    rw [BitVec.toNat_umod, hyearWord]
    rfl
  have hsum := hfits.fits_h
  dsimp only at hsum
  rw [hm, hy'] at hsum
  rw [midRTCComputeDayOfWeek, hj, hk, hmonthByte, BitVec.toNat_ofNat, BitVec.toNat_ofNat,
    Nat.mod_eq_of_lt (b := 2 ^ 16) hsum, hday, hcongruence]
  omega

theorem toNat_time (ulUnix : BitVec 64) :
    (midRTCConvertUnixToDate ulUnix).hour.toNat = ulUnix.toNat % 86400 / 3600 ∧
      (midRTCConvertUnixToDate ulUnix).minute.toNat = ulUnix.toNat % 86400 / 60 % 60 ∧
      (midRTCConvertUnixToDate ulUnix).second.toNat = ulUnix.toNat % 86400 % 60 := by
  have hminutes : (ulUnix / 60).toNat = ulUnix.toNat / 60 := toNat_div_of_fits rfl rfl
  have hhours := toNat_div_of_fits (n := 60) (y := 60) hminutes rfl
  rw [midRTCConvertUnixToDate, clear_ulUnix]
  refine ⟨?_, ?_, ?_⟩
  · have hmod : (ulUnix / 60 / 60 % 24).toNat = ulUnix.toNat / 60 / 60 % 24 := by
      rw [BitVec.toNat_umod, hhours]
      rfl
    exact (toNat_setWidth_of_fits hmod (by omega)).trans (by omega)
  · have hmod : (ulUnix / 60 % 60).toNat = ulUnix.toNat / 60 % 60 := by
      rw [BitVec.toNat_umod, hminutes]
      rfl
    exact (toNat_setWidth_of_fits hmod (by omega)).trans (by omega)
  · have hmod : (ulUnix % 60).toNat = ulUnix.toNat % 60 := BitVec.toNat_umod
    exact (toNat_setWidth_of_fits hmod (by omega)).trans (by omega)

end Dates

/-- Up to the end of the year 9999 the conversion yields the time of the day, the date and the day
of the week, with Monday as 1, and no operation wraps. -/
theorem unix_to_date_gregorian (ulUnix : BitVec 64) (h : ulUnix.toNat < 253402300800) :
    (midRTCConvertUnixToDate ulUnix).hour.toNat = ulUnix.toNat % 86400 / 3600 ∧
      (midRTCConvertUnixToDate ulUnix).minute.toNat = ulUnix.toNat % 86400 / 60 % 60 ∧
      (midRTCConvertUnixToDate ulUnix).second.toNat = ulUnix.toNat % 86400 % 60 ∧
      (⟨(midRTCConvertUnixToDate ulUnix).year.toNat, (midRTCConvertUnixToDate ulUnix).month.toNat,
        (midRTCConvertUnixToDate ulUnix).day.toNat⟩ : Date) = calendarDate (ulUnix.toNat / 86400) ∧
      (midRTCConvertUnixToDate ulUnix).dayOfWeek.toNat = (ulUnix.toNat / 86400 + 3) % 7 + 1 ∧
      ConvertNeverWraps ulUnix := by
  obtain ⟨y, doy, hday, hyear, hmonth, hdate, hfits⟩ := convert_unix_to_date h
  have hlast := hday.year_le (by omega : ulUnix.toNat / 86400 < 2932897)
  obtain ⟨hweek, hweekFits⟩ := toNat_dayOfWeek hday hlast hyear hmonth hdate
  obtain ⟨hhour, hminute, hsecond⟩ := toNat_time ulUnix
  refine ⟨hhour, hminute, hsecond, ?_, ?_, hfits, hweekFits⟩
  · rw [calendarDate_eq hday.sum hday.last, hyear, hmonth, hdate]
  · rw [← hweek, midRTCConvertUnixToDate]

/-- 29 February 2024, a Thursday. -/
theorem unix_to_date_gregorian_leap_day :
    (midRTCConvertUnixToDate 1709210096).dayOfWeek.toNat = 4 ∧
      (⟨(midRTCConvertUnixToDate 1709210096).year.toNat,
        (midRTCConvertUnixToDate 1709210096).month.toNat,
        (midRTCConvertUnixToDate 1709210096).day.toNat⟩ : Date) = calendarDate 19782 := by
  obtain ⟨-, -, -, hdate, hweek, -⟩ := unix_to_date_gregorian 1709210096 (by decide)
  exact ⟨hweek, hdate⟩

end IrRemote
