import IrRemote.Clock.Calendar

/-!
# The conversion back to seconds

The conversion from dates to seconds keeps the year in a byte and counts one day more than it
should. The centuries of the byte are two from March 1992 on, one more than those that the
constant of the conversion is made for, and so the day is taken off again.

## Main results

* `toNat_convertDateToUnixTime` — the seconds that are found for the date of a second
* `date_to_unix_inverse_iff` — when they are the second itself
-/

set_option autoImplicit false

namespace IrRemote

open Gregorian

section Inverse

variable {n y doy : ℕ} {ulUnix : BitVec 64}

/-- The dates up to the year 2038. -/
theorem IsMarchDay.lt_of_year_le (h : IsMarchDay n y doy) (hyear : (ofMarch y doy).year ≤ 2038) :
    n < 25202 := by
  have hsum := h.sum
  have hlast := h.last
  rw [ofMarch, marchMonth] at hyear
  dsimp only at hyear
  rw [marchDays] at hsum
  rw [marchDays, marchDays] at hlast
  split_ifs at hyear with hmonth
  · omega
  · omega

/-- The years of the supported dates, counted from March. -/
theorem IsMarchDay.year_bounds (h : IsMarchDay n y doy) (hn : n < 25202) :
    1969 ≤ y ∧ y ≤ 2038 ∧ (y < 1992 ↔ n < 8095) := by
  have hsum := h.sum
  have hlast := h.last
  have hvalues : marchDays 1969 = 719162 ∧ marchDays 1992 = 727563 ∧ marchDays 2039 = 744729 := by
    decide
  refine ⟨?_, ?_, ?_, ?_⟩
  · by_contra hbefore
    have hmono := marchDays_mono (by omega : y + 1 ≤ 1969)
    omega
  · by_contra hbehind
    have hmono := marchDays_mono (by omega : 2039 ≤ y)
    omega
  · intro hbefore
    have hmono := marchDays_mono (by omega : y + 1 ≤ 1992)
    omega
  · intro hdays
    by_contra hbehind
    have hmono := marchDays_mono (by omega : 1992 ≤ y)
    omega

/-- The days that the conversion back counts: the centuries of the year are taken off the byte
that keeps it, which is 1792 less. -/
theorem days_back (h : IsMarchDay n y doy) (hn : n < 25202) :
    365 * (y - 1792) + (y - 1792) / 4 - (y - 1792) / 100 + (y - 1792) / 400 +
        (30 * (marchMonth doy + 3) + 3 * (marchMonth doy + 3 + 1) / 5 +
          (doy - marchMonthDays (marchMonth doy) + 1 + 1)) =
      65047 + n + if n < 8095 then 1 else 0 := by
  obtain ⟨hlow, hhigh, hcentury⟩ := h.year_bounds hn
  have hsum := h.sum
  have hmonth := (marchMonth_spec doy).1
  rw [← if_congr hcentury rfl rfl]
  generalize marchMonth doy = mp at *
  have hmonths : 30 * (mp + 3) + 3 * (mp + 3 + 1) / 5 = marchMonthDays mp + 92 := by
    rw [marchMonthDays]
    omega
  have hfour : (y - 1792) / 4 + 448 = y / 4 := by omega
  have hnone : (y - 1792) / 400 = 0 := Nat.div_eq_of_lt (by omega)
  have hcenturies : y / 100 - y / 400 = 15 := by omega
  rw [marchDays] at hsum
  rw [hmonths, hnone]
  split_ifs with hbefore
  · have hone : (y - 1792) / 100 = 1 := by omega
    omega
  · have htwo : (y - 1792) / 100 = 2 := by omega
    omega

/-- The conversion back of the date of `ulUnix`. -/
theorem toNat_convertDateToUnixTime (h : ulUnix.toNat / 86400 < 25202) :
    (midRTCConvertDateToUnixTime (midRTCConvertUnixToDate ulUnix)).toNat =
      ulUnix.toNat + if ulUnix.toNat / 86400 < 8095 then 86400 else 0 := by
  have hbound : ulUnix.toNat < 253402300800 := by omega
  obtain ⟨y, doy, hday, hyear, hmonth, hdate, -⟩ := convert_unix_to_date hbound
  obtain ⟨hhour, hminute, hsecond⟩ := toNat_time ulUnix
  obtain ⟨hlow, hhigh, -⟩ := hday.year_bounds h
  have hdoy := hday.doy_lt
  have hback := days_back hday h
  have hmp : marchMonth doy ≤ 11 := by
    rw [marchMonth]
    omega
  generalize midRTCConvertUnixToDate ulUnix = date at *
  dsimp only [ofMarch] at hyear hmonth hdate
  have hlength : doy - marchMonthDays (marchMonth doy) ≤ 30 := by
    have hspec := marchMonth_spec doy
    unfold marchMonthDays at hspec ⊢
    omega
  generalize marchMonth doy = mp at *
  obtain ⟨hearly, hm⟩ := toNat_late_month hmonth hmp
  have hy : (if date.month ≤ 2 then date.year.setWidth 8 - 1 else date.year.setWidth 8).toNat =
      y - 1792 := by
    have hbyte : (date.year.setWidth 8).toNat = date.year.toNat % 256 := BitVec.toNat_setWidth ..
    by_cases hjanuary : mp < 10
    · rw [if_pos hjanuary] at hyear
      rw [if_neg (hearly.not_left.mpr hjanuary), hbyte, hyear]
      omega
    · rw [if_neg hjanuary] at hyear
      rw [if_pos (hearly.mpr hjanuary)]
      exact (toNat_sub_of_fits (n := 1) hbyte rfl (by omega)).trans (by omega)
  have hd : (date.day + 1).toNat = doy - marchMonthDays mp + 1 + 1 :=
    toNat_add_of_fits (n := 1) hdate rfl (by omega)
  generalize hextra : (if ulUnix.toNat / 86400 < 8095 then 1 else 0) = extra at *
  have hseconds : (if ulUnix.toNat / 86400 < 8095 then 86400 else 0) = extra * 86400 := by
    rw [← hextra]
    split_ifs <;> rfl
  have hone : extra ≤ 1 := by
    rw [← hextra]
    split_ifs <;> decide
  rw [midRTCConvertDateToUnixTime, hy, hm, hd, hseconds]
  generalize 365 * (y - 1792) + (y - 1792) / 4 - (y - 1792) / 100 + (y - 1792) / 400 = p at *
  generalize 30 * (mp + 3) + 3 * (mp + 3 + 1) / 5 + (doy - marchMonthDays mp + 1 + 1) = q at *
  have hp : (BitVec.ofNat 64 p).toNat = p := Nat.mod_eq_of_lt (by omega)
  have hq : (BitVec.ofNat 64 q).toNat = q := Nat.mod_eq_of_lt (by omega)
  have hsum := toNat_add_of_fits hp hq (by omega)
  have hdays := toNat_sub_of_fits (n := 65047) (y := 65047) hsum rfl (by omega)
  have hscaled := toNat_mul_of_fits (n := 86400) (y := 86400) hdays rfl (by omega)
  have htime : (BitVec.ofNat 64 (3600 * date.hour.toNat + 60 * date.minute.toNat +
      date.second.toNat)).toNat = ulUnix.toNat % 86400 := by
    rw [hhour, hminute, hsecond]
    exact (Nat.mod_eq_of_lt (by omega)).trans (by omega)
  exact (toNat_add_of_fits hscaled htime (by omega)).trans (by omega)

end Inverse

/-- In the supported years the conversion back finds the seconds again from 1 March 1992 on. -/
theorem date_to_unix_inverse_iff (ulUnix : BitVec 64)
    (h : (calendarDate (ulUnix.toNat / 86400)).year ≤ 2038) :
    midRTCConvertDateToUnixTime (midRTCConvertUnixToDate ulUnix) = ulUnix ↔
      699408000 ≤ ulUnix.toNat := by
  obtain ⟨y, doy, -, -, hsum, hlast⟩ := convert_days (ulUnix.toNat / 86400)
  rw [calendarDate_eq hsum hlast] at h
  have hdays := IsMarchDay.lt_of_year_le ⟨hsum, hlast⟩ h
  rw [← BitVec.toNat_inj, toNat_convertDateToUnixTime hdays]
  split_ifs <;> omega

/-- 1 March 1992. -/
theorem date_to_unix_inverse_iff_march :
    midRTCConvertDateToUnixTime (midRTCConvertUnixToDate 699408000) = 699408000 := by
  have hyear : (calendarDate 8095).year ≤ 2038 := by
    have hdate : calendarDate 8095 = ofMarch 1992 0 := calendarDate_eq (by decide) (by decide)
    rw [hdate]
    decide
  exact (date_to_unix_inverse_iff 699408000 hyear).mpr (by decide)

/-- 1 January 1970 is converted back to the day behind it. -/
theorem date_to_unix_a_day_late :
    ¬∀ ulUnix : BitVec 64, (calendarDate (ulUnix.toNat / 86400)).year ≤ 2038 →
      midRTCConvertDateToUnixTime (midRTCConvertUnixToDate ulUnix) = ulUnix := by
  intro h
  have hstart := h 0 (by decide)
  revert hstart
  decide

end IrRemote
