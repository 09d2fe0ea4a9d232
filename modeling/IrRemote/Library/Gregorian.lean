import Mathlib.Logic.Function.Iterate
import Mathlib.Tactic.IntervalCases

/-!
# The Gregorian calendar

Dates of the proleptic Gregorian calendar, in which a date follows the other. The date a number of
days later is computed by counting the years from March on: the day that some years have more than
others is then their last one.

## Main definitions

* `Gregorian.Date`, `Gregorian.Date.next` — a date, and the following one
* `Gregorian.marchDays` — the days before a year that starts in March
* `Gregorian.ofMarch` — the date of a day of such a year

## Main results

* `next_ofMarch` — the following day of a year that starts in March
* `iterate_next_ofMarch` — the date a number of days later
-/

set_option autoImplicit false

namespace Gregorian

/-- A year with 366 days. -/
def IsLeap (y : ℕ) : Prop := y % 4 = 0 ∧ (y % 100 ≠ 0 ∨ y % 400 = 0)

instance (y : ℕ) : Decidable (IsLeap y) := inferInstanceAs (Decidable (_ ∧ _))

/-- The number of days of a month. -/
def daysInMonth (y month : ℕ) : ℕ :=
  if month = 2 then if IsLeap y then 29 else 28
  else if month = 4 ∨ month = 6 ∨ month = 9 ∨ month = 11 then 30
  else 31

/-- A date. -/
structure Date where
  year : ℕ
  month : ℕ
  day : ℕ
  deriving DecidableEq, Repr

/-- The following date. -/
def Date.next (d : Date) : Date :=
  if d.day < daysInMonth d.year d.month then { d with day := d.day + 1 }
  else if d.month < 12 then { d with month := d.month + 1, day := 1 }
  else { year := d.year + 1, month := 1, day := 1 }

/-! ## Years from March -/

/-- The days from March of the year 0 to March of the year `y`. -/
def marchDays (y : ℕ) : ℕ := 365 * y + y / 4 - y / 100 + y / 400

/-- The number of the month, counted from March, that has the day. -/
def marchMonth (doy : ℕ) : ℕ := (5 * doy + 2) / 153

/-- The days of the year before the month. -/
def marchMonthDays (mp : ℕ) : ℕ := (153 * mp + 2) / 5

/-- The date of the day `doy` of the year that starts in March of `y`. -/
def ofMarch (y doy : ℕ) : Date where
  year := if marchMonth doy < 10 then y else y + 1
  month := if marchMonth doy < 10 then marchMonth doy + 3 else marchMonth doy - 9
  day := doy - marchMonthDays (marchMonth doy) + 1

variable {y doy y' doy' : ℕ}

/-- A quotient grows by one at the multiples of its divisor. -/
theorem succ_div_eq (n k : ℕ) : (n + 1) / k = n / k + if (n + 1) % k = 0 then 1 else 0 := by
  rw [Nat.succ_div]
  exact congrArg _ (if_congr Nat.dvd_iff_mod_eq_zero rfl rfl)

/-- The year that starts in March ends with the February of a leap year or of a common one. -/
theorem marchDays_succ (y : ℕ) :
    marchDays (y + 1) = marchDays y + if IsLeap (y + 1) then 366 else 365 := by
  have hfour : (y + 1) % 100 = 0 → (y + 1) % 4 = 0 := by omega
  have hcentury : (y + 1) % 400 = 0 → (y + 1) % 100 = 0 := by omega
  have hle : y / 100 ≤ y / 4 := Nat.div_le_div_left (by decide) (by decide)
  rw [marchDays, marchDays, succ_div_eq, succ_div_eq, succ_div_eq]
  generalize y / 4 = a, y / 100 = b, y / 400 = c at hle ⊢
  by_cases h400 : (y + 1) % 400 = 0
  · rw [if_pos h400, if_pos (hcentury h400), if_pos (hfour (hcentury h400)),
      if_pos (show IsLeap (y + 1) from ⟨hfour (hcentury h400), .inr h400⟩)]
    omega
  · rw [if_neg h400]
    by_cases h100 : (y + 1) % 100 = 0
    · rw [if_pos h100, if_pos (hfour h100), if_neg fun hleap : IsLeap (y + 1) =>
        hleap.2.elim (· h100) h400]
      omega
    · rw [if_neg h100]
      by_cases h4 : (y + 1) % 4 = 0
      · rw [if_pos h4, if_pos (show IsLeap (y + 1) from ⟨h4, .inl h100⟩)]
        omega
      · rw [if_neg h4, if_neg fun hleap : IsLeap (y + 1) => h4 hleap.1]
        omega

theorem marchDays_mono {y y' : ℕ} (h : y ≤ y') : marchDays y ≤ marchDays y' := by
  induction h with
  | refl => exact Nat.le_refl _
  | step _ ih => exact ih.trans ((Nat.le_add_right _ _).trans_eq (marchDays_succ _).symm)

/-- The month of a day starts before the day, and the next month behind it. -/
theorem marchMonth_spec (doy : ℕ) :
    marchMonthDays (marchMonth doy) ≤ doy ∧ doy < marchMonthDays (marchMonth doy + 1) := by
  unfold marchMonthDays marchMonth
  omega

/-- The lengths of the months from March to January. -/
theorem daysInMonth_march {mp : ℕ} (hmp : mp < 11) (y : ℕ) :
    marchMonthDays mp + daysInMonth y (if mp < 10 then mp + 3 else mp - 9) =
      marchMonthDays (mp + 1) := by
  interval_cases mp <;> rfl

/-- The length of the February. -/
theorem marchDays_february (y : ℕ) :
    marchDays (y + 1) = marchDays y + marchMonthDays 11 + daysInMonth (y + 1) 2 := by
  rw [marchDays_succ, daysInMonth, if_pos rfl, Nat.add_assoc]
  split_ifs <;> rfl

/-- A day that is not the last one of its month. -/
theorem next_ofMarch_of_lt
    (h : marchMonthDays (marchMonth doy) + daysInMonth (ofMarch y doy).year (ofMarch y doy).month >
      doy + 1) (hmonth : marchMonth (doy + 1) = marchMonth doy) :
    (ofMarch y doy).next = ofMarch y (doy + 1) := by
  have hlow := (marchMonth_spec doy).1
  have hday : (ofMarch y doy).day = doy - marchMonthDays (marchMonth doy) + 1 := rfl
  rw [Date.next, if_pos (by omega), ofMarch, ofMarch, hmonth, Nat.sub_add_comm hlow]

/-- The last day of a month. -/
theorem next_ofMarch_of_eq
    (h : marchMonthDays (marchMonth doy) + daysInMonth (ofMarch y doy).year (ofMarch y doy).month =
      doy + 1) :
    (ofMarch y doy).next =
      if (ofMarch y doy).month < 12 then ⟨(ofMarch y doy).year, (ofMarch y doy).month + 1, 1⟩
      else ⟨(ofMarch y doy).year + 1, 1, 1⟩ := by
  have hlow := (marchMonth_spec doy).1
  have hday : (ofMarch y doy).day = doy - marchMonthDays (marchMonth doy) + 1 := rfl
  rw [Date.next, if_neg (by omega)]

/-- The following day of the same year. -/
theorem next_ofMarch (h : marchDays y + doy + 1 < marchDays (y + 1)) :
    (ofMarch y doy).next = ofMarch y (doy + 1) := by
  have hyear := marchDays_succ y
  have hlast : doy < 365 := by
    split_ifs at hyear <;> omega
  have hmp : marchMonth doy < 12 := by
    rw [marchMonth]
    omega
  obtain ⟨hlow, hhigh⟩ := marchMonth_spec doy
  obtain ⟨hlow', hhigh'⟩ := marchMonth_spec (doy + 1)
  by_cases hfebruary : marchMonth doy = 11
  · have hmonth : marchMonth (doy + 1) = marchMonth doy := by
      rw [marchMonth] at hfebruary ⊢
      rw [marchMonth]
      omega
    refine next_ofMarch_of_lt ?_ hmonth
    have hlength := marchDays_february y
    have hdate : (ofMarch y doy).year = y + 1 ∧ (ofMarch y doy).month = 2 := by
      rw [ofMarch, hfebruary]
      exact ⟨rfl, rfl⟩
    rw [hdate.1, hdate.2, hfebruary]
    omega
  · have hlength := daysInMonth_march (by omega : marchMonth doy < 11) (ofMarch y doy).year
    by_cases hmonth : marchMonth (doy + 1) = marchMonth doy
    · refine next_ofMarch_of_lt ?_ hmonth
      rw [hmonth] at hhigh'
      exact hhigh'.trans_eq hlength.symm
    · -- the next day is the first one of the next month
      have hnext : marchMonth (doy + 1) = marchMonth doy + 1 := by
        rw [marchMonth] at hmonth ⊢
        rw [marchMonth] at hmonth ⊢
        omega
      rw [hnext] at hlow'
      have hfirst : doy + 1 = marchMonthDays (marchMonth doy + 1) := by omega
      rw [next_ofMarch_of_eq (hlength.trans hfirst.symm), ofMarch, ofMarch, hnext, hfirst,
        Nat.sub_self]
      dsimp only
      split_ifs <;> rw [Date.mk.injEq] <;> omega

/-- The last day of the year is followed by the first of March. -/
theorem next_ofMarch_last (h : marchDays y + doy + 1 = marchDays (y + 1)) :
    (ofMarch y doy).next = ofMarch (y + 1) 0 := by
  have hyear := marchDays_succ y
  have hfebruary : marchMonth doy = 11 := by
    rw [marchMonth]
    split_ifs at hyear <;> omega
  have hlength := marchDays_february y
  have hdate : (ofMarch y doy).year = y + 1 ∧ (ofMarch y doy).month = 2 := by
    rw [ofMarch, hfebruary]
    exact ⟨rfl, rfl⟩
  rw [next_ofMarch_of_eq, hdate.1, hdate.2]
  · rfl
  · rw [hdate.1, hdate.2, hfebruary]
    omega

/-- The date that is `n` days later. -/
theorem iterate_next_ofMarch (n : ℕ) (h' : marchDays y' + doy' < marchDays (y' + 1))
    (h : marchDays y + doy < marchDays (y + 1))
    (hn : marchDays y + doy = marchDays y' + doy' + n) :
    Date.next^[n] (ofMarch y' doy') = ofMarch y doy := by
  induction n generalizing y doy with
  | zero =>
    obtain rfl : y = y' := by
      by_contra hne
      obtain hlt | hgt := Nat.lt_or_gt_of_ne hne
      · have hmono : marchDays (y + 1) ≤ marchDays y' := marchDays_mono hlt
        omega
      · have hmono : marchDays (y' + 1) ≤ marchDays y := marchDays_mono hgt
        omega
    rw [Nat.add_left_cancel hn]
    rfl
  | succ n ih =>
    rw [Function.iterate_succ_apply']
    cases doy with
    | succ doy =>
      have hbefore : Date.next^[n] (ofMarch y' doy') = ofMarch y doy := ih (by omega) (by omega)
      rw [hbefore, next_ofMarch (by omega)]
    | zero =>
      -- the day before was the last one of the year before
      cases y with
      | zero =>
        have hstart : marchDays 0 = 0 := rfl
        omega
      | succ y =>
        have hpos : marchDays y < marchDays (y + 1) := by
          rw [marchDays_succ]
          split_ifs <;> omega
        have hbefore : Date.next^[n] (ofMarch y' doy') =
            ofMarch y (marchDays (y + 1) - marchDays y - 1) := ih (by omega) (by omega)
        rw [hbefore, next_ofMarch_last (by omega)]

end Gregorian
