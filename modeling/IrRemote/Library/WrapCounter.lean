import Mathlib.Algebra.Order.Ring.Nat
import Mathlib.Data.Nat.Basic

/-!
# Free-running counters read through a divider

A counter modulo `m * k` that is read divided by `k`. Until it passes its end the readings
tell how many units have elapsed since the start; from then on they are `m` units behind,
which a difference of words only makes up for when `m` is the number of words.

## Main definitions

* `WrapCounter.value` — the counter so many ticks later
* `WrapCounter.units` — the units that have elapsed between two readings
* `WrapCounter.Passed` — the counter has passed its end

## Main results

* `WrapCounter.reading_of_not_passed`, `WrapCounter.reading_of_passed` — what is read
-/

set_option autoImplicit false

namespace WrapCounter

variable {m k c c' e e' : ℕ}

/-- The counter that stood at `c`, so many ticks later. -/
def value (n c e : ℕ) : ℕ := (c + e) % n

/-- The counter has passed its end. -/
def Passed (n c e : ℕ) : Prop := n ≤ c + e

instance {n : ℕ} : Decidable (Passed n c e) := inferInstanceAs (Decidable (_ ≤ _))

/-- The units that have elapsed, a unit that has begun before the start included. -/
def units (k c e : ℕ) : ℕ := (c % k + e) / k

theorem Passed.mono {n : ℕ} (h : Passed n c e) (hc : c ≤ c') (he : e ≤ e') : Passed n c' e' :=
  h.trans (Nat.add_le_add hc he)

theorem units_mono (h : e ≤ e') : units k c e ≤ units k c e' :=
  Nat.div_le_div_right (Nat.add_le_add_left h _)

theorem units_congr (h : c % k = c' % k) : units k c e = units k c' e := by
  rw [units, units, h]

/-- The units elapse on top of those at the start. -/
theorem add_div_eq (hk : 0 < k) : (c + e) / k = c / k + units k c e := by
  rw [units, ← Nat.mul_add_div hk, ← Nat.add_assoc, Nat.div_add_mod]

theorem units_le (hk : 0 < k) (he : e < m * k) : units k c e ≤ m := by
  -- the part of a unit at the start adds less than one
  have hlt : c % k + e < (m + 1) * k := by
    rw [Nat.add_mul, Nat.one_mul, Nat.add_comm]
    exact Nat.add_lt_add he (Nat.mod_lt _ hk)
  exact Nat.lt_succ_iff.mp (Nat.div_lt_of_lt_mul (by rwa [Nat.mul_comm]))

/-- No time is lost by more than a unit. -/
theorem le_of_le_units (hk : 0 < k) {d : ℕ} (h : d ≤ units k c e) : k * d ≤ e + k := by
  have hle : k * d ≤ c % k + e := by
    rw [Nat.mul_comm]
    exact (Nat.le_div_iff_mul_le hk).mp h
  have hmod : c % k < k := Nat.mod_lt _ hk
  omega

/-- A counter that has elapsed once around has passed its end. -/
theorem passed_of_units (h : m ≤ units k c e) : Passed (m * k) c e := by
  have hle : m * k ≤ c % k + e := (Nat.mul_le_mul_right k h).trans (Nat.div_mul_le_self _ k)
  exact hle.trans (Nat.add_le_add_right (Nat.mod_le c k) e)

/-- Up to the end, the reading tells the units that have elapsed. -/
theorem reading_of_not_passed (hk : 0 < k) (h : ¬Passed (m * k) c e) :
    value (m * k) c e / k = c / k + units k c e := by
  rw [value, Nat.mod_eq_of_lt (Nat.not_le.mp h), add_div_eq hk]

/-- From the end on, it is behind by a whole turn. -/
theorem reading_of_passed (hk : 0 < k) (hc : c < m * k) (he : e < m * k)
    (h : Passed (m * k) c e) : value (m * k) c e / k + m = c / k + units k c e := by
  -- less than two turns have elapsed in all
  have hvalue : value (m * k) c e = c + e - m * k := by
    rw [value, Nat.mod_eq_sub_mod h, Nat.mod_eq_of_lt (by omega)]
  have hle : m ≤ (c + e) / k := (Nat.le_div_iff_mul_le hk).mpr h
  rw [hvalue, Nat.mul_comm m k, Nat.sub_mul_div, Nat.sub_add_cancel hle, add_div_eq hk]

end WrapCounter
