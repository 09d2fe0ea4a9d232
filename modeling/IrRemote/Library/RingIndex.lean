import Mathlib.Algebra.Order.Ring.Nat
import Mathlib.Data.Nat.ModEq

/-!
# Indices of a ring

A ring of `n + 1` places holds at most `n` entries, one behind the other from a start place on.
An index goes on to the next place and from the last place to the first; the ring is empty when
the place behind the entries is the start, and full when the next one is. Blocks of equal size,
one for each place, share no address.

## Main definitions

* `RingIndex.next` — the next place
* `RingIndex.place` — the place of an entry

## Main results

* `RingIndex.place_injOn` — entries have places of their own
* `RingIndex.next_place_eq_start_iff`, `RingIndex.place_eq_start_iff` — a full and an empty ring
* `RingIndex.block_ne` — blocks of different places
-/

set_option autoImplicit false

namespace RingIndex

variable {n i j k start : ℕ}

/-- The next place of a ring of `n + 1` places. -/
def next (n i : ℕ) : ℕ := if i < n then i + 1 else 0

/-- The place of entry `k`, the first entry is number 0. -/
def place (n start k : ℕ) : ℕ := (start + k) % (n + 1)

theorem next_le : next n i ≤ n := by
  rw [next]
  split_ifs with h
  · exact h
  · exact Nat.zero_le n

theorem next_eq_mod (h : i ≤ n) : next n i = (i + 1) % (n + 1) := by
  rw [next]
  split_ifs with hlt
  · exact (Nat.mod_eq_of_lt (Nat.succ_lt_succ hlt)).symm
  · obtain rfl : i = n := le_antisymm h (not_lt.mp hlt)
    exact (Nat.mod_self _).symm

theorem place_le : place n start k ≤ n := Nat.lt_succ_iff.mp (Nat.mod_lt _ (Nat.succ_pos n))

theorem place_zero (h : start ≤ n) : place n start 0 = start :=
  Nat.mod_eq_of_lt (Nat.lt_succ_iff.mpr h)

/-- The place behind an entry is that of the next entry. -/
theorem next_place : next n (place n start k) = place n start (k + 1) := by
  rw [next_eq_mod place_le, place, place, Nat.mod_add_mod, Nat.add_assoc]

/-- When the first entry has left, the others are one closer to the start. -/
theorem place_next (h : start ≤ n) : place n (next n start) k = place n start (k + 1) := by
  rw [next_eq_mod h, place, place, Nat.mod_add_mod, Nat.add_assoc, Nat.add_comm 1]

/-- Entries that are less than a round apart have places of their own. -/
theorem place_injOn (hj : j ≤ n) (hk : k ≤ n) (h : place n start j = place n start k) : j = k := by
  have hmod : j ≡ k [MOD n + 1] := Nat.ModEq.add_left_cancel' start h
  exact hmod.eq_of_lt_of_lt (Nat.lt_succ_iff.mpr hj) (Nat.lt_succ_iff.mpr hk)

/-- The ring is empty when the place behind the entries is the start. -/
theorem place_eq_start_iff (hstart : start ≤ n) (hk : k ≤ n) : place n start k = start ↔ k = 0 := by
  constructor
  · intro h
    exact place_injOn hk (Nat.zero_le n) (h.trans (place_zero hstart).symm)
  · rintro rfl
    exact place_zero hstart

/-- The ring is full when the place behind the next entry is the start. -/
theorem next_place_eq_start_iff (hstart : start ≤ n) (hk : k ≤ n) :
    next n (place n start k) = start ↔ k = n := by
  rw [next_place]
  constructor
  · intro h
    rcases Nat.lt_or_eq_of_le hk with hlt | rfl
    · exact absurd ((place_eq_start_iff hstart hlt).mp h) (Nat.succ_ne_zero k)
    · rfl
  · rintro rfl
    rw [place, Nat.add_mod_right]
    exact Nat.mod_eq_of_lt (Nat.lt_succ_iff.mpr hstart)

/-- The entries that lie between two places. -/
theorem place_sub (hstart : start ≤ n) (hk : k ≤ n) :
    (if start ≤ place n start k then place n start k - start
      else n + 1 - start + place n start k) = k := by
  rcases Nat.lt_or_ge (start + k) (n + 1) with hlt | hge
  · rw [place, Nat.mod_eq_of_lt hlt, if_pos (Nat.le_add_right ..), Nat.add_sub_cancel_left]
  · have hwrap : place n start k = start + k - (n + 1) := by
      rw [place, Nat.mod_eq_sub_mod hge]
      exact Nat.mod_eq_of_lt (by omega)
    rw [hwrap, if_neg (by omega)]
    omega

variable {size o p : ℕ}

/-- Blocks of different places have no address in common. -/
theorem block_ne (hij : i ≠ j) (ho : o < size) (hp : p < size) : i * size + o ≠ j * size + p := by
  intro h
  have hdiv := congrArg (· / size) h
  have hsize : 0 < size := Nat.zero_lt_of_lt ho
  simp only [Nat.mul_comm _ size, Nat.mul_add_div hsize, Nat.div_eq_of_lt ho, Nat.div_eq_of_lt hp,
    Nat.add_zero] at hdiv
  exact hij hdiv

end RingIndex
