import IrRemote.Library.LineSignal

/-!
# Manchester code

Every bit of a word is a level and its opposite, so a receiver finds a transition in the
middle of every bit. The halves of a wide bit are held for two units. Between two
transitions there are few units, so a receiver never loses the clock.

## Main definitions

* `Manchester.halves` — the level of every unit of a coded word

* `Manchester.IsWord` — the levels a receiver hears of a word

## Main results

* `Manchester.noRun_halves` — no level is held for three units
* `Manchester.noRun_halves_wide` — no level is held for four units when wide bits are apart
* `Manchester.length_halves`, `Manchester.silence_lt_two` — the length of a word
-/

set_option autoImplicit false

namespace Manchester

open LineSignal

variable {wide : ℕ → Bool} {i : ℕ} {a : Bool} {bits : List Bool}

/-- The level of every unit of the bits from index `i` on. -/
def halves (wide : ℕ → Bool) : ℕ → List Bool → List Bool
  | _, [] => []
  | i, b :: bits =>
    (if wide i then [b, b, !b, !b] else [b, !b]) ++ halves wide (i + 1) bits

/-- Both levels occur in a bit. -/
theorem mem_unitsOfBit (wide b l : Bool) : l ∈ if wide then [b, b, !b, !b] else [b, !b] := by
  cases wide <;> cases b <;> cases l <;> decide

/-- Without wide bits every bit is a level and its opposite. -/
theorem halves_of_narrow (h : ∀ i, wide i = false) :
    halves wide i bits = bits.flatMap fun b => [b, !b] := by
  induction bits generalizing i with
  | nil => rfl
  | cons b bits ih =>
    rw [halves, h i, ih]
    rfl

/-- A word begins with at most two equal units. -/
theorem not_replicate_three_isPrefix_halves : ¬List.replicate 3 a <+: halves wide i bits := by
  cases bits with
  | nil => simp [halves]
  | cons b bits =>
    rw [halves]
    -- the third unit is in the other half, or in the next bit behind a transition
    split_ifs <;> cases a <;> cases b <;> simp [List.replicate]

/-- A word whose first bit is not wide begins with a transition. -/
theorem not_replicate_two_isPrefix_halves (hi : wide i = false) :
    ¬List.replicate 2 a <+: halves wide i bits := by
  cases bits with
  | nil => simp [halves]
  | cons b bits =>
    rw [halves, hi]
    cases a <;> cases b <;> simp [List.replicate]

theorem noRun_halves (h : ∀ i, wide i = false) : NoRun 3 (halves wide i bits) := by
  induction bits generalizing i with
  | nil => exact noRun_nil
  | cons b bits ih =>
    rw [halves, h i]
    have hrest : ¬List.replicate 2 (!b) <+: halves wide (i + 1) bits :=
      not_replicate_two_isPrefix_halves (h _)
    refine noRun_cons.mpr ⟨?_, noRun_cons.mpr ⟨hrest, ih⟩⟩
    cases b <;> simp [List.replicate]

theorem noRun_halves_wide (h : ∀ i, wide i = true → wide (i + 1) = false) :
    NoRun 4 (halves wide i bits) := by
  induction bits generalizing i with
  | nil => exact noRun_nil
  | cons b bits ih =>
    have hthree : ¬List.replicate 3 (!b) <+: halves wide (i + 1) bits :=
      not_replicate_three_isPrefix_halves
    rw [halves]
    split_ifs with hwide
    · have htwo : ¬List.replicate 2 (!b) <+: halves wide (i + 1) bits :=
        not_replicate_two_isPrefix_halves (h i hwide)
      refine noRun_cons.mpr ⟨?_, noRun_cons.mpr ⟨?_, noRun_cons.mpr ⟨?_,
        noRun_cons.mpr ⟨hthree, ih⟩⟩⟩⟩
      · cases b <;> simp [List.replicate]
      · cases b <;> simp [List.replicate]
      · rw [List.replicate_succ]
        intro hhead
        exact htwo (List.cons_prefix_cons.mp hhead).2
    · refine noRun_cons.mpr ⟨?_, noRun_cons.mpr ⟨hthree, ih⟩⟩
      cases b <;> simp [List.replicate]

/-! ## Words -/

variable {j w n : ℕ} {levels bits' : List Bool} {b : Bool} {wide' : ℕ → Bool}

theorem halves_append (wide : ℕ → Bool) (i : ℕ) (bits bits' : List Bool) :
    halves wide i (bits ++ bits') = halves wide i bits ++ halves wide (i + bits.length) bits' := by
  induction bits generalizing i with
  | nil => rfl
  | cons b bits ih =>
    rw [List.cons_append, halves, halves, ih, List.append_assoc, List.length_cons,
      Nat.add_right_comm, Nat.add_assoc]

/-- The halves depend on which bits are wide, and not on their indices. -/
theorem halves_congr (h : ∀ m, wide (i + m) = wide' (j + m)) :
    halves wide i bits = halves wide' j bits := by
  induction bits generalizing i j with
  | nil => rfl
  | cons b bits ih =>
    have hfirst : wide i = wide' j := h 0
    have hrest : halves wide (i + 1) bits = halves wide' (j + 1) bits := by
      apply ih
      intro m
      rw [Nat.add_right_comm, Nat.add_right_comm j]
      exact h (m + 1)
    rw [halves, halves, hfirst, hrest]

/-- Two units for every bit, and two more for a wide one. -/
theorem length_halves (hwide : ∀ i, wide i = true ↔ i = w) :
    (halves wide i bits).length =
      2 * bits.length + if i ≤ w ∧ w < i + bits.length then 2 else 0 := by
  induction bits generalizing i with
  | nil => simp [halves]
  | cons b bits ih =>
    rw [halves, List.length_append, ih, List.length_cons]
    by_cases hi : wide i = true
    · obtain rfl := (hwide i).mp hi
      rw [if_pos hi, if_neg (by omega), if_pos (by omega)]
      simp only [List.length_cons, List.length_nil]
      omega
    · have hne : i ≠ w := fun h => hi ((hwide i).mpr h)
      rw [if_neg hi]
      split_ifs <;> simp only [List.length_cons, List.length_nil] <;> omega

theorem length_halves_of_narrow (h : ∀ i, wide i = false) :
    (halves wide i bits).length = 2 * bits.length := by
  rw [halves_of_narrow h, List.length_flatMap]
  simp [Nat.mul_comm]

/-- The levels of a coded word of at least one bit. A receiver does not hear where silence
ends, so levels of silence may be missing at its end. -/
def IsWord (wide : ℕ → Bool) (levels : List Bool) : Prop :=
  ∃ bits n, bits ≠ [] ∧ levels ++ List.replicate n false = halves wide 0 bits

/-- At most one half of a last bit that is not wide is silence. -/
theorem silence_lt_two (h : levels ++ List.replicate n false = halves wide i (bits ++ [b]))
    (hlast : wide (i + bits.length) = false) : n < 2 := by
  by_contra hn
  obtain ⟨m, rfl⟩ : ∃ m, n = m + 2 := ⟨n - 2, by omega⟩
  have hsingle : halves wide (i + bits.length) [b] = [b, !b] := by
    rw [halves, hlast]
    rfl
  rw [halves_append, hsingle, List.replicate_add, ← List.append_assoc] at h
  have hbit : List.replicate 2 false = [b, !b] := (List.append_inj' h rfl).2
  cases b <;> simp [List.replicate] at hbit

end Manchester
