import IrRemote.Command.WellFormed

/-!
# Setting the clock

The set command of the clock is a number of decimal digits with spaces behind it. Every digit is
weighted by its distance from the end of the text, in 32 bits, and every space divides the sum by
the weight of all bytes that follow it: one space undoes its own weight, two divide once too often.

## Main definitions

* `timeStampText` — digits with spaces behind them
* `weightedDigits`, `divideSpaces` — what the two kinds of bytes make of the number
* `StoresTimeStamp` — the clock is set to the number that was written

## Main results

* `weightedDigits_eq_iff` — the numbers none of whose products wraps
* `storesTimeStamp_iff` — the texts that set the clock to their number
-/

set_option autoImplicit false

namespace IrRemote

/-- Digits, and spaces up to the length of the characteristic. -/
def timeStampText (digits : List (BitVec 8)) (spaces : ℕ) : List (BitVec 8) :=
  digits ++ List.replicate spaces 0x20

/-- The sum of the digits with their weights, when some bytes follow them. -/
def weightedDigits (spaces : ℕ) : List (BitVec 8) → ℕ
  | [] => 0
  | c :: digits =>
    digitValue c * 10 ^ (digits.length + spaces) % 4294967296 + weightedDigits spaces digits

/-- The spaces at the end divide the sum. -/
def divideSpaces : ℕ → ℕ → ℕ
  | 0, sum => sum
  | spaces + 1, sum => divideSpaces spaces (sum / (10 ^ (spaces + 1) % 4294967296))

/-- The conversion gives the number that was written, and the clock is set to it. -/
def StoresTimeStamp (digits : List (BitVec 8)) (spaces : ℕ) : Prop :=
  (∃ t, convertStringToTimeStamp (timeStampText digits spaces) = some t ∧
    t.toNat = decimalValue digits) ∧
  ∃ rtc, midDecodeRTCSet (timeStampText digits spaces) = some rtc ∧
    rtc.ullUnixTimeStamp.toNat = decimalValue digits

variable {digits : List (BitVec 8)} {c : BitVec 8} {spaces sum : ℕ}

/-! ## The digits -/

theorem toNat_power (n : ℕ) : (power 10 n).toNat = 10 ^ n % 4294967296 := by
  induction n with
  | zero => rfl
  | succ n ih =>
    rw [power, BitVec.toNat_mul, ih, Nat.pow_succ]
    exact Nat.mod_mul_mod ..

theorem ne_space_of_isDigit (h : IsDigit c) : c ≠ 0x20 := by
  rintro rfl
  exact absurd h (by decide)

/-- The product of a digit and its weight. -/
theorem toNat_digit_mul_power (h : IsDigit c) (n : ℕ) :
    (((c.setWidth 32 - 0x30) * power 10 n).setWidth 64).toNat =
      digitValue c * 10 ^ n % 4294967296 := by
  have hdigit : (c.setWidth 32 - 0x30).toNat = digitValue c := by
    revert c
    decide
  rw [BitVec.toNat_setWidth, BitVec.toNat_mul, hdigit, toNat_power, Nat.mul_mod_mod]
  exact Nat.mod_eq_of_lt ((Nat.mod_lt _ (by decide)).trans (by decide))

theorem weightedDigits_le_mul (spaces : ℕ) (digits : List (BitVec 8)) :
    weightedDigits spaces digits ≤ digits.length * 4294967296 := by
  induction digits with
  | nil => exact Nat.zero_le _
  | cons c digits ih =>
    have hterm : digitValue c * 10 ^ (digits.length + spaces) % 4294967296 < 4294967296 :=
      Nat.mod_lt _ (by decide)
    rw [weightedDigits, List.length_cons]
    omega

/-- The digits are summed up, and the rest of the text goes on from their sum. -/
theorem timeStampDigits_append (hdigits : ∀ c ∈ digits, IsDigit c) (rest : List (BitVec 8))
    (acc : BitVec 64) :
    timeStampDigits (digits ++ rest) acc =
      timeStampDigits rest (acc + BitVec.ofNat 64 (weightedDigits rest.length digits)) := by
  induction digits generalizing acc with
  | nil =>
    rw [List.nil_append, weightedDigits]
    exact congrArg _ (BitVec.add_zero acc).symm
  | cons c digits ih =>
    obtain ⟨hc, hdigits⟩ := List.forall_mem_cons.mp hdigits
    have hterm : ((c.setWidth 32 - 0x30) * power 10 (digits ++ rest).length).setWidth 64 =
        BitVec.ofNat 64 (digitValue c * 10 ^ (digits.length + rest.length) % 4294967296) := by
      apply BitVec.eq_of_toNat_eq
      rw [toNat_digit_mul_power hc, List.length_append, BitVec.toNat_ofNat]
      exact (Nat.mod_eq_of_lt ((Nat.mod_lt _ (by decide)).trans (by decide))).symm
    rw [List.cons_append, timeStampDigits, if_neg (ne_space_of_isDigit hc), hterm, ih hdigits,
      weightedDigits, BitVec.add_assoc, BitVec.ofNat_add]

/-- A digit in front of a smaller number, both below the first product that wraps: the tenth byte
from the end weighs 10 ^ 9, and its fivefold does not fit 32 bits. -/
theorem digit_mul_lt_iff {d n rest : ℕ} (hd : d < 10) (hrest : rest < 10 ^ n) :
    d * 10 ^ n < 4294967296 ∧ rest < 5000000000 ↔ d * 10 ^ n + rest < 5000000000 := by
  -- below the tenth byte nothing wraps, and above it every digit but 0 does
  rcases Nat.lt_trichotomy n 9 with hn | rfl | hn
  · have hpow : 10 ^ n ≤ 10 ^ 8 := Nat.pow_le_pow_right (by decide) (Nat.le_of_lt_succ hn)
    have hmul : d * 10 ^ n ≤ 9 * 10 ^ 8 := Nat.mul_le_mul (Nat.le_of_lt_succ hd) hpow
    omega
  · omega
  · have hpow : 10 ^ 10 ≤ 10 ^ n := Nat.pow_le_pow_right (by decide) hn
    rcases Nat.eq_zero_or_pos d with rfl | hpos
    · omega
    · have hmul : 1 * 10 ^ 10 ≤ d * 10 ^ n := Nat.mul_le_mul hpos hpow
      omega

/-- Products that wrap make the sum smaller. It is exact when the number with its spaces as zeros
is below 5000000000. -/
theorem weightedDigits_eq_iff (hdigits : ∀ c ∈ digits, IsDigit c) (spaces : ℕ) :
    weightedDigits spaces digits ≤ decimalValue digits * 10 ^ spaces ∧
      (weightedDigits spaces digits = decimalValue digits * 10 ^ spaces ↔
        decimalValue digits * 10 ^ spaces < 5000000000) := by
  induction digits with
  | nil => simp [weightedDigits, decimalValue]
  | cons c digits ih =>
    obtain ⟨hc, hdigits⟩ := List.forall_mem_cons.mp hdigits
    obtain ⟨hle, hiff⟩ := ih hdigits
    have hsplit : decimalValue (c :: digits) * 10 ^ spaces =
        digitValue c * 10 ^ (digits.length + spaces) + decimalValue digits * 10 ^ spaces := by
      rw [decimalValue_cons, Nat.add_mul, Nat.mul_assoc, ← Nat.pow_add]
    have hrest : decimalValue digits * 10 ^ spaces < 10 ^ (digits.length + spaces) := by
      rw [Nat.pow_add]
      exact Nat.mul_lt_mul_of_pos_right (decimalValue_lt hdigits) (Nat.pow_pos (by decide))
    have hbound := digit_mul_lt_iff (digitValue_lt hc) hrest
    -- the remainder modulo a word is the product exactly when the product fits
    rw [weightedDigits, hsplit, ← hbound, ← hiff]
    generalize digitValue c * 10 ^ (digits.length + spaces) = term at *
    omega

/-! ## The spaces -/

theorem power_ne_zero : ∀ n ≤ 24, power 10 n ≠ 0 := by decide

/-- The spaces at the end of a text that the scheduler accepts divide by no zero. -/
theorem timeStampDigits_spaces (hspaces : spaces ≤ 24) (t : BitVec 64) :
    ∃ t', timeStampDigits (List.replicate spaces 0x20) t = some t' ∧
      t'.toNat = divideSpaces spaces t.toNat := by
  induction spaces generalizing t with
  | zero => exact ⟨t, rfl, rfl⟩
  | succ spaces ih =>
    obtain ⟨t', ht', hvalue⟩ :=
      ih (by omega) (t / (power 10 (spaces + 1)).setWidth 64)
    refine ⟨t', ?_, ?_⟩
    · rw [List.replicate_succ, timeStampDigits, if_pos rfl, List.length_replicate]
      rw [if_neg (power_ne_zero _ hspaces)]
      exact ht'
    · have hdivisor : ((power 10 (spaces + 1)).setWidth 64).toNat =
          10 ^ (spaces + 1) % 4294967296 := by
        rw [BitVec.toNat_setWidth, toNat_power]
        exact Nat.mod_eq_of_lt ((Nat.mod_lt _ (by decide)).trans (by decide))
      rw [hvalue, BitVec.toNat_udiv, hdivisor, divideSpaces]

theorem divideSpaces_le (spaces sum : ℕ) : divideSpaces spaces sum ≤ sum := by
  induction spaces generalizing sum with
  | zero => exact le_rfl
  | succ spaces ih => exact (ih _).trans (Nat.div_le_self _ _)

/-- The last space divides by ten. -/
theorem divideSpaces_succ_le (spaces sum : ℕ) : divideSpaces (spaces + 1) sum ≤ sum / 10 := by
  induction spaces generalizing sum with
  | zero => exact le_rfl
  | succ spaces ih => exact (ih _).trans (Nat.div_le_div_right (Nat.div_le_self _ _))

/-- The powers up to the ninth fit 32 bits. -/
theorem divideSpaces_succ (hspaces : spaces < 9) (sum : ℕ) :
    divideSpaces (spaces + 1) sum = divideSpaces spaces (sum / 10 ^ (spaces + 1)) := by
  have hpow : 10 ^ (spaces + 1) < 4294967296 :=
    (Nat.pow_le_pow_right (by decide) hspaces).trans_lt (by decide)
  rw [divideSpaces, Nat.mod_eq_of_lt hpow]

/-- Ten spaces divide by all powers of ten up to the ninth. -/
theorem divideSpaces_eq_zero (hspaces : 9 ≤ spaces) (hsum : sum < 10 ^ 17) :
    divideSpaces spaces sum = 0 := by
  induction spaces, hspaces using Nat.le_induction generalizing sum with
  | base =>
    -- the ninth and the eighth power together are more than the sum
    have hquotient : sum / 10 ^ (8 + 1) / 10 ^ (7 + 1) = 0 := by
      rw [Nat.div_div_eq_div_mul]
      exact Nat.div_eq_of_lt hsum
    rw [divideSpaces_succ (show 8 < 9 by decide), divideSpaces_succ (show 7 < 9 by decide),
      hquotient]
    exact Nat.le_zero.mp (divideSpaces_le 7 0)
  | succ spaces hspaces ih => exact ih ((Nat.div_le_self _ _).trans_lt hsum)

/-- More than one space divides a number other than zero too often. -/
theorem divideSpaces_lt (hdigits : ∀ c ∈ digits, IsDigit c) (hlen : digits.length + spaces ≤ 24)
    (hspaces : 2 ≤ spaces) (hpos : 0 < decimalValue digits) :
    divideSpaces spaces (weightedDigits spaces digits) < decimalValue digits := by
  rcases Nat.lt_or_ge spaces 9 with hfew | hmany
  · obtain ⟨n, rfl⟩ : ∃ n, spaces = n + 2 := ⟨spaces - 2, by omega⟩
    -- the first space undoes the weights, and the last one divides by ten once more
    have hquotient : weightedDigits (n + 2) digits / 10 ^ (n + 2) ≤ decimalValue digits :=
      Nat.div_le_of_le_mul ((weightedDigits_eq_iff hdigits _).1.trans_eq (Nat.mul_comm _ _))
    calc divideSpaces (n + 2) (weightedDigits (n + 2) digits)
        = divideSpaces (n + 1) (weightedDigits (n + 2) digits / 10 ^ (n + 2)) :=
          divideSpaces_succ (by omega) _
      _ ≤ weightedDigits (n + 2) digits / 10 ^ (n + 2) / 10 := divideSpaces_succ_le _ _
      _ ≤ decimalValue digits / 10 := Nat.div_le_div_right hquotient
      _ < decimalValue digits := Nat.div_lt_self hpos (by decide)
  · have hsum := weightedDigits_le_mul spaces digits
    rw [divideSpaces_eq_zero hmany (by omega)]
    exact hpos

/-! ## The text -/

/-- What the conversion makes of a text that the scheduler accepts. -/
theorem convertStringToTimeStamp_timeStampText (hdigits : ∀ c ∈ digits, IsDigit c)
    (hlen : digits.length + spaces ≤ 24) :
    ∃ t, convertStringToTimeStamp (timeStampText digits spaces) = some t ∧
      t.toNat = divideSpaces spaces (weightedDigits spaces digits) := by
  have hsum := weightedDigits_le_mul spaces digits
  obtain ⟨t, ht, hvalue⟩ := timeStampDigits_spaces (show spaces ≤ 24 by omega)
    (0 + BitVec.ofNat 64 (weightedDigits spaces digits))
  refine ⟨t, ?_, ?_⟩
  · rw [convertStringToTimeStamp, timeStampText, timeStampDigits_append hdigits,
      List.length_replicate]
    exact ht
  · -- 24 words fit into 64 bits
    have hacc : (0 + BitVec.ofNat 64 (weightedDigits spaces digits)).toNat =
        weightedDigits spaces digits := by
      rw [BitVec.toNat_add, BitVec.toNat_ofNat]
      change (0 + _) % _ = _
      omega
    rw [hvalue, hacc]

theorem storesTimeStamp_iff_eq (hdigits : ∀ c ∈ digits, IsDigit c)
    (hlen : digits.length + spaces ≤ 24) :
    StoresTimeStamp digits spaces ↔
      divideSpaces spaces (weightedDigits spaces digits) = decimalValue digits := by
  obtain ⟨t, ht, hvalue⟩ := convertStringToTimeStamp_timeStampText hdigits hlen
  have htake : (timeStampText digits spaces).take ((timeStampText digits spaces).length % 256) =
      timeStampText digits spaces := by
    apply List.take_of_length_le
    rw [timeStampText, List.length_append, List.length_replicate]
    omega
  rw [StoresTimeStamp, midDecodeRTCSet, htake, ht, ← hvalue]
  constructor
  · rintro ⟨⟨t', ht', heq⟩, -⟩
    exact Option.some.inj ht' ▸ heq
  · exact fun heq => ⟨⟨t, rfl, heq⟩, midRTCSetUnit t, rfl, heq⟩

/-- The clock is set to the number that was written when it is zero, or when at most one space
follows it and no product of a digit and its weight wraps. -/
theorem storesTimeStamp_iff (digits : List (BitVec 8)) (spaces : ℕ)
    (hdigits : ∀ c ∈ digits, IsDigit c) (hlen : digits.length + spaces ≤ 24) :
    StoresTimeStamp digits spaces ↔
      decimalValue digits = 0 ∨ spaces = 0 ∧ decimalValue digits < 5000000000 ∨
        spaces = 1 ∧ decimalValue digits < 500000000 := by
  obtain ⟨hle, hiff⟩ := weightedDigits_eq_iff hdigits spaces
  rw [storesTimeStamp_iff_eq hdigits hlen]
  rcases Nat.eq_zero_or_pos (decimalValue digits) with hzero | hpos
  · have hsum : weightedDigits spaces digits = 0 := by
      rw [hzero, Nat.zero_mul] at hle
      exact Nat.le_zero.mp hle
    have hquotient := divideSpaces_le spaces 0
    rw [hsum, hzero]
    omega
  · match spaces with
    | 0 =>
      rw [Nat.pow_zero, Nat.mul_one] at hiff
      rw [divideSpaces, hiff]
      omega
    | 1 =>
      have hone : divideSpaces 1 (weightedDigits 1 digits) = weightedDigits 1 digits / 10 := rfl
      rw [Nat.pow_one] at hle hiff
      omega
    | n + 2 =>
      have hlt := divideSpaces_lt hdigits hlen (Nat.le_add_left 2 n) hpos
      omega

/-- The clock is set to 12 by these digits and a space. -/
theorem storesTimeStamp_iff_twelve : StoresTimeStamp [0x31, 0x32] 1 :=
  (storesTimeStamp_iff [0x31, 0x32] 1 (by decide) (by decide)).mpr (by decide)

/-- A second space behind the number. -/
theorem second_space_divides_again :
    ¬∀ (digits : List (BitVec 8)) (spaces : ℕ), digits ≠ [] → (∀ c ∈ digits, IsDigit c) →
      decimalValue digits < 18446744073709551616 → digits.length + spaces ≤ 24 →
        StoresTimeStamp digits spaces := by
  intro h
  obtain ⟨⟨t, ht, hvalue⟩, -⟩ := h [0x31] 2 (by decide) (by decide) (by decide) (by decide)
  have hresult : convertStringToTimeStamp (timeStampText [0x31] 2) = some 0 := by decide
  rw [hresult] at ht
  obtain rfl := Option.some.inj ht
  revert hvalue
  decide

end IrRemote
