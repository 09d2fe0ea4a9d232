import Mathlib.Algebra.Group.Basic
import Mathlib.Data.BitVec
import Mathlib.Tactic.Common

/-!
# Check digits

A word is cut into digits of the same width, and some operation combines the first of them to a
total. When the operation can be undone on both sides, the total shows any change of a single
digit, and so any single wrong bit. Sums of digits and exclusive ors of digits are checks of this
kind; a digit may be taken with another sign, or be left out.

## Main definitions

* `CheckDigits.digit`, `CheckDigits.flipBit` — a digit of a word, and a word with one wrong bit
* `CheckDigits.Cancels` — an operation that can be undone
* `CheckDigits.total` — the digits combined
* `CheckDigits.Passes` — the words with the right total

## Main results

* `CheckDigits.digit_flipBit_of_ne`, `CheckDigits.digit_flipBit_ne` — a wrong bit is a wrong digit
* `CheckDigits.Cancels.total_ne` — a wrong digit is a wrong total
* `CheckDigits.Passes.not_flipBit` — a wrong bit is noticed
-/

set_option autoImplicit false

universe u

namespace CheckDigits

variable {n w i j k m : ℕ} {x : BitVec n}

/-! ### Digits -/

/-- The digit with index `k`, of `w` bits. -/
def digit (w : ℕ) (x : BitVec n) (k : ℕ) : BitVec w := x.extractLsb' (k * w) w

/-- The word with the bit `i` changed. -/
def flipBit (x : BitVec n) (i : ℕ) : BitVec n := x ^^^ BitVec.twoPow n i

theorem getLsbD_digit (x : BitVec n) (k : ℕ) (hj : j < w) :
    (digit w x k).getLsbD j = x.getLsbD (k * w + j) := by
  rw [digit, BitVec.getLsbD_extractLsb', decide_eq_true hj, Bool.true_and]

theorem getLsbD_flipBit (x : BitVec n) (hi : i < n) :
    (flipBit x i).getLsbD j = (x.getLsbD j ^^ decide (i = j)) := by
  rw [flipBit, BitVec.getLsbD_xor, BitVec.getLsbD_twoPow, decide_eq_true hi, Bool.true_and]

/-- The other digits do not change. -/
theorem digit_flipBit_of_ne (x : BitVec n) (hi : i < n) (hk : i / w ≠ k) :
    digit w (flipBit x i) k = digit w x k := by
  apply BitVec.eq_of_getLsbD_eq
  intro j hj
  have hne : i ≠ k * w + j := by
    rintro rfl
    apply hk
    rw [Nat.mul_comm, Nat.mul_add_div (Nat.zero_lt_of_lt hj), Nat.div_eq_of_lt hj, Nat.add_zero]
  rw [getLsbD_digit _ _ hj, getLsbD_digit _ _ hj, getLsbD_flipBit x hi, decide_eq_false hne,
    Bool.xor_false]

/-- The digit of the bit does. -/
theorem digit_flipBit_ne (x : BitVec n) (hw : 0 < w) (hi : i < n) :
    digit w (flipBit x i) (i / w) ≠ digit w x (i / w) := by
  intro heq
  have hbit := congrArg (BitVec.getLsbD · (i % w)) heq
  have hj : i % w < w := Nat.mod_lt i hw
  have hindex : i / w * w + i % w = i := by rw [Nat.mul_comm, Nat.div_add_mod]
  rw [getLsbD_digit _ _ hj, getLsbD_digit _ _ hj, hindex, getLsbD_flipBit x hi,
    decide_eq_true rfl] at hbit
  cases hx : x.getLsbD i <;> rw [hx] at hbit <;> exact absurd hbit (by decide)

/-! ### Totals -/

variable {D : Type u} {op : D → D → D} {e : D} {f g : ℕ → D}

/-- Either argument can be told from the result and the other one. -/
structure Cancels (op : D → D → D) : Prop where
  left : ∀ a, Function.Injective (op a)
  right : ∀ b, Function.Injective fun a => op a b

theorem cancels_add {G : Type u} [AddGroup G] : Cancels fun a b : G => a + b where
  left a _ _ h := add_left_cancel (a := a) h
  right b _ _ h := add_right_cancel (b := b) h

theorem cancels_xor (w : ℕ) : Cancels fun a b : BitVec w => a ^^^ b where
  left a _ _ h := (BitVec.xor_right_inj a).mp h
  right b _ _ h := (BitVec.xor_left_inj b).mp h

/-- The first `m` digits combined. -/
def total (op : D → D → D) (e : D) (f : ℕ → D) : ℕ → D
  | 0 => e
  | m + 1 => op (total op e f m) (f m)

theorem total_congr (h : ∀ k < m, f k = g k) : total op e f m = total op e g m := by
  induction m with
  | zero => rfl
  | succ m ih =>
    rw [total, total, h m (Nat.lt_succ_self m), ih fun k hk => h k (Nat.lt_succ_of_lt hk)]

/-- A single wrong digit is noticed. -/
theorem Cancels.total_ne (h : Cancels op) (hk : k < m) (hne : f k ≠ g k)
    (hsame : ∀ j < m, j ≠ k → f j = g j) : total op e f m ≠ total op e g m := by
  induction m with
  | zero => exact absurd hk (Nat.not_lt_zero k)
  | succ m ih =>
    rw [total, total]
    rcases Nat.lt_succ_iff_lt_or_eq.mp hk with hlt | rfl
    · -- the wrong digit is among the first ones
      rw [hsame m (Nat.lt_succ_self m) (Nat.ne_of_gt hlt)]
      exact (h.right _).ne (ih hlt fun j hj => hsame j (Nat.lt_succ_of_lt hj))
    · rw [total_congr fun j hj => hsame j (Nat.lt_succ_of_lt hj) (Nat.ne_of_lt hj)]
      exact (h.left _).ne hne

/-! ### Words -/

variable {read : ℕ → BitVec w → D} {c : D}

/-- The words whose first `m` digits come to `c`. -/
def Passes (op : D → D → D) (e : D) (read : ℕ → BitVec w → D) (m : ℕ) (c : D) (x : BitVec n) :
    Prop :=
  total op e (fun k => read k (digit w x k)) m = c

/-- A single wrong bit is noticed, when it is in one of the digits that are read. -/
theorem Passes.not_flipBit (hx : Passes op e read m c x) (h : Cancels op) (hw : 0 < w)
    (hi : i < n) (hm : i / w < m) (hread : Function.Injective (read (i / w))) :
    ¬Passes op e read m c (flipBit x i) := by
  intro hflip
  have hwrong : read (i / w) (digit w (flipBit x i) (i / w)) ≠ read (i / w) (digit w x (i / w)) :=
    hread.ne (digit_flipBit_ne x hw hi)
  refine h.total_ne hm hwrong ?_ (hflip.trans hx.symm)
  intro j _ hj
  rw [digit_flipBit_of_ne x hi hj.symm]

end CheckDigits
