import Mathlib.Algebra.Group.Nat.Defs
import Mathlib.Data.Nat.Notation
import Mathlib.Tactic.Common

/-!
# Words as bit sequences

A serial line carries a word bit by bit, least or most significant bit first. The
sending side reads the bits off a word with a shifting word or a shifting mask; the
receiving side collects them with a shifting mask or a shift register. Collecting
what was sent gives the word back.

## Main definitions

* `BitWord.lsbBits`, `BitWord.msbBits` — the bits of a word in sending order
* `BitWord.collectLsb`, `BitWord.collectMsb` — the two receiving registers

## Main results

* `getLsbD_collectLsb`, `getLsbD_collectMsb` — the bits of a collected word
* `collectLsb_lsbBits`, `collectMsb_msbBits`, `lsbBits_collectLsb` — the round trips
* `append_bytes` — a word of 32 bits is made of its bytes
-/

set_option autoImplicit false

namespace BitWord

variable {w v k n i : ℕ} {x y : BitVec w} {bits : List Bool}

/-- The low `n` bits, least significant first. -/
def lsbBits (n : ℕ) (x : BitVec w) : List Bool := (List.range n).map x.getLsbD

/-- The low `n` bits, most significant first. -/
def msbBits (n : ℕ) (x : BitVec w) : List Bool := (lsbBits n x).reverse

/-- Set the mask bit for every received one, moving the mask up by one each time. -/
def collectLsb : List Bool → BitVec w → BitVec w → BitVec w
  | [], _, x => x
  | b :: bits, mask, x => collectLsb bits (mask <<< 1) (if b then x ||| mask else x)

/-- Shift every received bit in from below. -/
def collectMsb : List Bool → BitVec w → BitVec w
  | [], x => x
  | b :: bits, x => collectMsb bits (if b then x <<< 1 ||| 1 else x <<< 1)

/-! ### Sending -/

@[simp] theorem lsbBits_length : (lsbBits n x).length = n := by simp [lsbBits]

@[simp] theorem msbBits_length : (msbBits n x).length = n := by simp [msbBits]

theorem lsbBits_getElem? (h : i < n) : (lsbBits n x)[i]? = some (x.getLsbD i) := by
  simp [lsbBits, h]

/-- The next bit of a word that shifts down. -/
theorem lsbBits_succ : lsbBits (n + 1) x = x.getLsbD 0 :: lsbBits n (x >>> 1) := by
  simp [lsbBits, List.range_succ_eq_map, Function.comp_def, Nat.add_comm]

/-- The next bit under a mask that moves down. -/
theorem msbBits_succ : msbBits (n + 1) x = x.getLsbD n :: msbBits n x := by
  simp [msbBits, lsbBits, List.range_succ]

/-- Words with the same low bits agree there. -/
theorem getLsbD_of_lsbBits (h : lsbBits n x = lsbBits n y) (hi : i < n) :
    x.getLsbD i = y.getLsbD i := by
  have hget := congrArg (fun l => l[i]?) h
  simpa [lsbBits_getElem? hi] using hget

/-- All bits together are the word. -/
theorem lsbBits_width_inj : lsbBits w x = lsbBits w y ↔ x = y :=
  ⟨fun h => BitVec.eq_of_getLsbD_eq fun _ hi => getLsbD_of_lsbBits h hi, congrArg _⟩

/-- Two words in one are sent one after the other. -/
theorem lsbBits_append {y : BitVec v} :
    lsbBits (w + n) (y ++ x) = lsbBits w x ++ lsbBits n y := by
  rw [lsbBits, List.range_add, List.map_append, List.map_map]
  congr 1
  · apply List.map_congr_left
    intro i hi
    rw [BitVec.getLsbD_append, if_pos (List.mem_range.mp hi)]
  · apply List.map_congr_left
    intro i hi
    have hge : ¬w + i < w := by omega
    rw [Function.comp_apply, BitVec.getLsbD_append, if_neg hge, Nat.add_sub_cancel_left]

theorem msbBits_append {y : BitVec v} :
    msbBits (w + n) (y ++ x) = msbBits n y ++ msbBits w x := by
  rw [msbBits, lsbBits_append, List.reverse_append]
  rfl

/-- Zeros in front of a word are not sent. -/
theorem lsbBits_setWidth (hn : n ≤ v) : lsbBits n (x.setWidth v) = lsbBits n x := by
  apply List.map_congr_left
  intro i hi
  rw [BitVec.getLsbD_setWidth, decide_eq_true (Nat.lt_of_lt_of_le (List.mem_range.mp hi) hn),
    Bool.true_and]

theorem msbBits_setWidth (hn : n ≤ v) : msbBits n (x.setWidth v) = msbBits n x :=
  congrArg List.reverse (lsbBits_setWidth hn)

theorem and_one_ne_zero (hw : 0 < w) : (x &&& 1#w ≠ 0#w) ↔ x.getLsbD 0 = true := by
  rw [← BitVec.twoPow_zero, BitVec.and_twoPow]
  cases x.getLsbD 0 <;> simp [BitVec.twoPow_zero, Nat.ne_of_gt hw]

theorem and_twoPow_ne_zero (hk : k < w) :
    (x &&& BitVec.twoPow w k ≠ 0#w) ↔ x.getLsbD k = true := by
  have hne : BitVec.twoPow w k ≠ 0#w := by
    intro h
    have hbit := BitVec.getLsbD_twoPow (w := w) k k
    rw [h] at hbit
    simp [hk] at hbit
  rw [BitVec.and_twoPow]
  cases x.getLsbD k <;> simp [hne]

theorem twoPow_shiftLeft_one : BitVec.twoPow w k <<< 1 = BitVec.twoPow w (k + 1) := by
  rw [BitVec.twoPow, BitVec.twoPow, ← BitVec.shiftLeft_add]

theorem twoPow_ushiftRight_one (hk : k + 1 < w) :
    BitVec.twoPow w (k + 1) >>> 1 = BitVec.twoPow w k := by
  apply BitVec.eq_of_getLsbD_eq
  intro i hi
  rw [BitVec.getLsbD_ushiftRight, BitVec.getLsbD_twoPow, BitVec.getLsbD_twoPow]
  simp only [hk, Nat.lt_of_succ_lt hk, decide_true, Bool.true_and, decide_eq_decide]
  omega

/-! ### Receiving -/

theorem getLsbD_collectLsb (i : ℕ) :
    (collectLsb bits (BitVec.twoPow w k) x).getLsbD i =
      (x.getLsbD i || (decide (i < w) && decide (k ≤ i) && bits.getD (i - k) false)) := by
  induction bits generalizing k x with
  | nil => simp [collectLsb]
  | cons b bits ih =>
    rw [collectLsb, twoPow_shiftLeft_one, ih]
    have hdata : (if b then x ||| BitVec.twoPow w k else x).getLsbD i =
        (x.getLsbD i || (b && decide (k < w) && decide (k = i))) := by
      cases b <;> simp [BitVec.getLsbD_twoPow]
    rw [hdata]
    rcases Nat.lt_trichotomy i k with hlt | rfl | hgt
    · simp [show ¬k ≤ i by omega, show ¬k + 1 ≤ i by omega, show k ≠ i by omega]
    · simp [show ¬i + 1 ≤ i by omega, Bool.and_comm]
    · obtain ⟨j, rfl⟩ : ∃ j, i = k + (j + 1) := ⟨i - k - 1, by omega⟩
      simp [show k + (j + 1) - (k + 1) = j by omega, show k + 1 ≤ k + (j + 1) by omega]

theorem getLsbD_collectMsb (i : ℕ) :
    (collectMsb bits x).getLsbD i = (decide (i < w) &&
      if i < bits.length then bits.reverse.getD i false else x.getLsbD (i - bits.length)) := by
  induction bits generalizing x i with
  | nil => rcases Nat.lt_or_ge i w with hi | hi <;> simp [collectMsb, hi]
  | cons b bits ih =>
    rw [collectMsb, ih]
    rcases Nat.lt_or_ge i w with hw | hw
    · have hw0 : 0 < w := by omega
      simp only [hw, decide_true, Bool.true_and, List.length_cons, List.reverse_cons]
      rcases Nat.lt_trichotomy i bits.length with hlt | rfl | hgt
      · simp [hlt, show i < bits.length + 1 by omega]
      · cases b <;> simp [hw0]
      · obtain ⟨j, rfl⟩ : ∃ j, i = bits.length + 1 + j := ⟨i - (bits.length + 1), by omega⟩
        have hshift : bits.length + 1 + j - bits.length = j + 1 := by omega
        have hj : j + 1 < w := by omega
        have hbit : x.getLsbD j = x[j] := BitVec.getLsbD_eq_getElem (by omega)
        cases b <;> simp [hshift, hj, hbit, show ¬bits.length + 1 + j < bits.length by omega,
          show ¬bits.length + 1 + j < bits.length + 1 by omega]
    · simp [show ¬i < w by omega]

/-! ### Round trips -/

/-- The bits of a word sent least significant first give back its low bits. -/
theorem getLsbD_collectLsb_lsbBits (i : ℕ) :
    (collectLsb (lsbBits n x) 1#w 0#w).getLsbD i = (decide (i < n) && x.getLsbD i) := by
  rw [← BitVec.twoPow_zero, getLsbD_collectLsb]
  rcases Nat.lt_or_ge i n with hn | hn
  · rcases Nat.lt_or_ge i w with hw | hw <;> simp [hn, hw, lsbBits]
  · simp [lsbBits, show ¬i < n by omega]

theorem getLsbD_collectMsb_msbBits (i : ℕ) :
    (collectMsb (msbBits n x) 0#w).getLsbD i = (decide (i < n) && x.getLsbD i) := by
  rw [getLsbD_collectMsb]
  rcases Nat.lt_or_ge i n with hn | hn
  · rcases Nat.lt_or_ge i w with hw | hw <;> simp [hn, hw, msbBits, lsbBits]
  · simp [show ¬i < n by omega]

theorem collectLsb_lsbBits (h : ∀ i, n ≤ i → x.getLsbD i = false) :
    collectLsb (lsbBits n x) 1#w 0#w = x := by
  apply BitVec.eq_of_getLsbD_eq
  intro i _
  rw [getLsbD_collectLsb_lsbBits]
  rcases Nat.lt_or_ge i n with hn | hn
  · simp [hn]
  · simp [h i hn]

theorem collectMsb_msbBits (h : ∀ i, n ≤ i → x.getLsbD i = false) :
    collectMsb (msbBits n x) 0#w = x := by
  apply BitVec.eq_of_getLsbD_eq
  intro i _
  rw [getLsbD_collectMsb_msbBits]
  rcases Nat.lt_or_ge i n with hn | hn
  · simp [hn]
  · simp [h i hn]

/-- The low bits of a word are its remainder. -/
theorem getLsbD_ofNat_mod (hn : n ≤ w) (i : ℕ) :
    (BitVec.ofNat w (x.toNat % 2 ^ n)).getLsbD i = (decide (i < n) && x.getLsbD i) := by
  rw [BitVec.getLsbD_ofNat, Nat.testBit_mod_two_pow, BitVec.testBit_toNat]
  rcases Nat.lt_or_ge i n with hi | hi
  · rw [decide_eq_true (Nat.lt_of_lt_of_le hi hn), Bool.true_and]
  · rw [decide_eq_false (Nat.not_lt.mpr hi), Bool.false_and, Bool.and_false]

theorem collectLsb_lsbBits_mod (hn : n ≤ w) :
    collectLsb (lsbBits n x) 1#w 0#w = BitVec.ofNat w (x.toNat % 2 ^ n) := by
  apply BitVec.eq_of_getLsbD_eq
  intro i _
  rw [getLsbD_collectLsb_lsbBits, getLsbD_ofNat_mod hn]

theorem collectMsb_msbBits_mod (hn : n ≤ w) :
    collectMsb (msbBits n x) 0#w = BitVec.ofNat w (x.toNat % 2 ^ n) := by
  apply BitVec.eq_of_getLsbD_eq
  intro i _
  rw [getLsbD_collectMsb_msbBits, getLsbD_ofNat_mod hn]

/-- A word that has received some bits sends the same bits. -/
theorem lsbBits_collectLsb (h : bits.length ≤ w) :
    lsbBits bits.length (collectLsb bits 1#w 0#w) = bits := by
  apply List.ext_getElem lsbBits_length
  intro i hi hi'
  have hbit := lsbBits_getElem? (x := collectLsb bits 1#w 0#w) hi'
  rw [List.getElem?_eq_getElem hi, Option.some.injEq] at hbit
  rw [hbit, ← BitVec.twoPow_zero, getLsbD_collectLsb]
  simp [hi', show i < w by omega]

/-- A whole word sent least significant first is received unchanged. -/
theorem collectLsb_lsbBits_width : collectLsb (lsbBits w x) 1#w 0#w = x :=
  collectLsb_lsbBits fun i hi => BitVec.getLsbD_of_ge x i hi

/-- The part of a word that was sent is the part that is received. -/
theorem setWidth_collectLsb_lsbBits :
    (collectLsb (lsbBits n x) 1#w 0#w).setWidth n = x.setWidth n := by
  ext i hi
  rw [BitVec.getElem_setWidth, BitVec.getElem_setWidth, getLsbD_collectLsb_lsbBits,
    decide_eq_true hi, Bool.true_and]

/-- A word is received in front of zeros when the register is longer. -/
theorem collectLsb_lsbBits_setWidth (hw : w ≤ v) :
    collectLsb (lsbBits w x) 1#v 0#v = x.setWidth v := by
  rw [← lsbBits_setWidth hw]
  apply collectLsb_lsbBits
  intro i hi
  rw [BitVec.getLsbD_setWidth, BitVec.getLsbD_of_ge x i hi, Bool.and_false]

/-! ### Bytes -/

/-- No bit is lost in a longer word. -/
theorem setWidth_inj (hn : n ≤ w) {a b : BitVec n} : a.setWidth w = b.setWidth w ↔ a = b := by
  refine ⟨fun h => ?_, congrArg _⟩
  have hcut := congrArg (BitVec.setWidth n) h
  rwa [BitVec.setWidth_setWidth_of_le _ hn, BitVec.setWidth_setWidth_of_le _ hn,
    BitVec.setWidth_eq, BitVec.setWidth_eq] at hcut

/-- The four bytes of a word make the word. -/
theorem append_bytes (x : BitVec 32) :
    x.extractLsb' 24 8 ++ x.extractLsb' 16 8 ++ x.extractLsb' 8 8 ++ x.extractLsb' 0 8 = x := by
  rw [BitVec.extractLsb'_append_extractLsb'_eq_extractLsb' (show 24 = 16 + 8 from rfl),
    BitVec.extractLsb'_append_extractLsb'_eq_extractLsb' (show 16 = 8 + 8 from rfl),
    BitVec.extractLsb'_append_extractLsb'_eq_extractLsb' (show 8 = 0 + 8 from rfl)]
  exact BitVec.extractLsb'_eq_self

end BitWord
