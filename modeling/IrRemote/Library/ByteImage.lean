import IrRemote.Library.BitWord

/-!
# Byte images of records

How a value lies in memory: its size, its byte at every offset, and the value that is read
off any bytes. Writing a value and reading it back gives the value; every byte pattern is
read as some value, and the bytes behind the size are not read.

## Main definitions

* `ByteImage` — a type with a layout
* the layouts of words, the least significant byte first, and of arrays

## Main results

* `ByteImage.getElem_ofBytes` — the slots of an array are read at multiples of their size
-/

set_option autoImplicit false

/-- A layout in memory. Padding bytes may have any value, they are not read. -/
class ByteImage (α : Type*) where
  size : ℕ
  bytes : α → ℕ → BitVec 8
  ofBytes : (ℕ → BitVec 8) → α
  ofBytes_congr : ∀ {f g : ℕ → BitVec 8}, (∀ o < size, f o = g o) → ofBytes f = ofBytes g
  ofBytes_bytes : ∀ a, ofBytes (bytes a) = a

namespace ByteImage

variable {α β : Type*} {n k : ℕ}

/-! ## Words -/

instance : ByteImage (BitVec 8) where
  size := 1
  bytes x _ := x
  ofBytes f := f 0
  ofBytes_congr h := h 0 Nat.one_pos
  ofBytes_bytes _ := rfl

instance : ByteImage (BitVec 16) where
  size := 2
  bytes x o := x.extractLsb' (8 * o) 8
  ofBytes f := f 1 ++ f 0
  ofBytes_congr h := by rw [h 0 (by decide), h 1 (by decide)]
  ofBytes_bytes x := BitVec.extractLsb'_append_extractLsb'

instance : ByteImage (BitVec 32) where
  size := 4
  bytes x o := x.extractLsb' (8 * o) 8
  ofBytes f := f 3 ++ f 2 ++ f 1 ++ f 0
  ofBytes_congr h := by rw [h 0 (by decide), h 1 (by decide), h 2 (by decide), h 3 (by decide)]
  ofBytes_bytes := BitWord.append_bytes

/-! ## Arrays -/

section Array

variable [ByteImage α]

/-- The slots of an array lie one behind the other. -/
instance : ByteImage (Vector α n) where
  size := n * size α
  bytes v o := if h : o / size α < n then bytes v[o / size α] (o % size α) else 0
  ofBytes f := Vector.ofFn fun i => ofBytes fun o => f (i * size α + o)
  ofBytes_congr h := by
    congr 1
    funext i
    apply ofBytes_congr
    intro o ho
    apply h
    calc i * size α + o < i * size α + size α := Nat.add_lt_add_left ho _
      _ = (i + 1) * size α := (Nat.succ_mul ..).symm
      _ ≤ n * size α := Nat.mul_le_mul_right _ i.isLt
  ofBytes_bytes v := by
    ext i hi
    rw [Vector.getElem_ofFn, ← ofBytes_bytes v[i]]
    apply ofBytes_congr
    intro o ho
    have hdiv : (i * size α + o) / size α = i := by
      rw [Nat.mul_comm, Nat.mul_add_div (Nat.zero_lt_of_lt ho), Nat.div_eq_of_lt ho, Nat.add_zero]
    have hmod : (i * size α + o) % size α = o := by
      rw [Nat.mul_comm, Nat.mul_add_mod, Nat.mod_eq_of_lt ho]
    simp only [hdiv, hmod, hi, dif_pos]

/-- The slots of an array are read at the multiples of their size. -/
theorem getElem_ofBytes (f : ℕ → BitVec 8) {i : ℕ} (hi : i < n) :
    (ofBytes f : Vector α n)[i] = ofBytes fun o => f (i * size α + o) :=
  Vector.getElem_ofFn hi

end Array

end ByteImage
