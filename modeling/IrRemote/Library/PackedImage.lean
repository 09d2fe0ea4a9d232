import IrRemote.Library.ByteImage

/-!
# Layouts without padding

A layout without padding bytes: what is read off some bytes has these bytes as its image.

## Main definitions

* `PackedImage` — a layout without padding

## Main results

* instances for words and arrays
-/

set_option autoImplicit false

/-- Every byte of the image belongs to the value. -/
class PackedImage (α : Type*) [ByteImage α] : Prop where
  bytes_ofBytes : ∀ (f : ℕ → BitVec 8) {o : ℕ}, o < ByteImage.size α →
    ByteImage.bytes (ByteImage.ofBytes f : α) o = f o

namespace PackedImage

open ByteImage

instance : PackedImage (BitVec 8) where
  bytes_ofBytes f {o} ho := by
    obtain rfl : o = 0 := Nat.lt_one_iff.mp ho
    rfl

/-- The bytes of two bytes. -/
theorem extractLsb'_append_byte {w : ℕ} (x : BitVec w) (y : BitVec 8) {k : ℕ} :
    (x ++ y).extractLsb' (8 * (k + 1)) 8 = x.extractLsb' (8 * k) 8 := by
  ext i hi
  rw [BitVec.getElem_extractLsb', BitVec.getElem_extractLsb', BitVec.getLsbD_append,
    if_neg (by omega)]
  congr 1
  omega

theorem extractLsb'_append_zero {w : ℕ} (x : BitVec w) (y : BitVec 8) :
    (x ++ y).extractLsb' (8 * 0) 8 = y := by
  ext i hi
  rw [BitVec.getElem_extractLsb', BitVec.getLsbD_append, if_pos (by omega), Nat.mul_zero,
    Nat.zero_add, BitVec.getLsbD_eq_getElem]

theorem extractLsb'_byte (y : BitVec 8) : y.extractLsb' (8 * 0) 8 = y := by
  ext i hi
  rw [BitVec.getElem_extractLsb', Nat.mul_zero, Nat.zero_add, BitVec.getLsbD_eq_getElem]

instance : PackedImage (BitVec 16) where
  bytes_ofBytes f {o} ho := by
    change BitVec.extractLsb' (8 * o) 8 (f 1 ++ f 0) = f o
    match o, ho with
    | 0, _ => exact extractLsb'_append_zero _ _
    | 1, _ => rw [extractLsb'_append_byte, extractLsb'_byte]

instance : PackedImage (BitVec 32) where
  bytes_ofBytes f {o} ho := by
    change BitVec.extractLsb' (8 * o) 8 (f 3 ++ f 2 ++ f 1 ++ f 0) = f o
    match o, ho with
    | 0, _ => exact extractLsb'_append_zero _ _
    | 1, _ => rw [extractLsb'_append_byte, extractLsb'_append_zero]
    | 2, _ => rw [extractLsb'_append_byte, extractLsb'_append_byte, extractLsb'_append_zero]
    | 3, _ =>
      rw [extractLsb'_append_byte, extractLsb'_append_byte, extractLsb'_append_byte,
        extractLsb'_byte]

instance {α : Type*} [ByteImage α] [PackedImage α] {n : ℕ} : PackedImage (Vector α n) where
  bytes_ofBytes f {o} ho := by
    change o < n * size α at ho
    have hpos : 0 < size α := Nat.pos_of_mul_pos_left (Nat.zero_lt_of_lt ho)
    have hslot : o / size α < n := Nat.div_lt_of_lt_mul (by rwa [Nat.mul_comm])
    change (if h : o / size α < n then _ else _) = _
    rw [dif_pos hslot, getElem_ofBytes, bytes_ofBytes _ (Nat.mod_lt _ hpos), Nat.div_add_mod']

end PackedImage
