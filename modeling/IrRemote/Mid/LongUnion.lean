import IrRemote.Library.BitWord

/-!
# Byte and word views of a 32-bit value

`LongUnion` on the little-endian target: four bytes, two 16-bit words or one
32-bit value over the same memory. The union is represented by its bytes, from
which the other views are computed.
-/

set_option autoImplicit false

namespace IrRemote

/-- `union LongUnion`, by its bytes. -/
@[ext]
structure LongUnion where
  lowByte : BitVec 8
  midLowByte : BitVec 8
  midHighByte : BitVec 8
  highByte : BitVec 8
  deriving DecidableEq, Repr

namespace LongUnion

/-- Store through the `ULong` view. -/
def ofULong (value : BitVec 32) : LongUnion where
  lowByte := value.extractLsb' 0 8
  midLowByte := value.extractLsb' 8 8
  midHighByte := value.extractLsb' 16 8
  highByte := value.extractLsb' 24 8

/-- Read through the `ULong` view. -/
def uLong (u : LongUnion) : BitVec 32 :=
  u.highByte ++ u.midHighByte ++ u.midLowByte ++ u.lowByte

/-- Read through the `UWord.LowWord` view. -/
def lowWord (u : LongUnion) : BitVec 16 := u.midLowByte ++ u.lowByte

/-- Read through the `UWord.HighWord` view. -/
def highWord (u : LongUnion) : BitVec 16 := u.highByte ++ u.midHighByte

/-- Store through the `UWord.LowWord` view. -/
def setLowWord (u : LongUnion) (value : BitVec 16) : LongUnion :=
  { u with lowByte := value.extractLsb' 0 8, midLowByte := value.extractLsb' 8 8 }

variable {u : LongUnion}

@[simp] theorem ofULong_uLong : ofULong u.uLong = u := by
  unfold ofULong uLong
  ext1
  · exact BitVec.extractLsb'_append_eq_right
  · exact (BitVec.extractLsb'_append_eq_of_le (Nat.le_refl 8)).trans
      BitVec.extractLsb'_append_eq_right
  · exact (BitVec.extractLsb'_append_eq_of_le (by decide)).trans <|
      (BitVec.extractLsb'_append_eq_of_le (Nat.le_refl 8)).trans
        BitVec.extractLsb'_append_eq_right
  · exact (BitVec.extractLsb'_append_eq_of_le (by decide)).trans <|
      (BitVec.extractLsb'_append_eq_of_le (by decide)).trans
        BitVec.extractLsb'_append_eq_left

@[simp] theorem uLong_ofULong (x : BitVec 32) : (ofULong x).uLong = x := BitWord.append_bytes x

theorem uLong_inj {v : LongUnion} : u.uLong = v.uLong ↔ u = v :=
  ⟨fun h => by rw [← ofULong_uLong (u := u), h, ofULong_uLong], congrArg _⟩

/-- The low byte of a word. -/
@[simp] theorem extractLsb'_append_low (high low : BitVec 8) :
    (high ++ low).extractLsb' 0 8 = low := BitVec.extractLsb'_append_eq_right

/-- The high byte of a word. -/
@[simp] theorem extractLsb'_append_high (high low : BitVec 8) :
    (high ++ low).extractLsb' 8 8 = high := BitVec.extractLsb'_append_eq_left

theorem append_lt_iff (high low : BitVec 8) : high ++ low < 0x100#16 ↔ high = 0#8 := by
  have hlow := low.isLt
  rw [BitVec.lt_def, BitVec.toNat_append, ← Nat.shiftLeft_add_eq_or_of_lt hlow, Nat.shiftLeft_eq,
    ← BitVec.toNat_inj]
  simp only [BitVec.toNat_ofNat, Nat.reducePow, Nat.reduceMod]
  omega

/-- The test for an empty upper byte. -/
theorem append_and_upper_eq_zero_iff (high low : BitVec 8) :
    (high ++ low) &&& 0xFF00#16 = 0#16 ↔ high = 0#8 := by
  have hmask : 0xFF00#16 = 0xFF#8 ++ 0x00#8 := by decide
  have hones : high &&& 0xFF#8 = high := BitVec.and_allOnes
  rw [hmask, BitVec.and_append, BitVec.and_zero, hones]
  refine ⟨fun h => ?_, fun h => by rw [h]; rfl⟩
  rw [← extractLsb'_append_high high 0#8, h]
  rfl

theorem uLong_eq_append : u.uLong = u.highWord ++ u.lowWord := by
  rw [uLong, BitVec.append_assoc]
  rfl

/-- The low word is sent first. -/
theorem lsbBits_uLong (u : LongUnion) :
    BitWord.lsbBits 32 u.uLong = BitWord.lsbBits 16 u.lowWord ++ BitWord.lsbBits 16 u.highWord := by
  rw [uLong_eq_append]
  exact BitWord.lsbBits_append (w := 16) (v := 16) (n := 16)

/-- A value put together from its words. -/
theorem shiftLeft_or_words : u.highWord.setWidth 32 <<< 16 ||| u.lowWord.setWidth 32 = u.uLong := by
  rw [uLong_eq_append, ← BitVec.setWidth_append_eq_shiftLeft_setWidth_or, BitVec.setWidth_eq]

theorem lowByte_ofULong_setWidth (x : BitVec 16) :
    (ofULong (x.setWidth 32)).lowByte = x.extractLsb' 0 8 := by
  apply BitVec.eq_of_getLsbD_eq
  intro i hi
  simp [ofULong, hi, show i < 32 by omega]

theorem midLowByte_ofULong_setWidth (x : BitVec 16) :
    (ofULong (x.setWidth 32)).midLowByte = x.extractLsb' 8 8 := by
  apply BitVec.eq_of_getLsbD_eq
  intro i hi
  simp [ofULong, hi, show 8 + i < 32 by omega]

theorem lowWord_ofULong_setWidth (x : BitVec 16) : (ofULong (x.setWidth 32)).lowWord = x := by
  rw [lowWord, midLowByte_ofULong_setWidth, lowByte_ofULong_setWidth]
  exact BitVec.extractLsb'_append_extractLsb'

theorem append_zero (low : BitVec 8) : 0#8 ++ low = low.setWidth 16 := by
  rw [BitVec.setWidth_eq_append (by decide)]
  rfl

/-- The words that fit a byte. -/
theorem setWidth_setWidth_eq_iff {c : BitVec 16} :
    (c.setWidth 8).setWidth 16 = c ↔ c < 0x100#16 := by
  rw [← BitVec.toNat_inj, BitVec.lt_def, BitVec.toNat_setWidth, BitVec.toNat_setWidth]
  have hc := c.isLt
  simp
  omega

end LongUnion

end IrRemote
