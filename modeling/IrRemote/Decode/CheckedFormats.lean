import IrRemote.Decode.Offered
import IrRemote.Library.CheckDigits
import IrRemote.Link.Frames
import IrRemote.RoundTrip.Kaseikyo
import IrRemote.RoundTrip.Lg
import IrRemote.RoundTrip.ShortFrames

/-!
# Words with redundancy

Four protocols carry redundancy in their words. Their decoders compute it anew from the fields
they have cut out of the word, and set a flag when it is not what was received; the flags of
repeats, which are added before or behind, do not touch that one.

## Main definitions

* `CheckedFormat` — a protocol, its words, and the redundancy in them
* `CheckedFormat.Spells` — the word that is read off the spaces of a frame
* `CheckedFormat.Encodes` — the words of the sender
* `CheckedFormat.Exact` — the flag tells the words with and without the right redundancy apart

## Main results

* `kaseikyoFormat_flipBit` and its siblings — a wrong bit is noticed
* `kaseikyoFormat_flagged_iff` and its siblings — what the flag says of the word
-/

set_option autoImplicit false

namespace IrRemote

open CheckDigits LineSignal

/-! ## Formats -/

/-- A pulse distance protocol whose words carry redundancy. -/
structure CheckedFormat where
  /-- The number of bits of a word. -/
  bits : ℕ
  constants : PulseDistanceWidthProtocolConstants
  decode : Decoder
  /-- The decoders in front. -/
  before : List Decoder
  /-- What the sender sends. -/
  Sends : List TxEvent → Prop
  /-- The redundancy is right. -/
  Holds : BitVec bits → Prop
  /-- The bits that no redundancy covers. -/
  Uncovered : ℕ → Prop

namespace CheckedFormat

variable (c : CheckedFormat)

/-- The bits of a word, in the order of the protocol. -/
def spelled (w : BitVec c.bits) : List Bool :=
  if c.constants.flags &&& protocolIsMsbFirst ≠ 0 then BitWord.msbBits c.bits w
  else BitWord.lsbBits c.bits w

/-- The spaces of a frame spell a word. -/
def Spells (p : IrParams) (w : BitVec c.bits) : Prop :=
  ∀ j (hj : j < (c.spelled w).length),
    (p.raw (4 + 2 * j)).map (matchSpace · c.constants.distanceWidthTimingInfo.oneSpaceMicros) =
      some (c.spelled w)[j]

/-- The frame of a word. -/
def runs (w : BitVec c.bits) : List (Pulse Bool) :=
  frameRuns c.constants.distanceWidthTimingInfo.headerMarkMicros
    c.constants.distanceWidthTimingInfo.headerSpaceMicros
    c.constants.distanceWidthTimingInfo.zeroMarkMicros
    c.constants.distanceWidthTimingInfo.bitSpace (c.spelled w)

/-- Some frame of the sender has a word. -/
def Encodes (w : BitVec c.bits) : Prop :=
  ∃ tx f, c.Sends tx ∧ f ∈ frames tx ∧ f.filterMap TxEvent.pulse? = c.runs w

/-- The flag of a frame. -/
def Flagged (u : DecodeState) : Prop := u.decodedIRData.flags &&& irdataFlagsParityFailed ≠ 0

/-- A frame of a full word is accepted with the flag exactly when the redundancy is wrong. It is
right in the words of the sender, and wrong when one of their covered bits is wrong. -/
structure Exact : Prop where
  fits : 2 * c.bits + 4 ≤ rawBufferLength
  before : c.before ⊆ specificDecoders
  rawlen {p : IrParams} {t u : DecodeState} (hu : c.decode p t = some (true, u)) :
    p.rawlen = 2 * c.bits + 4 ∨ p.rawlen = 4
  flagged_iff {p : IrParams} {t u : DecodeState} {w : BitVec c.bits}
    (hflags : t.decodedIRData.flags = irdataFlagsEmpty) (hlen : p.rawlen = 2 * c.bits + 4)
    (hu : c.decode p t = some (true, u)) (hw : c.Spells p w) : Flagged u ↔ ¬c.Holds w
  holds {w : BitVec c.bits} (hw : c.Encodes w) : c.Holds w
  flipBit {w : BitVec c.bits} {i : ℕ} (hw : c.Holds w) (hi : i < c.bits)
    (hcovered : ¬c.Uncovered i) : ¬c.Holds (flipBit w i)

end CheckedFormat

open CheckedFormat

/-- Kaseikyo: a nibble is the exclusive or of the vendor nibbles, and the last byte that of the
three in front of it. -/
def kaseikyoFormat : CheckedFormat where
  bits := kaseikyoBits
  constants := kaseikyoProtocolConstants
  decode := decodeKaseikyo
  before := specificDecoders.take 1
  Sends tx := ∃ a c repeats v, tx = sendKaseikyo a c repeats v
  Holds w := digit 4 w 0 ^^^ digit 4 w 1 ^^^ digit 4 w 2 ^^^ digit 4 w 3 = digit 4 w 4 ∧
    digit 8 w 2 ^^^ digit 8 w 3 ^^^ digit 8 w 4 = digit 8 w 5
  Uncovered _ := False

/-- LG: the last nibble is the sum of the command nibbles. The address is not in it. -/
def lgFormat : CheckedFormat where
  bits := lgBits
  constants := lgProtocolConstants
  decode := decodeLG
  before := specificDecoders.take 6
  Sends tx := ∃ a c repeats, tx = sendLG a c repeats
  Holds w := digit 4 w 1 + digit 4 w 2 + digit 4 w 3 + digit 4 w 4 = digit 4 w 0
  Uncovered i := lgBits - lgAddressBits ≤ i

/-- FAST: the second byte is the complement of the first one. -/
def fastFormat : CheckedFormat where
  bits := fastBits
  constants := fastProtocolConstants
  decode := decodeFAST
  before := specificDecoders.take 9
  Sends tx := ∃ c repeats, tx = sendFAST c repeats
  Holds w := digit 8 w 1 = ~~~digit 8 w 0
  Uncovered _ := False

/-- Lego: the last nibble is the exclusive or of the others and of ones. -/
def legoFormat : CheckedFormat where
  bits := legoBits
  constants := legoProtocolConstants
  decode := decodeLegoPowerFunctions
  before := specificDecoders.take 11
  Sends tx := ∃ channel command mode five, tx = sendLegoPowerFunctions channel command mode five
  Holds w := 0xF#4 ^^^ digit 4 w 3 ^^^ digit 4 w 2 ^^^ digit 4 w 1 = digit 4 w 0
  Uncovered _ := False

def checkedFormats : List CheckedFormat := [kaseikyoFormat, lgFormat, fastFormat, legoFormat]

/-! ## Wrong bits -/

variable {i : ℕ}

theorem kaseikyoFormat_flipBit {w : BitVec kaseikyoFormat.bits} (hw : kaseikyoFormat.Holds w)
    (hi : i < kaseikyoFormat.bits) : ¬kaseikyoFormat.Holds (flipBit w i) := by
  have hi' : i < 48 := hi
  rintro ⟨hvendor, hframe⟩
  -- the vendor code and its parity are the first nibbles, the rest are bytes
  rcases Nat.lt_or_ge i 20 with hlow | hhigh
  · have hpasses {x : BitVec kaseikyoFormat.bits} : Passes (· ^^^ ·) 0#4 (fun _ d => d) 5 0#4 x ↔
        digit 4 x 0 ^^^ digit 4 x 1 ^^^ digit 4 x 2 ^^^ digit 4 x 3 = digit 4 x 4 := by
      simp [Passes, total, BitVec.xor_eq_zero_iff]
    exact (hpasses.mpr hw.1).not_flipBit (cancels_xor 4) (by decide) hi (by omega)
      (fun _ _ => id) (hpasses.mpr hvendor)
  · have hpasses {x : BitVec kaseikyoFormat.bits} :
        Passes (· ^^^ ·) 0#8 (fun k d => if k < 2 then 0#8 else d) 6 0#8 x ↔
          digit 8 x 2 ^^^ digit 8 x 3 ^^^ digit 8 x 4 = digit 8 x 5 := by
      simp [Passes, total, BitVec.xor_eq_zero_iff]
    refine (hpasses.mpr hw.2).not_flipBit (cancels_xor 8) (by decide) hi (by omega) ?_
      (hpasses.mpr hframe)
    intro a b heq
    have hread : ¬i / 8 < 2 := by omega
    dsimp only at heq
    rwa [if_neg hread, if_neg hread] at heq

theorem lgFormat_flipBit {w : BitVec lgFormat.bits} (hw : lgFormat.Holds w)
    (hi : i < lgFormat.bits) (hcovered : ¬lgFormat.Uncovered i) :
    ¬lgFormat.Holds (flipBit w i) := by
  have hi' : i < 20 := Nat.not_le.mp hcovered
  intro hflip
  -- the checksum is taken off the sum
  have hpasses {x : BitVec lgFormat.bits} :
      Passes (· + ·) 0#4 (fun k d => if k = 0 then -d else d) 5 0#4 x ↔
        digit 4 x 1 + digit 4 x 2 + digit 4 x 3 + digit 4 x 4 = digit 4 x 0 := by
    have hassoc : 0#4 + -digit 4 x 0 + digit 4 x 1 + digit 4 x 2 + digit 4 x 3 + digit 4 x 4 =
        -digit 4 x 0 + (digit 4 x 1 + digit 4 x 2 + digit 4 x 3 + digit 4 x 4) := by
      rw [BitVec.zero_add]
      ac_rfl
    change 0#4 + -digit 4 x 0 + digit 4 x 1 + digit 4 x 2 + digit 4 x 3 + digit 4 x 4 = 0#4 ↔ _
    rw [hassoc]
    exact neg_add_eq_zero.trans eq_comm
  refine (hpasses.mpr hw).not_flipBit cancels_add (by decide) hi (by omega) ?_
    (hpasses.mpr hflip)
  intro a b heq
  dsimp only at heq
  split_ifs at heq
  · exact neg_injective heq
  · exact heq

theorem fastFormat_flipBit {w : BitVec fastFormat.bits} (hw : fastFormat.Holds w)
    (hi : i < fastFormat.bits) : ¬fastFormat.Holds (flipBit w i) := by
  have hi' : i < 16 := hi
  intro hflip
  have hpasses {x : BitVec fastFormat.bits} :
      Passes (· ^^^ ·) (BitVec.allOnes 8) (fun _ d => d) 2 0#8 x ↔
        digit 8 x 1 = ~~~digit 8 x 0 := by
    rw [Passes, total, total, total, BitVec.xor_eq_zero_iff, BitVec.allOnes_xor]
    exact eq_comm
  exact (hpasses.mpr hw).not_flipBit (cancels_xor 8) (by decide) hi (by omega)
    (fun _ _ => id) (hpasses.mpr hflip)

theorem legoFormat_flipBit {w : BitVec legoFormat.bits} (hw : legoFormat.Holds w)
    (hi : i < legoFormat.bits) : ¬legoFormat.Holds (flipBit w i) := by
  have hi' : i < 16 := hi
  intro hflip
  have hpasses {x : BitVec legoFormat.bits} :
      Passes (· ^^^ ·) 0xF#4 (fun _ d => d) 4 0#4 x ↔
        0xF#4 ^^^ digit 4 x 3 ^^^ digit 4 x 2 ^^^ digit 4 x 1 = digit 4 x 0 := by
    have hassoc : 0xF#4 ^^^ digit 4 x 0 ^^^ digit 4 x 1 ^^^ digit 4 x 2 ^^^ digit 4 x 3 =
        0xF#4 ^^^ digit 4 x 3 ^^^ digit 4 x 2 ^^^ digit 4 x 1 ^^^ digit 4 x 0 := by
      ac_rfl
    change 0xF#4 ^^^ digit 4 x 0 ^^^ digit 4 x 1 ^^^ digit 4 x 2 ^^^ digit 4 x 3 = 0#4 ↔ _
    rw [hassoc]
    exact BitVec.xor_eq_zero_iff
  exact (hpasses.mpr hw).not_flipBit (cancels_xor 4) (by decide) hi (by omega)
    (fun _ _ => id) (hpasses.mpr hflip)

/-! ## The word of a frame -/

namespace CheckedFormat

variable {c : CheckedFormat} {p : IrParams} {n : ℕ}

theorem length_spelled (w : BitVec c.bits) : (c.spelled w).length = c.bits := by
  unfold spelled
  split_ifs
  · exact BitWord.msbBits_length
  · exact BitWord.lsbBits_length

/-- Any bits are those of some word. -/
theorem exists_spelled {l : List Bool} (hl : l.length = c.bits) :
    ∃ w : BitVec c.bits, c.spelled w = l := by
  have hcollected {l : List Bool} (hl : l.length = c.bits) :
      BitWord.lsbBits c.bits (BitWord.collectLsb l 1#c.bits 0#c.bits) = l := by
    have hbits := BitWord.lsbBits_collectLsb hl.le
    rwa [hl] at hbits
  by_cases hmsb : c.constants.flags &&& protocolIsMsbFirst ≠ 0
  · refine ⟨BitWord.collectLsb l.reverse 1#c.bits 0#c.bits, ?_⟩
    rw [spelled, if_pos hmsb, BitWord.msbBits, hcollected (List.length_reverse.trans hl),
      List.reverse_reverse]
  · refine ⟨BitWord.collectLsb l 1#c.bits 0#c.bits, ?_⟩
    rw [spelled, if_neg hmsb, hcollected hl]

/-- Every frame in the buffer has a word. -/
theorem exists_spells (p : IrParams) (hfits : 2 * c.bits + 4 ≤ rawBufferLength) :
    ∃ w, c.Spells p w := by
  have hread : ∀ j : Fin c.bits, ∃ b, (p.raw (4 + 2 * j)).map
      (matchSpace · c.constants.distanceWidthTimingInfo.oneSpaceMicros) = some b := by
    intro j
    obtain ⟨t, ht⟩ := p.exists_raw (show 4 + 2 * j < rawBufferLength by omega)
    exact ⟨_, by rw [ht, Option.map_some]⟩
  choose read hread using hread
  obtain ⟨w, hw⟩ := c.exists_spelled (List.length_ofFn (f := read))
  refine ⟨w, fun j hj => ?_⟩
  rw [length_spelled] at hj
  simp only [hw, List.getElem_ofFn]
  exact hread ⟨j, hj⟩

/-- The word of a capture. -/
theorem spells_of_capture {w : BitVec c.bits} {headerMark headerSpace mark : ℕ}
    (h : PulseDistanceCapture p headerMark headerSpace mark
      c.constants.distanceWidthTimingInfo.bitSpace (c.spelled w))
    (htold : SpacesTold c.constants.distanceWidthTimingInfo.bitSpace
      c.constants.distanceWidthTimingInfo.oneSpaceMicros) : c.Spells p w := by
  intro j hj
  obtain ⟨t, ht, hraw⟩ := h.space j hj
  have hindex : 4 + 2 * j = 3 + 2 * j + 1 := by omega
  rw [hindex, hraw, Option.map_some, htold _ t ht]

theorem Spells.bitValue {w : BitVec c.bits} (hw : c.Spells p w) (hc : IsPulseDistance c.constants)
    {j : ℕ} (hj : j < (c.spelled w).length) :
    bitValue p c.constants.distanceWidthTimingInfo.oneMarkMicros
      c.constants.distanceWidthTimingInfo.zeroMarkMicros
      c.constants.distanceWidthTimingInfo.oneSpaceMicros (3 + 2 * j) = some (c.spelled w)[j] := by
  have hindex : 3 + 2 * j + 1 = 4 + 2 * j := by omega
  rw [IrRemote.bitValue, if_pos hc.mark, hindex]
  exact hw j hj

/-- The bits from `i` on are decoded. -/
theorem Spells.decode_lsb {w : BitVec c.bits} (hw : c.Spells p w) (hc : IsPulseDistance c.constants)
    (hflags : c.constants.flags = protocolIsLsbFirst) (hi : i + n ≤ c.bits) (hn : n ≤ 32)
    (s : DecodeState) :
    decodePulseDistanceWidthDatav2 c.constants.distanceWidthTimingInfo c.constants.flags n
        (3 + 2 * i) p s =
      some (true, { s with
        decodedIRData.decodedRawData := (w.extractLsb' i n).setWidth 32 }) := by
  have hspelled : c.spelled w = BitWord.lsbBits c.bits w := by
    rw [spelled, if_neg]
    rw [hflags]
    decide
  have hbits : ∀ j (hj : j < (BitWord.lsbBits n (w.extractLsb' i n)).length),
      IrRemote.bitValue p c.constants.distanceWidthTimingInfo.oneMarkMicros
        c.constants.distanceWidthTimingInfo.zeroMarkMicros
        c.constants.distanceWidthTimingInfo.oneSpaceMicros (3 + 2 * i + 2 * j) =
        some (BitWord.lsbBits n (w.extractLsb' i n))[j] := by
    intro j hj
    rw [BitWord.lsbBits_length] at hj
    have hlt : i + j < (c.spelled w).length := by
      rw [length_spelled]
      omega
    have hindex : 3 + 2 * i + 2 * j = 3 + 2 * (i + j) := by omega
    rw [hindex, hw.bitValue hc hlt]
    simp [hspelled, BitWord.lsbBits, hj]
  have hdecode := decodePulseDistanceWidthDatav2_of_bitValue c.constants.flags s hbits
  have hcollected : collected c.constants.flags (BitWord.lsbBits n (w.extractLsb' i n)) =
      (w.extractLsb' i n).setWidth 32 := by
    rw [hflags]
    exact BitWord.collectLsb_lsbBits_setWidth hn
  rwa [BitWord.lsbBits_length, hcollected] at hdecode

/-- A word that is sent most significant bit first is decoded as a whole. -/
theorem Spells.decodeBits_msb {w : BitVec c.bits} (hw : c.Spells p w)
    (hc : IsPulseDistance c.constants) (hflags : c.constants.flags = protocolIsMsbFirst)
    (hn : c.bits ≤ 32) :
    decodeBits (IrRemote.bitValue p c.constants.distanceWidthTimingInfo.oneMarkMicros
      c.constants.distanceWidthTimingInfo.zeroMarkMicros
      c.constants.distanceWidthTimingInfo.oneSpaceMicros) true c.bits 3 0#32 1#32 =
      some (w.setWidth 32) := by
  have hspelled : c.spelled w = BitWord.msbBits c.bits w := by
    rw [spelled, if_pos]
    rw [hflags]
    decide
  have hcollected : BitWord.collectMsb (BitWord.msbBits c.bits w) 0#32 = w.setWidth 32 := by
    rw [← BitWord.msbBits_setWidth hn]
    apply BitWord.collectMsb_msbBits
    intro i hi
    rw [BitVec.getLsbD_setWidth, BitVec.getLsbD_of_ge w i hi, Bool.and_false]
  have hdecode := @IrRemote.decodeBits_msb _ (c.spelled w) 3 0#32 1#32 fun _ => hw.bitValue hc
  rwa [length_spelled, hspelled, hcollected] at hdecode

end CheckedFormat

/-! ## What the decoders compute -/

/-- A piece of a piece of a word. -/
theorem extractLsb'_piece {n m k : ℕ} (w : BitVec n) (a b : ℕ) (h : b + k ≤ m) :
    (w.extractLsb' a m).extractLsb' b k = w.extractLsb' (a + b) k := by
  apply BitVec.eq_of_getLsbD_eq
  intro i hi
  simp only [BitVec.getLsbD_extractLsb', hi, decide_true, Bool.true_and, Nat.add_assoc,
    show b + i < m by omega]

/-- The parity is the exclusive or of the nibbles. -/
theorem vendorParity_eq (v : BitVec 16) :
    vendorParity v = (digit 4 v 0 ^^^ digit 4 v 1 ^^^ digit 4 v 2 ^^^ digit 4 v 3).setWidth 8 := by
  apply BitVec.eq_of_getLsbD_eq
  intro i hi
  have hmask := getLsbD_nibble i
  rcases Nat.lt_or_ge i 4 with hlow | hhigh
  · simp only [vendorParity, digit, BitVec.getLsbD_and, BitVec.getLsbD_xor,
      BitVec.getLsbD_ushiftRight, BitVec.getLsbD_setWidth, BitVec.getLsbD_extractLsb',
      BitVec.ofNat_eq_ofNat, hmask, hlow, hi, show 4 + i < 8 by omega, decide_true, Bool.true_and,
      Bool.and_true, ← Nat.add_assoc]
    simp only [Nat.reduceMul, Nat.reduceAdd, Nat.zero_add]
    rw [Bool.xor_assoc (v.getLsbD i), Bool.xor_left_comm (v.getLsbD (8 + i)), ← Bool.xor_assoc,
      ← Bool.xor_assoc]
  · rw [getLsbD_vendorParity v hhigh, BitVec.getLsbD_setWidth, BitVec.getLsbD_of_ge _ _ hhigh,
      Bool.and_false]

/-- The parities that the decoder compares. -/
theorem kaseikyoFlags_flagged (v : BitVec 16) (u : LongUnion) :
    kaseikyoFlags irdataFlagsEmpty v u &&& irdataFlagsParityFailed ≠ 0 ↔
      ¬(vendorParity v = u.lowByte &&& 0xF ∧
        u.lowByte ^^^ u.midLowByte ^^^ u.midHighByte = u.highByte) := by
  rw [not_and_or, eq_comm (b := u.highByte)]
  unfold kaseikyoFlags
  dsimp only
  split_ifs <;> simp_all <;> decide

theorem kaseikyo_holds_iff (w : BitVec kaseikyoFormat.bits) :
    vendorParity (w.extractLsb' 0 16) =
          (LongUnion.ofULong (w.extractLsb' 16 32)).lowByte &&& 0xF ∧
        (LongUnion.ofULong (w.extractLsb' 16 32)).lowByte ^^^
            (LongUnion.ofULong (w.extractLsb' 16 32)).midLowByte ^^^
            (LongUnion.ofULong (w.extractLsb' 16 32)).midHighByte =
          (LongUnion.ofULong (w.extractLsb' 16 32)).highByte ↔
      kaseikyoFormat.Holds w := by
  have hlow : ((LongUnion.ofULong (w.extractLsb' 16 32)).lowByte).setWidth 4 = digit 4 w 4 := by
    simp only [LongUnion.ofULong]
    rw [extractLsb'_piece w 16 0 (by decide), digit]
    apply BitVec.eq_of_getLsbD_eq
    intro i hi
    simp [hi, show i < 8 by omega]
  rw [vendorParity_eq, and_nibble, BitWord.setWidth_inj (by decide), hlow]
  simp only [LongUnion.ofULong, digit]
  rw [extractLsb'_piece w 0 _ (by decide), extractLsb'_piece w 0 _ (by decide),
    extractLsb'_piece w 0 _ (by decide), extractLsb'_piece w 0 _ (by decide),
    extractLsb'_piece w 16 _ (by decide), extractLsb'_piece w 16 _ (by decide),
    extractLsb'_piece w 16 _ (by decide), extractLsb'_piece w 16 _ (by decide)]
  exact Iff.rfl

variable {p : IrParams} {t u : DecodeState}

theorem kaseikyoFormat_flagged_iff {w : BitVec kaseikyoFormat.bits}
    (hflags : t.decodedIRData.flags = irdataFlagsEmpty)
    (hlen : p.rawlen = 2 * kaseikyoFormat.bits + 4)
    (hu : kaseikyoFormat.decode p t = some (true, u)) (hw : kaseikyoFormat.Spells p w) :
    Flagged u ↔ ¬kaseikyoFormat.Holds w := by
  obtain ⟨g, hg⟩ := p.exists_raw (show 0 < rawBufferLength by decide)
  have haccept : decodeKaseikyo p t = some (true, u) := hu
  obtain ⟨-, hheader, -⟩ := decodeKaseikyo_ensures.of_accept haccept
  have hc : IsPulseDistance kaseikyoFormat.constants := ⟨rfl, by decide⟩
  have hvendor := hw.decode_lsb (i := 0) (n := 16) hc rfl (by decide) (by decide)
  have hdata := hw.decode_lsb (i := 16) (n := 32) hc rfl (by decide) (by decide)
  rw [decodeKaseikyo_frame hlen hheader hvendor hdata hg] at haccept
  obtain ⟨-, rfl⟩ := Prod.mk.inj (Option.some.inj haccept)
  have hcode : ((w.extractLsb' 0 16).setWidth 32).setWidth 16 = w.extractLsb' 0 16 := by
    rw [BitVec.setWidth_setWidth_of_le _ (by decide), BitVec.setWidth_eq]
  rw [Flagged, IRData.afterGap_and (by decide), kaseikyoFields]
  dsimp only
  rw [hflags, hcode, BitVec.setWidth_eq, kaseikyoFlags_flagged, kaseikyo_holds_iff]

/-- The sum of the nibbles, without its carry. -/
theorem lgChecksum_nibble (command : BitVec 16) :
    lgChecksum command &&& 0xF = (digit 4 command 0 + digit 4 command 1 + digit 4 command 2 +
      digit 4 command 3).setWidth 8 := by
  have hnibble (k : ℕ) : ((((command >>> k) &&& 0xF).setWidth 8 : BitVec 8).setWidth 4) =
      command.extractLsb' k 4 := by
    rw [setWidth_and_nibble, BitVec.setWidth_setWidth_of_le _ (by decide), BitVec.setWidth_eq]
  have hfirst := hnibble 0
  rw [BitVec.ushiftRight_zero] at hfirst
  rw [and_nibble, BitWord.setWidth_inj (by decide), lgChecksum, BitVec.setWidth_add _ _ (by decide),
    BitVec.setWidth_add _ _ (by decide), BitVec.setWidth_add _ _ (by decide), hfirst, hnibble,
    hnibble, hnibble]
  rfl

/-- The command and the checksum that the decoder cuts out of a word. -/
theorem lg_holds_iff (w : BitVec lgFormat.bits) :
    (lgChecksum (((w.setWidth 32 >>> lgChecksumBits) &&& 0xFFFF).setWidth 16) &&& 0xF).setWidth 32 =
        w.setWidth 32 &&& 0xF ↔
      lgFormat.Holds w := by
  have hcommand : ((w.setWidth 32 >>> lgChecksumBits) &&& 0xFFFF).setWidth 16 =
      w.extractLsb' 4 16 := by
    apply BitVec.eq_of_getLsbD_eq
    intro i hi
    have hmask := (by decide : ∀ i (hi : i < 16), (65535#16)[i] = true) i hi
    simp [hi, hmask, lgChecksumBits, show 4 + i < 32 by omega]
  have hchecksum : w.setWidth 32 &&& 0xF = ((digit 4 w 0).setWidth 8).setWidth 32 := by
    apply BitVec.eq_of_getLsbD_eq
    intro i hi
    have hmask := (by decide : ∀ i < 32, (0xF#32).getLsbD i = decide (i < 4)) i hi
    by_cases hlow : i < 4
    · simp [hi, hmask, hlow, digit]
    · simp [hmask, hlow, BitVec.getLsbD_of_ge (digit 4 w 0) i (Nat.le_of_not_lt hlow)]
  rw [hcommand, hchecksum, BitWord.setWidth_inj (by decide), lgChecksum_nibble,
    BitWord.setWidth_inj (by decide)]
  simp only [digit]
  rw [extractLsb'_piece w 4 _ (by decide), extractLsb'_piece w 4 _ (by decide),
    extractLsb'_piece w 4 _ (by decide), extractLsb'_piece w 4 _ (by decide)]
  exact Iff.rfl

theorem lgFormat_flagged_iff {w : BitVec lgFormat.bits} (hlen : p.rawlen = 2 * lgFormat.bits + 4)
    (hu : lgFormat.decode p t = some (true, u)) (hw : lgFormat.Spells p w) :
    Flagged u ↔ ¬lgFormat.Holds w := by
  have haccept : decodeLG p t = some (true, u) := hu
  have hframe : p.rawlen ≠ 4 := by
    rw [hlen]
    decide
  obtain ⟨-, m, v, space, hm, hv, hprotocol, hspace⟩ :=
    (decodeLG_ensures.of_accept haccept).resolve_left fun h => hframe h.1
  have hbits := hw.decodeBits_msb ⟨rfl, by decide⟩ rfl (by decide)
  generalize u.decodedIRData.protocol = protocol at hprotocol
  rw [decodeLG_frame hlen hm hv hprotocol hspace hbits] at haccept
  obtain ⟨-, rfl⟩ := Prod.mk.inj (Option.some.inj haccept)
  rw [Flagged, ← lg_holds_iff, lgFields]
  dsimp only
  split_ifs with hchecksum
  · exact iff_of_true (by decide) hchecksum
  · exact iff_of_false (by decide) hchecksum

theorem fastFormat_flagged_iff {w : BitVec fastFormat.bits}
    (hflags : t.decodedIRData.flags = irdataFlagsEmpty) (hlen : p.rawlen = 2 * fastFormat.bits + 4)
    (hu : fastFormat.decode p t = some (true, u)) (hw : fastFormat.Spells p w) :
    Flagged u ↔ ¬fastFormat.Holds w := by
  obtain ⟨g, hg⟩ := p.exists_raw (show 0 < rawBufferLength by decide)
  have haccept : decodeFAST p t = some (true, u) := hu
  have hheader : checkHeader fastProtocolConstants.distanceWidthTimingInfo p = some true := by
    obtain ⟨b, hb⟩ := exists_checkHeader fastProtocolConstants.distanceWidthTimingInfo p
    cases b with
    | false =>
      rw [decodeFAST_of_header hlen hb] at haccept
      cases haccept
    | true => exact hb
  have hdata := hw.decode_lsb (i := 0) (n := 16) ⟨rfl, by decide⟩ rfl (by decide) (by decide)
  rw [decodeFAST_frame hlen hheader hdata hg] at haccept
  obtain ⟨-, rfl⟩ := Prod.mk.inj (Option.some.inj haccept)
  have hholds : (w.extractLsb' 0 16).extractLsb' 0 8 = ~~~(w.extractLsb' 0 16).extractLsb' 8 8 ↔
      fastFormat.Holds w := by
    rw [extractLsb'_piece w 0 _ (by decide), extractLsb'_piece w 0 _ (by decide),
      ← BitVec.not_eq_comm, eq_comm]
    exact Iff.rfl
  rw [Flagged, IRData.afterGap_and (by decide), fastFields, LongUnion.lowByte_ofULong_setWidth,
    LongUnion.midLowByte_ofULong_setWidth, ← hholds]
  dsimp only
  split_ifs with hcomplement
  · exact iff_of_true (by decide) hcomplement
  · rw [hflags]
    exact iff_of_false (by decide) hcomplement

/-- The nibbles that the decoder cuts out of a word. -/
theorem lego_holds_iff (w : BitVec legoFormat.bits) :
    (w.setWidth 16 &&& 0xF).setWidth 8 =
        legoParity ((w.setWidth 16 >>> 12).setWidth 8) (((w.setWidth 16 >>> 8) &&& 0xF).setWidth 8)
          (((w.setWidth 16 >>> 4) &&& 0xF).setWidth 8) ↔
      legoFormat.Holds w := by
  have hsame : w.setWidth 16 = w := BitVec.setWidth_eq w
  have hparity := setWidth_and_nibble (w.setWidth 16) 0
  rw [BitVec.ushiftRight_zero] at hparity
  rw [hparity, setWidth_ushiftRight_nibble, setWidth_and_nibble, setWidth_and_nibble,
    legoParity_nibbles, BitWord.setWidth_inj (by decide), eq_comm, hsame]
  exact Iff.rfl

/-- The flag of an automatic repeat is another one. -/
theorem flagged_autoRepeat (failed repeated : Prop) [Decidable failed] [Decidable repeated] :
    (if repeated then
        (if failed then irdataFlagsParityFailed ||| irdataFlagsIsMsbFirst
          else irdataFlagsIsMsbFirst) ||| irdataFlagsIsAutoRepeat
      else if failed then irdataFlagsParityFailed ||| irdataFlagsIsMsbFirst
      else irdataFlagsIsMsbFirst) &&& irdataFlagsParityFailed ≠ 0 ↔ failed := by
  by_cases h : failed
  · simp only [h, if_true, iff_true]
    split_ifs <;> decide
  · simp only [h, if_false, iff_false]
    split_ifs <;> decide

theorem legoFormat_flagged_iff {w : BitVec legoFormat.bits}
    (hlen : p.rawlen = 2 * legoFormat.bits + 4)
    (hu : legoFormat.decode p t = some (true, u)) (hw : legoFormat.Spells p w) :
    Flagged u ↔ ¬legoFormat.Holds w := by
  obtain ⟨g, hg⟩ := p.exists_raw (show 0 < rawBufferLength by decide)
  have haccept : decodeLegoPowerFunctions p t = some (true, u) := hu
  have hheader : checkHeader legoProtocolConstants.distanceWidthTimingInfo p = some true := by
    obtain ⟨b, hb⟩ := exists_checkHeader legoProtocolConstants.distanceWidthTimingInfo p
    cases b with
    | false =>
      rw [decodeLego_of_header hb] at haccept
      cases haccept
    | true => exact hb
  have hdata := hw.decode_lsb (i := 0) (n := 16) ⟨rfl, by decide⟩ rfl (by decide) (by decide)
  obtain ⟨m, hm⟩ := p.exists_raw (show 35 < rawBufferLength by decide)
  have hstop : matchMark m legoBitMark = true := by
    by_contra hne
    rw [decodeLego_of_stop hlen hheader hdata hm (Bool.eq_false_iff.mpr hne)] at haccept
    cases haccept
  rw [decodeLego_frame hlen hheader hdata hm hstop hg] at haccept
  obtain ⟨-, rfl⟩ := Prod.mk.inj (Option.some.inj haccept)
  have hword : ((w.extractLsb' 0 16).setWidth 32).setWidth 16 = w.setWidth 16 := by
    apply BitVec.eq_of_getLsbD_eq
    intro i hi
    simp [hi]
  rw [Flagged, ← lego_holds_iff, ← hword]
  exact flagged_autoRepeat _ _

end IrRemote
