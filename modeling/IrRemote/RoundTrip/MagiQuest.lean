import IrRemote.Link.BitEntries
import IrRemote.Mid.IrRemoteDecode
import IrRemote.Mid.IrSend

/-!
# MagiQuest frames

A MagiQuest frame is 8 zeros, a wand id of 31 bits, a magnitude of 9 bits and a checksum, sent
one after the other. The decoder reads the magnitude and the checksum as one piece of 17
bits. Its marks tell the bits, so there is no stop mark, and its first mark and space are a
Lego header.

## Main definitions

* `magiQuestWord` — the magnitude and the checksum as they are received

## Main results

* `magiQuestChecksum_magiQuestWord` — the checksum of the decoder is 0
* `magiQuest_roundTrip` — the decoded frame
-/

set_option autoImplicit false

namespace IrRemote

variable {p : IrParams} {s : DecodeState} {w : BitVec 32} {m : BitVec 16} {toggle : BitVec 8}

/-! ## The word of the magnitude and the checksum -/

/-- The checksum the sender appends. -/
def magiQuestSentChecksum (w : BitVec 32) (m : BitVec 16) : BitVec 8 :=
  ~~~(byteSum (LongUnion.ofULong (w <<< 1)) + (m + (m >>> 8)).setWidth 8) + 1

/-- The magnitude and the checksum as they are received. -/
def magiQuestWord (w : BitVec 32) (m : BitVec 16) : LongUnion where
  lowByte := magiQuestSentChecksum w m
  midLowByte := m.extractLsb' 0 8
  midHighByte := m.extractLsb' 8 8
  highByte := 0

/-- The decoder sums up the bytes of the magnitude, and the sender has summed up the magnitude
and its upper byte. -/
theorem magiQuestChecksum_magiQuestWord : magiQuestChecksum w (magiQuestWord w m) = 0 := by
  have hlow : m.setWidth 8 = m.extractLsb' 0 8 := BitVec.setWidth_eq_extractLsb' (by decide)
  have hhigh : (m >>> 8).setWidth 8 = m.extractLsb' 8 8 := by
    ext i hi
    simp
  rw [magiQuestChecksum, magiQuestWord, magiQuestSentChecksum, BitVec.setWidth_add _ _ (by decide),
    hlow, hhigh]
  calc byteSum (LongUnion.ofULong (w <<< 1)) + (m.extractLsb' 8 8 + m.extractLsb' 0 8 +
        (~~~(byteSum (LongUnion.ofULong (w <<< 1)) + (m.extractLsb' 0 8 + m.extractLsb' 8 8)) + 1))
    _ = byteSum (LongUnion.ofULong (w <<< 1)) + (m.extractLsb' 0 8 + m.extractLsb' 8 8) +
        -(byteSum (LongUnion.ofULong (w <<< 1)) +
          (m.extractLsb' 0 8 + m.extractLsb' 8 8)) := by
      rw [BitVec.neg_eq_not_add, BitVec.add_comm (m.extractLsb' 8 8), ← BitVec.add_assoc]
      rfl
    _ = 0 := BitVec.add_right_neg _

/-- A magnitude of 9 bits. -/
theorem magiQuestWord_command :
    (magiQuestWord w m).midLowByte.setWidth 16 |||
      (magiQuestWord w m).midHighByte.setWidth 16 <<< 8 = m := by
  rw [magiQuestWord, BitVec.or_comm, ← BitVec.setWidth_append_eq_shiftLeft_setWidth_or,
    BitVec.setWidth_eq]
  exact BitVec.extractLsb'_append_extractLsb'

/-! ## What is sent -/

/-- The bits of a frame: 8 zeros, the wand id, and the word. -/
def magiQuestSentBits (w : BitVec 32) (m : BitVec 16) : List Bool :=
  BitWord.msbBits 8 0#32 ++ (BitWord.msbBits 31 w ++ BitWord.msbBits 17 (magiQuestWord w m).uLong)

theorem magiQuestSentBits_length : (magiQuestSentBits w m).length = 56 := by
  simp [magiQuestSentBits]

theorem uLong_magiQuestWord :
    (magiQuestWord w m).uLong = (m ++ magiQuestSentChecksum w m : BitVec 24).setWidth 32 := by
  have hbytes : m.extractLsb' 8 8 ++ m.extractLsb' 0 8 = m := BitVec.extractLsb'_append_extractLsb'
  have hmagnitude : 0#8 ++ m.extractLsb' 8 8 ++ m.extractLsb' 0 8 = 0#8 ++ m := by
    rw [BitVec.append_assoc, hbytes]
    rfl
  have hword : 0#8 ++ m ++ magiQuestSentChecksum w m = 0#8 ++ (m ++ magiQuestSentChecksum w m) := by
    rw [BitVec.append_assoc]
    rfl
  rw [BitVec.setWidth_eq_append (by decide)]
  exact (congrArg (· ++ magiQuestSentChecksum w m) hmagnitude).trans hword

/-- The magnitude and the checksum are sent as two pieces. -/
theorem msbBits_magiQuestWord : BitWord.msbBits 17 (magiQuestWord w m).uLong =
    BitWord.msbBits 9 (m.setWidth 32) ++
      BitWord.msbBits 8 ((magiQuestSentChecksum w m).setWidth 32) := by
  rw [uLong_magiQuestWord, BitWord.msbBits_setWidth (by decide),
    BitWord.msbBits_setWidth (by decide), BitWord.msbBits_setWidth (by decide)]
  exact BitWord.msbBits_append (w := 8) (v := 16) (n := 9)

/-- A piece of a frame; no stop mark follows it. -/
theorem sendPulseDistanceWidthDataV3_magiQuest {n : ℕ} (hn : n < 32) (data : BitVec 32) :
    sendPulseDistanceWidthDataV3 magiQuestProtocolConstants data (n + 1) =
      (BitWord.msbBits (n + 1) data).flatMap
        (sendBit magiQuestOneMark magiQuestOneSpace magiQuestZeroMark magiQuestZeroSpace) := by
  have hmsb : magiQuestProtocolConstants.flags &&& protocolIsMsbFirst ≠ 0 := by decide
  have hstop : stopMark magiQuestOneMark magiQuestZeroMark magiQuestProtocolConstants.flags = [] :=
    if_neg fun h => absurd h.2 (by decide)
  refine (sendPulseDistanceWidthDataV1_msb hmsb hn).trans ?_
  exact (congrArg (_ ++ ·) hstop).trans (List.append_nil _)

theorem sendMagiQuest_eq (hm : m < 0x200) : sendMagiQuest w m = .enableIROut 38 ::
    (magiQuestSentBits w m).flatMap
      (sendBit magiQuestOneMark magiQuestOneSpace magiQuestZeroMark magiQuestZeroSpace) := by
  have hmagnitude : m &&& 0x1FF = m := by
    rw [← BitVec.toNat_inj, BitVec.toNat_and]
    exact (Nat.and_two_pow_sub_one_eq_mod m.toNat 9).trans (Nat.mod_eq_of_lt hm)
  rw [sendMagiQuest, hmagnitude, magiQuestSentBits, msbBits_magiQuestWord, List.flatMap_append,
    List.flatMap_append, List.flatMap_append]
  simp only [magiQuestWandIdBits, magiQuestMagnitudeBits, magiQuestChecksumBits,
    sendPulseDistanceWidthDataV3_magiQuest (show 7 < 32 by decide),
    sendPulseDistanceWidthDataV3_magiQuest (show 30 < 32 by decide),
    sendPulseDistanceWidthDataV3_magiQuest (show 8 < 32 by decide), List.append_assoc]
  rfl

/-! ## What is received -/

/-- The words are collected as they were sent, when they fit their pieces. -/
theorem collectMsb_of_lt {n : ℕ} {x : BitVec 32} (hx : x.toNat < 2 ^ n) :
    BitWord.collectMsb (BitWord.msbBits n x) 0#32 = x := by
  apply BitWord.collectMsb_msbBits
  intro i hi
  exact Nat.testBit_lt_two_pow (Nat.lt_of_lt_of_le hx (Nat.pow_le_pow_right Nat.two_pos hi))

theorem magiQuestWord_lt (hm : m < 0x200) : (magiQuestWord w m).uLong.toNat < 2 ^ 17 := by
  have hsum := (magiQuestSentChecksum w m).isLt
  have hmagnitude : m.toNat < 2 ^ 9 := hm
  rw [uLong_magiQuestWord, BitVec.toNat_setWidth, BitVec.toNat_append,
    ← Nat.shiftLeft_add_eq_or_of_lt hsum, Nat.shiftLeft_eq]
  omega

/-- The marks of the bits, in a capture of a frame. -/
theorem IdealCapture.magiQuest (hm : m < 0x200) (h : IdealCapture p (sendMagiQuest w m)) :
    PairsCapture p ((magiQuestSentBits w m).map
      magiQuestProtocolConstants.distanceWidthTimingInfo.bitPair) := by
  rw [sendMagiQuest_eq hm] at h
  apply h.tail.pairsCapture (filterMap_pulse?_pairs
    magiQuestProtocolConstants.distanceWidthTimingInfo (magiQuestSentBits w m))
  rw [Ne, ← List.length_eq_zero_iff, List.length_map, magiQuestSentBits_length]
  decide

/-- The decoder reads the pieces of any frame that starts with 8 zeros. -/
theorem decode_magiQuestPieces {x y : BitVec 32} (hx : x.toNat < 2 ^ 31) (hy : y.toNat < 2 ^ 17)
    (hframe : PairsCapture p ((BitWord.msbBits 8 0#32 ++
      (BitWord.msbBits 31 x ++ BitWord.msbBits 17 y)).map
        magiQuestProtocolConstants.distanceWidthTimingInfo.bitPair)) :
    (∀ s, decodePulseDistanceWidthDatav2 magiQuestProtocolConstants.distanceWidthTimingInfo
      magiQuestProtocolConstants.flags 8 1 p s =
        some (true, { s with decodedIRData.decodedRawData := 0 })) ∧
    (∀ s, decodePulseDistanceWidthDatav2 magiQuestProtocolConstants.distanceWidthTimingInfo
      magiQuestProtocolConstants.flags 31 17 p s =
        some (true, { s with decodedIRData.decodedRawData := x })) ∧
    (∀ s, decodePulseDistanceWidthDatav2 magiQuestProtocolConstants.distanceWidthTimingInfo
      magiQuestProtocolConstants.flags 17 79 p s =
        some (true, { s with decodedIRData.decodedRawData := y })) := by
  have htold : MarksTold magiQuestProtocolConstants.distanceWidthTimingInfo.bitMark
      magiQuestProtocolConstants.distanceWidthTimingInfo.oneMarkMicros := by decide
  have hne : magiQuestProtocolConstants.distanceWidthTimingInfo.oneMarkMicros ≠
      magiQuestProtocolConstants.distanceWidthTimingInfo.zeroMarkMicros := by decide
  -- the three pieces are decoded alike, each into a word of its own
  have hpiece {n start : ℕ} {x : BitVec 32} (hx : x.toNat < 2 ^ n)
      (hbits : BitsAt p start magiQuestProtocolConstants.distanceWidthTimingInfo.bitMark
        (BitWord.msbBits n x)) (s : DecodeState) :
      decodePulseDistanceWidthDatav2 magiQuestProtocolConstants.distanceWidthTimingInfo
        magiQuestProtocolConstants.flags n start p s =
          some (true, { s with decodedIRData.decodedRawData := x }) := by
    have hdata := hbits.decodeMarks htold hne magiQuestProtocolConstants.flags s
    have hcollected : collected magiQuestProtocolConstants.flags (BitWord.msbBits n x) = x :=
      collectMsb_of_lt hx
    rwa [BitWord.msbBits_length, hcollected] at hdata
  have hbits : BitsAt p 1 magiQuestProtocolConstants.distanceWidthTimingInfo.bitMark
      (BitWord.msbBits 8 0#32 ++ (BitWord.msbBits 31 x ++ BitWord.msbBits 17 y)) :=
    PairsCapture.bitsAt (l := []) hframe
  rw [BitsAt.append, BitsAt.append, BitWord.msbBits_length, BitWord.msbBits_length] at hbits
  obtain ⟨hstart, hwand, hdata⟩ := hbits
  exact ⟨hpiece (by decide) hstart, hpiece hx hwand, hpiece hy hdata⟩

/-- Only the length of the frame is known to the decoders in front, and its first mark is
shorter than a unit of RC5. -/
theorem tryDecoders_take_of_magiQuest {bits : List Bool} (hbits : bits.length = 55)
    (hframe : PairsCapture p ((false :: bits).map
      magiQuestProtocolConstants.distanceWidthTimingInfo.bitPair)) :
    tryDecoders (specificDecoders.take 13) p s =
      some (false, { s with biphase := initBiphaselevel 1 rc5Unit s.biphase }) := by
  have hlen : p.rawlen = 112 := by
    rw [hframe.rawlen, List.length_map, List.length_cons, hbits]
  obtain ⟨t, hzero, hmark⟩ := hframe.mark 0 (Nat.succ_pos _)
  obtain ⟨hrc5, hrc6⟩ := (by decide : ∀ t ∈ roundings magiQuestZeroMark,
    timingIntervals rc5Unit true t = none ∧ matchMark t rc6HeaderMark = false) t hzero
  -- RC5 and RC6 refuse by the first mark, and all others by the length
  rw [show specificDecoders.take 13 = [decodeNec, decodeKaseikyo, decodeDenon, decodeSony,
      decodeRC5, decodeRC6, decodeLG, decodeJVC, decodeSamsung, decodeFAST, decodeWhynter,
      decodeLegoPowerFunctions, decodeBoseWave] from rfl,
    tryDecoders_cons_of_refuse (decodeNec_of_rawlen (by omega) (by omega)),
    tryDecoders_cons_of_refuse (decodeKaseikyo_of_rawlen (by omega)),
    tryDecoders_cons_of_refuse (decodeDenon_of_rawlen (by omega)),
    tryDecoders_cons_of_refuse (decodeSony_of_rawlen (by omega) (by omega) (by omega)),
    tryDecoders_cons_of_refuse (decodeRC5_of_mark hmark (by omega) hrc5),
    tryDecoders_cons_of_refuse (decodeRC6_of_mark hmark hrc6),
    tryDecoders_cons_of_refuse (decodeLG_of_rawlen (by omega) (by omega)),
    tryDecoders_cons_of_refuse (decodeJVC_of_rawlen (by omega) (by omega)),
    tryDecoders_cons_of_refuse (decodeSamsung_of_rawlen (by omega) (by omega) (by omega)),
    tryDecoders_cons_of_refuse (decodeFAST_of_rawlen (by omega)),
    tryDecoders_cons_of_refuse (decodeWhynter_of_rawlen (by omega)),
    tryDecoders_cons_of_refuse (decodeLego_of_rawlen (by omega)),
    tryDecoders_cons_of_refuse (decodeBoseWave_of_rawlen (by omega))]
  rfl

theorem tryDecoders_of_magiQuest (hm : m < 0x200) (h : IdealCapture p (sendMagiQuest w m)) :
    tryDecoders specificDecoders p s = tryDecoders [decodeMagiQuest] p
      { s with biphase := initBiphaselevel 1 rc5Unit s.biphase } := by
  obtain ⟨rest, hrest⟩ : ∃ rest, magiQuestSentBits w m = false :: rest := ⟨_, rfl⟩
  have hlen : (magiQuestSentBits w m).length = 56 := magiQuestSentBits_length
  have hframe := h.magiQuest hm
  rw [hrest] at hframe hlen
  exact tryDecoders_append_of_refuse
    (tryDecoders_take_of_magiQuest (Nat.succ_injective hlen) hframe)

/-- Every frame is decoded to what was sent, its checksum is found right, and it is sent again as
it was. -/
theorem magiQuest_roundTrip (hw : w < 0x80000000) (hm : m < 0x200)
    (h : IdealCapture p (sendMagiQuest w m)) (s : DecodeState) (toggle : BitVec 8) :
    ∃ s', midIrRemoteDecode p s = some (true, s') ∧
      s'.decodedIRData.protocol = .magiQuest ∧
      s'.decodedIRData.decodedRawData = w ∧
      s'.decodedIRData.address = w.setWidth 16 ∧
      s'.decodedIRData.extra = (w >>> 16).setWidth 16 ∧
      s'.decodedIRData.command = m ∧
      (∀ t, magiQuestFrameChecksum p t = some 0) ∧
      ∀ repeats, (midIrSendCommon s'.decodedIRData repeats toggle).1 = sendMagiQuest w m := by
  have hlen : p.rawlen = 112 := by
    rw [(h.magiQuest hm).rawlen, List.length_map, magiQuestSentBits_length]
  obtain ⟨hstart, hwand, hdata⟩ :=
    decode_magiQuestPieces hw (magiQuestWord_lt hm) (h.magiQuest hm)
  have hchain := tryDecoders_of_magiQuest (s := irRemoteInitDecodedIRData p s) hm h
  rw [tryDecoders_cons_of_accept (decodeMagiQuest_frame hlen hstart hwand hdata)] at hchain
  have hcommand : (magiQuestFields w { (irRemoteInitDecodedIRData p s).decodedIRData with
      decodedRawData := (magiQuestWord w m).uLong }).command = m := by
    dsimp only [magiQuestFields]
    rw [LongUnion.ofULong_uLong]
    exact magiQuestWord_command
  refine ⟨_, midIrRemoteDecode_of_accept h.stopped h.overflowFlag hchain, rfl, rfl, rfl, rfl,
    hcommand, fun t => ?_, fun repeats => ?_⟩
  -- the checksum is taken over the same pieces that the decoder reads
  · have hwandBits : magiQuestWandIdBits = 31 := rfl
    have hwordBits : magiQuestMagnitudeBits + magiQuestChecksumBits = 17 := rfl
    have hwandStart : magiQuestStartBits * 2 + 1 = 17 := rfl
    have hwordStart : (31 + magiQuestStartBits) * 2 + 1 = 79 := rfl
    simp only [magiQuestFrameChecksum, hwandBits, hwordBits, hwandStart, hwordStart, hwand, hdata,
      Option.bind_eq_bind, Option.bind_some]
    rw [LongUnion.ofULong_uLong, magiQuestChecksum_magiQuestWord]
    rfl
  · exact congrArg (sendMagiQuest w) hcommand

theorem exists_magiQuestCapture (hm : m < 0x200) : ∃ p, IdealCapture p (sendMagiQuest w m) := by
  have hpulses := filterMap_pulse?_pairs magiQuestProtocolConstants.distanceWidthTimingInfo
    (magiQuestSentBits w m)
  have hlen : (lineRuns (sendMagiQuest w m)).length < rawBufferLength := by
    have hruns : lineRuns (sendMagiQuest w m) = (pairRuns ((magiQuestSentBits w m).map
        magiQuestProtocolConstants.distanceWidthTimingInfo.bitPair)).dropLast := by
      rw [sendMagiQuest_eq hm]
      exact lineRuns_pairRuns hpulses
    rw [hruns, List.length_dropLast, pairRuns_length, List.length_map, magiQuestSentBits_length]
    decide
  obtain ⟨p, hp, -⟩ := exists_idealCapture (show recordGapTicks < 101 by decide) hlen
  exact ⟨p, hp⟩

/-- A wand with a magnitude of 9 bits. -/
theorem magiQuest_roundTrip_wand : ∃ p s', IdealCapture p (sendMagiQuest 0x52345678 0x103) ∧
    midIrRemoteDecode p .zero = some (true, s') ∧ s'.decodedIRData.decodedRawData = 0x52345678 ∧
    s'.decodedIRData.extra = 0x5234 ∧ s'.decodedIRData.command = 0x103 := by
  obtain ⟨p, hp⟩ := @exists_magiQuestCapture 0x52345678 0x103 (by decide)
  obtain ⟨s', hs', -, hw, -, hextra, hcommand, -⟩ :=
    magiQuest_roundTrip (by decide) (by decide) hp .zero initialSendToggleValue
  exact ⟨p, s', hp, hs', hw, hextra, hcommand⟩

end IrRemote
