import IrRemote.Link.BitEntries
import IrRemote.RoundTrip.Samsung

/-!
# The frames of the Samsung senders

A command of Samsung48 is sent as two bytes, each with its complement, in two words. The
decoder puts the second word over the address and reads the bytes in another order.

## Main definitions

* `samsung48Word`, `samsung48Rest` — the words that are sent

## Main results

* `decode_sendSamsung48` — the decoded frame of 48 bits
* `samsung_sent_replay` — what either sender sends is sent again
-/

set_option autoImplicit false

namespace IrRemote

variable {p : IrParams} {s : DecodeState} {a c : BitVec 16} {toggle : BitVec 8} {d : IRData}
  {w : BitVec 32}

/-! ## Samsung -/

theorem lowWord_samsungRawData : (samsungRawData a c).lowWord = a :=
  BitVec.extractLsb'_append_extractLsb'

/-- The complement of a small command is taken for what it is, and a command above 0xFF does
not end with a zero. -/
theorem samsungResent_samsungRawData :
    samsungResent (samsungRawData a c) d = samsungRawData a c := by
  have hc : c.extractLsb' 8 8 ++ c.extractLsb' 0 8 = c := BitVec.extractLsb'_append_extractLsb'
  rw [samsungResent_eq_iff]
  rintro ⟨hhigh, hones⟩
  simp only [samsungRawData] at hhigh hones
  split_ifs at hhigh with hsmall
  · rw [← BitVec.not_not (b := c.extractLsb' 0 8), hhigh] at hones
    exact hones (by decide)
  · exact hsmall ((hc ▸ LongUnion.append_lt_iff _ _).mpr hhigh)

/-! ## Samsung48 -/

/-- The first word: the address, and the lower byte of the command with its complement. -/
def samsung48Word (a c : BitVec 16) : LongUnion where
  lowByte := a.extractLsb' 0 8
  midLowByte := a.extractLsb' 8 8
  midHighByte := c.extractLsb' 0 8
  highByte := ~~~c.extractLsb' 0 8

/-- The second word: the upper byte of the command, and its complement as an `int`. -/
def samsung48Rest (c : BitVec 16) : BitVec 32 :=
  (c.extractLsb' 8 8).setWidth 32 ||| (~~~(c.extractLsb' 8 8).setWidth 32 <<< 8)

/-- The words of `sendSamsung48`. -/
def samsung48Words (a c : BitVec 16) : ℕ → BitVec 32
  | 0 => (samsung48Word a c).uLong
  | _ => samsung48Rest c

theorem sendSamsung48_eq (a c : BitVec 16) : sendSamsung48 a (c.setWidth 32) 0 =
    sendPulseDistanceWidthFromArray samsungProtocolConstants (samsung48Words a c) (32 + 16) 0 := by
  have hlow : (c.setWidth 32).setWidth 8 = c.extractLsb' 0 8 := by
    ext i hi
    simp
  have hcomplement : (~~~c.setWidth 32).setWidth 8 = ~~~c.extractLsb' 0 8 := by
    rw [BitVec.setWidth_not (by decide), hlow]
  have hhigh : (c.setWidth 32 >>> 8).setWidth 8 = c.extractLsb' 8 8 := by
    ext i hi
    simp [show 8 + i < 32 by omega]
  rw [sendSamsung48, hlow, hcomplement, hhigh]
  rfl

/-- The upper byte of the command and its complement are sent. -/
theorem samsung48Rest_setWidth :
    (samsung48Rest c).setWidth 16 = ~~~c.extractLsb' 8 8 ++ c.extractLsb' 8 8 := by
  generalize hb : c.extractLsb' 8 8 = b
  ext i hi
  rw [samsung48Rest, hb, BitVec.getElem_setWidth, BitVec.getLsbD_or, BitVec.getLsbD_setWidth,
    BitVec.getLsbD_shiftLeft, BitVec.getLsbD_not, BitVec.getLsbD_setWidth, BitVec.getElem_append]
  by_cases hlow : i < 8
  · simp [hlow, show i < 32 by omega]
  · simp [hlow, show i < 32 by omega, show i - 8 < 32 by omega, show i - 8 < 8 by omega,
      BitVec.getLsbD_of_ge b i (by omega)]

/-- The fields of the two words. -/
theorem samsung48Fields_samsung48Word
    (hrest : d.decodedRawData.setWidth 16 = ~~~c.extractLsb' 8 8 ++ c.extractLsb' 8 8) :
    samsung48Fields (samsung48Word a c) d =
      { d with
        command := c
        numberOfBits := samsung48Bits
        protocol := .samsung48 } := by
  have hcomplement : ¬(c.extractLsb' 0 8 ≠ ~~~(~~~c.extractLsb' 0 8) ∧
      c.extractLsb' 8 8 ≠ ~~~(~~~c.extractLsb' 8 8)) := fun h => h.1 (BitVec.not_not).symm
  have hcommand : c.extractLsb' 8 8 ++ c.extractLsb' 0 8 = c :=
    BitVec.extractLsb'_append_extractLsb'
  simp only [samsung48Fields, samsung48Word, LongUnion.setLowWord, hrest,
    LongUnion.extractLsb'_append_low, LongUnion.extractLsb'_append_high, if_neg hcomplement,
    hcommand]

/-! ### The frame in the chain -/

theorem IdealCapture.samsung48 (h : IdealCapture p (sendSamsung48 a (c.setWidth 32) 0)) :
    PulseDistanceCapture p samsungHeaderMark samsungHeaderSpace samsungBitMark
      samsungProtocolConstants.distanceWidthTimingInfo.bitSpace
      (BitWord.lsbBits 32 (samsung48Word a c).uLong ++ BitWord.lsbBits 16 (samsung48Rest c)) := by
  rw [sendSamsung48_eq] at h
  exact h.twoWords ⟨rfl, by decide⟩ rfl (by decide) (by decide)

/-- Any frame of 48 bits is decoded. The word lies in front of the upper byte of the command and
its complement. -/
theorem decodeSamsung_of_capture48 {rest : BitVec 32}
    (hframe : PulseDistanceCapture p samsungHeaderMark samsungHeaderSpace samsungBitMark
      samsungProtocolConstants.distanceWidthTimingInfo.bitSpace
      (BitWord.lsbBits 32 w ++ BitWord.lsbBits 16 rest)) (s : DecodeState) :
    ∃ g, decodeSamsung p s = some (true, { s with
      decodedIRData := (samsung48Fields (LongUnion.ofULong w)
        { s.decodedIRData with
          decodedRawData := collected samsungProtocolConstants.flags (BitWord.lsbBits 16 rest)
          address := (LongUnion.ofULong w).lowWord }).afterGap g
            (samsungMaximumRepeatDistance / microsPerTick) }) := by
  obtain ⟨g, hg, -⟩ := hframe.gap
  have hlen : p.rawlen = 100 := by
    rw [hframe.rawlen, List.length_append, BitWord.lsbBits_length, BitWord.lsbBits_length]
  have hheader : checkHeader samsungProtocolConstants.distanceWidthTimingInfo p = some true :=
    hframe.checkHeader (by decide)
  have htold : SpacesTold samsungProtocolConstants.distanceWidthTimingInfo.bitSpace
    samsungProtocolConstants.distanceWidthTimingInfo.oneSpaceMicros := by decide
  obtain ⟨hfirst, hrest⟩ := BitsAt.append.mp hframe.bitsAt
  rw [BitWord.lsbBits_length] at hrest
  have hdata := @BitsAt.decodeSpaces p 3 _ _ hfirst _ htold rfl samsungProtocolConstants.flags
  have hdata' := @BitsAt.decodeSpaces p 67 _ _ hrest _ htold rfl samsungProtocolConstants.flags
  have hword : collected samsungProtocolConstants.flags (BitWord.lsbBits 32 w) = w :=
    BitWord.collectLsb_lsbBits_width
  rw [BitWord.lsbBits_length, hword] at hdata
  rw [BitWord.lsbBits_length] at hdata'
  exact ⟨g, decodeSamsung_frame48 hlen hheader hdata hdata' hg⟩

/-- The decoders in front of `decodeSamsung` refuse it. -/
theorem tryDecoders_take_of_capture48 {rest : BitVec 32}
    (hframe : PulseDistanceCapture p samsungHeaderMark samsungHeaderSpace samsungBitMark
      samsungProtocolConstants.distanceWidthTimingInfo.bitSpace
      (BitWord.lsbBits 32 w ++ BitWord.lsbBits 16 rest)) (s : DecodeState) :
    tryDecoders (specificDecoders.take 8) p s =
      some (false, { s with biphase := initBiphaselevel 1 rc5Unit s.biphase }) := by
  obtain ⟨m, hm, hmark⟩ := hframe.headerMark
  have hlen : p.rawlen = 100 := by
    rw [hframe.rawlen, List.length_append, BitWord.lsbBits_length, BitWord.lsbBits_length]
  exact tryDecoders_take_of_samsungMark hm hmark (by omega)
    (decodeKaseikyo_of_header (hframe.checkHeader (by decide)))

/-- The chain decodes the frame as Samsung48. -/
theorem decode_sendSamsung48 (h : IdealCapture p (sendSamsung48 a (c.setWidth 32) 0)) :
    ∃ s' g rest, midIrRemoteDecode p s = some (true, s') ∧
      s'.decodedIRData = IRData.afterGap { (irRemoteInitDecodedIRData p s).decodedIRData with
        decodedRawData := rest
        address := a
        command := c
        numberOfBits := samsung48Bits
        protocol := .samsung48 } g (samsungMaximumRepeatDistance / microsPerTick) := by
  have hframe := h.samsung48
  have hrestWord : (collected samsungProtocolConstants.flags
      (BitWord.lsbBits 16 (samsung48Rest c))).setWidth 16 =
        ~~~c.extractLsb' 8 8 ++ c.extractLsb' 8 8 := by
    rw [← samsung48Rest_setWidth]
    exact BitWord.setWidth_collectLsb_lsbBits (w := 32) (n := 16) (x := samsung48Rest c)
  obtain ⟨g, hsamsung⟩ := decodeSamsung_of_capture48 hframe
    { irRemoteInitDecodedIRData p s with
      biphase := initBiphaselevel 1 rc5Unit (irRemoteInitDecodedIRData p s).biphase }
  have haddress : (samsung48Word a c).lowWord = a := BitVec.extractLsb'_append_extractLsb'
  rw [LongUnion.ofULong_uLong, haddress, samsung48Fields_samsung48Word (by exact hrestWord)]
    at hsamsung
  have hfront := tryDecoders_take_of_capture48 hframe (irRemoteInitDecodedIRData p s)
  have hchain : tryDecoders specificDecoders p (irRemoteInitDecodedIRData p s) = _ :=
    (tryDecoders_append_of_refuse hfront).trans (tryDecoders_cons_of_accept hsamsung)
  exact ⟨_, g, _, midIrRemoteDecode_of_accept hframe.stopped hframe.overflowFlag hchain, rfl⟩

/-! ## Both senders -/

/-- A frame of the sender of Samsung or of Samsung48. -/
inductive SamsungSent (a c : BitVec 16) : DecodeType → List TxEvent → Prop
  | samsung : SamsungSent a c .samsung (sendSamsung a c 0)
  | samsung48 : SamsungSent a c .samsung48 (sendSamsung48 a (c.setWidth 32) 0)

/-- Every frame of either sender is decoded to its protocol and its address, and sent again as
it was. The command of Samsung48 is decoded too. -/
theorem samsung_sent_replay {protocol : DecodeType} {tx : List TxEvent}
    (htx : SamsungSent a c protocol tx) (h : IdealCapture p tx) (s : DecodeState)
    (toggle : BitVec 8) :
    ∃ s', midIrRemoteDecode p s = some (true, s') ∧ s'.decodedIRData.protocol = protocol ∧
      s'.decodedIRData.address = a ∧
      s'.decodedIRData.flags &&& irdataFlagsParityFailed = 0 ∧
      (protocol = .samsung48 → s'.decodedIRData.command = c) ∧
      (midIrSendCommon s'.decodedIRData 0 toggle).1 = tx := by
  have hflags : irdataFlagsEmpty &&& irdataFlagsParityFailed = 0 := by decide
  cases htx with
  | samsung =>
    obtain ⟨s', g, hs', hd⟩ := decode_samsungFrame h s
    refine ⟨s', hs', by rw [hd]; rfl, ?_, ?_, fun hne => absurd hne (by decide), ?_⟩
    · rw [hd]
      exact (congrArg LongUnion.lowWord LongUnion.ofULong_uLong).trans lowWord_samsungRawData
    · rw [hd, IRData.afterGap_and (by decide)]
      exact (congrArg (· &&& _) (irRemoteInitDecodedIRData_flags h.overflowFlag)).trans hflags
    · rw [hd, midIrSendCommon_samsungReceived, LongUnion.ofULong_uLong,
        samsungResent_samsungRawData]
      rfl
  | samsung48 =>
    obtain ⟨s', g, rest, hs', hd⟩ := decode_sendSamsung48 (s := s) h
    refine ⟨s', hs', by rw [hd]; rfl, by rw [hd]; rfl, ?_, fun _ => by rw [hd]; rfl, ?_⟩
    · rw [hd, IRData.afterGap_and (by decide)]
      exact (congrArg (· &&& _) (irRemoteInitDecodedIRData_flags h.overflowFlag)).trans hflags
    · rw [hd]
      rfl

/-- A command of Samsung48 of two bytes. -/
theorem samsung_sent_replay_two_bytes : ∃ p s',
    IdealCapture p (sendSamsung48 0x0707 ((0x1234 : BitVec 16).setWidth 32) 0) ∧
    midIrRemoteDecode p .zero = some (true, s') ∧ s'.decodedIRData.protocol = .samsung48 ∧
    s'.decodedIRData.address = 0x0707 ∧ s'.decodedIRData.command = 0x1234 := by
  have hlen : (lineRuns (sendSamsung48 0x0707 ((0x1234 : BitVec 16).setWidth 32) 0)).length <
      rawBufferLength := by
    rw [sendSamsung48_eq, length_lineRuns_twoWords ⟨rfl, by decide⟩ rfl (by decide) (by decide)]
    decide
  obtain ⟨p, hp, -⟩ := exists_idealCapture (show recordGapTicks < 500 by decide) hlen
  obtain ⟨s', hs', hprotocol, haddress, -, hcommand, -⟩ :=
    samsung_sent_replay .samsung48 hp .zero initialSendToggleValue
  exact ⟨p, s', hp, hs', hprotocol, haddress, hcommand rfl⟩

end IrRemote
