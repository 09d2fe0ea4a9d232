import IrRemote.Link.IdealCapture
import IrRemote.Mid.IrRemoteDecode
import IrRemote.Mid.IrSend

/-!
# LG frames

The chain decodes every LG frame to the address and the 16 bit command it was sent with.
The dispatcher narrows the command to its low byte before it sends it again. The header mark of
LG2 lies in the window of that of LG, which is tried first, so an LG2 frame is compared with the
header space of LG and refused.

## Main definitions

* `YieldsLG2` — the frame is decoded as LG2, with the fields it was sent with

## Main results

* `decode_sendLG` — the decoded frame
* `lg_replay` — the commands that are sent again as they were received
* `not_yieldsLG2` — no LG2 frame is decoded as LG2
-/

set_option autoImplicit false

namespace IrRemote

variable {p : IrParams} {s : DecodeState} {a a' : BitVec 8} {c c' : BitVec 16} {toggle : BitVec 8}

/-! ## The word of a frame -/

theorem getLsbD_nibble (i : ℕ) : (0xF#8).getLsbD i = decide (i < 4) := by
  rcases Nat.lt_or_ge i 8 with hlt | hge
  · exact (by decide : ∀ i < 8, (0xF#8).getLsbD i = decide (i < 4)) i hlt
  · rw [BitVec.getLsbD_of_ge _ _ hge, decide_eq_false (by omega)]

/-- The 8 address bits, the 16 command bits and the 4 checksum bits. -/
theorem getLsbD_computeLGRawDataAndChecksum (i : ℕ) :
    (computeLGRawDataAndChecksum a c).getLsbD i =
      if i < 4 then (lgChecksum c).getLsbD i
      else if i < 20 then c.getLsbD (i - 4) else a.getLsbD (i - 20) := by
  have hnibble := getLsbD_nibble i
  simp only [computeLGRawDataAndChecksum, lgCommandBits, lgChecksumBits, BitVec.getLsbD_or,
    BitVec.getLsbD_shiftLeft, BitVec.getLsbD_setWidth, BitVec.getLsbD_and, BitVec.ofNat_eq_ofNat,
    hnibble]
  split_ifs with hchecksum hcommand
  · simp [hchecksum, show i < 20 by omega, show i < 32 by omega]
  · simp [hchecksum, hcommand, show i < 32 by omega, show i - 4 < 32 by omega]
  · have hc := BitVec.getLsbD_of_ge c (i - 4) (by omega)
    rcases Nat.lt_or_ge i 32 with hlt | hge
    · simp [hchecksum, hcommand, hlt, hc, show i - 20 < 32 by omega]
    · simp [hchecksum, hcommand, show ¬i < 32 by omega,
        BitVec.getLsbD_of_ge a (i - 20) (by omega)]

/-- The word fits the 28 bits that are sent. -/
theorem collectMsb_computeLGRawDataAndChecksum :
    BitWord.collectMsb (BitWord.msbBits lgBits (computeLGRawDataAndChecksum a c)) 0#32 =
      computeLGRawDataAndChecksum a c := by
  apply BitWord.collectMsb_msbBits
  intro i hi
  have hi' : 28 ≤ i := hi
  rw [getLsbD_computeLGRawDataAndChecksum, if_neg (by omega), if_neg (by omega)]
  exact BitVec.getLsbD_of_ge a _ (by omega)

theorem lgAddress_eq :
    (computeLGRawDataAndChecksum a c >>> (lgCommandBits + lgChecksumBits)).setWidth 16 =
      a.setWidth 16 := by
  apply BitVec.eq_of_getLsbD_eq
  intro i hi
  simp [hi, getLsbD_computeLGRawDataAndChecksum, lgCommandBits, lgChecksumBits,
    show ¬20 + i < 4 by omega]

theorem lgCommand_eq :
    (((computeLGRawDataAndChecksum a c >>> lgChecksumBits) &&& 0xFFFF).setWidth 16 : BitVec 16) =
      c := by
  apply BitVec.eq_of_getLsbD_eq
  intro i hi
  have hmask : (65535#16)[i] = true := (by decide : ∀ i (hi : i < 16), (65535#16)[i] = true) i hi
  simp [hi, hmask, getLsbD_computeLGRawDataAndChecksum, lgChecksumBits, show 4 + i < 20 by omega]

theorem lgChecksum_eq :
    computeLGRawDataAndChecksum a c &&& 0xF = (lgChecksum c &&& 0xF).setWidth 32 := by
  apply BitVec.eq_of_getLsbD_eq
  intro i hi
  have hmask := (by decide : ∀ i < 32, (0xF#32).getLsbD i = decide (i < 4)) i hi
  have hnibble := getLsbD_nibble i
  simp only [BitVec.getLsbD_and, BitVec.getLsbD_setWidth, BitVec.ofNat_eq_ofNat, hmask, hnibble,
    getLsbD_computeLGRawDataAndChecksum, hi, decide_true, Bool.true_and]
  by_cases hchecksum : i < 4 <;> simp [hchecksum]

/-- The address and the command can be read off the word. -/
theorem computeLGRawDataAndChecksum_inj :
    computeLGRawDataAndChecksum a c = computeLGRawDataAndChecksum a c' ↔ c = c' := by
  refine ⟨fun h => ?_, congrArg _⟩
  rw [← lgCommand_eq (a := a) (c := c), h, lgCommand_eq]

theorem sendLG_inj : sendLG a c 0 = sendLG a c' 0 ↔ c = c' := by
  rw [← computeLGRawDataAndChecksum_inj (a := a)]
  refine (sendPulseDistanceWidthV1_msb_inj (n := 27) (by decide) (by decide) (by decide)).trans ?_
  refine ⟨fun h => ?_, congrArg _⟩
  rw [← collectMsb_computeLGRawDataAndChecksum (c := c),
    ← collectMsb_computeLGRawDataAndChecksum (c := c')]
  exact congrArg (BitWord.collectMsb · 0#32) h

/-- The frame that was sent with an address and a command. -/
def lgSentFields (a : BitVec 8) (c : BitVec 16) (d : IRData) : IRData :=
  { d with
    decodedRawData := computeLGRawDataAndChecksum a c
    command := c
    address := a.setWidth 16
    flags := irdataFlagsIsMsbFirst
    protocol := .lg
    numberOfBits := lgBits }

/-- The decoder reads it off the word, and the checksum is right. -/
theorem lgFields_computeLGRawDataAndChecksum (d : IRData) :
    lgFields .lg { d with decodedRawData := computeLGRawDataAndChecksum a c } =
      lgSentFields a c d := by
  simp only [lgFields, lgSentFields, lgCommand_eq, lgAddress_eq, lgChecksum_eq, ne_eq, not_true,
    if_false]

/-- The dispatcher narrows the command. -/
theorem midIrSendCommon_lgSentFields (d : IRData) :
    (midIrSendCommon (lgSentFields a c d) 0 toggle).1 =
      sendLG a ((c.setWidth 8).setWidth 16) 0 := by
  have ha : (a.setWidth 16).setWidth 8 = a := by simp
  exact congrArg (sendLG · _ 0) ha

/-! ## The frame in the chain -/

theorem IdealCapture.lg (h : IdealCapture p (sendLG a c 0)) :
    PulseDistanceCapture p lgHeaderMark lgHeaderSpace lgBitMark
      lgProtocolConstants.distanceWidthTimingInfo.bitSpace
      (BitWord.msbBits lgBits (computeLGRawDataAndChecksum a c)) :=
  h.msbFirst (n := 27) ⟨rfl, by decide⟩ (by decide) (by decide)

/-- The chain decodes the frame as LG, with the fields it was sent with. -/
theorem decode_sendLG (h : IdealCapture p (sendLG a c 0)) :
    ∃ s', midIrRemoteDecode p s = some (true, s') ∧
      s'.decodedIRData = lgSentFields a c (irRemoteInitDecodedIRData p s).decodedIRData := by
  have hframe := h.lg
  obtain ⟨m, hm, hmark⟩ := hframe.headerMark
  obtain ⟨u, hu, hspace⟩ := hframe.headerSpace
  have hlen : p.rawlen = 60 := by
    rw [hframe.rawlen, BitWord.msbBits_length]
    rfl
  have hlong : 69 ≤ m := (by decide : ∀ m ∈ roundings lgHeaderMark, 69 ≤ m) m hm
  have hprotocol : lgProtocol m = some (.lg, lgHeaderSpace) :=
    (by decide : ∀ m ∈ roundings lgHeaderMark, lgProtocol m = some (.lg, lgHeaderSpace)) m hm
  have hmatch : matchSpace u lgHeaderSpace = true :=
    (by decide : ∀ u ∈ roundings lgHeaderSpace, matchSpace u lgHeaderSpace = true) u hu
  have hbits := hframe.decodeBits_msb (show SpacesTold _ lgOneSpace by decide) lgBitMark
  rw [BitWord.msbBits_length, collectMsb_computeLGRawDataAndChecksum] at hbits
  have hlg := decodeLG_frame (s := { irRemoteInitDecodedIRData p s with
    biphase := initBiphaselevel 1 rc5Unit (irRemoteInitDecodedIRData p s).biphase })
    hlen hmark hspace hprotocol hmatch hbits
  -- NEC has the same header mark and another length
  have hnec := decodeNec_of_rawlen (p := p) (s := irRemoteInitDecodedIRData p s) (by omega)
    (by omega)
  have hchain := tryDecoders_of_long_mark hnec (decodeKaseikyo_of_rawlen (by omega)) hmark hlong
    (by omega) (by omega)
  rw [show specificDecoders.drop 6 = decodeLG :: specificDecoders.drop 7 from rfl,
    tryDecoders_cons_of_accept hlg, lgFields_computeLGRawDataAndChecksum] at hchain
  exact ⟨_, midIrRemoteDecode_of_accept hframe.stopped hframe.overflowFlag hchain, rfl⟩

/-- The frame is decoded to what was sent. It is sent again as it was received exactly when
the command fits a byte. -/
theorem lg_replay (h : IdealCapture p (sendLG a c 0)) (s : DecodeState) (toggle : BitVec 8) :
    ∃ s', midIrRemoteDecode p s = some (true, s') ∧
      s'.decodedIRData.protocol = .lg ∧
      s'.decodedIRData.address = a.setWidth 16 ∧
      s'.decodedIRData.command = c ∧
      s'.decodedIRData.numberOfBits = 28 ∧
      s'.decodedIRData.flags &&& irdataFlagsParityFailed = 0 ∧
      ((midIrSendCommon s'.decodedIRData 0 toggle).1 = sendLG a c 0 ↔ c < 0x100#16) := by
  obtain ⟨s', hs', hd⟩ := decode_sendLG (s := s) h
  have hflags : irdataFlagsIsMsbFirst &&& irdataFlagsParityFailed = 0 := by decide
  refine ⟨s', hs', ?_⟩
  rw [hd]
  refine ⟨rfl, rfl, rfl, rfl, hflags, ?_⟩
  rw [midIrSendCommon_lgSentFields, sendLG_inj, LongUnion.setWidth_setWidth_eq_iff]

theorem exists_lgCapture (a : BitVec 8) (c : BitVec 16) : ∃ p, IdealCapture p (sendLG a c 0) := by
  have hlen : (lineRuns (sendLG a c 0)).length < rawBufferLength := by
    rw [sendLG, show lgBits = 27 + 1 from rfl,
      length_lineRuns_msbFirst ⟨rfl, by decide⟩ (by decide) (by decide)]
    decide
  obtain ⟨p, hp, -⟩ := exists_idealCapture (show recordGapTicks < 101 by decide) hlen
  exact ⟨p, hp⟩

/-- A command of one byte is sent again. -/
theorem lg_replay_byte : ∃ p s', IdealCapture p (sendLG 0x88 0x0034 0) ∧
    midIrRemoteDecode p .zero = some (true, s') ∧
    (midIrSendCommon s'.decodedIRData 0 initialSendToggleValue).1 = sendLG 0x88 0x0034 0 := by
  obtain ⟨p, hp⟩ := exists_lgCapture 0x88 0x0034
  obtain ⟨s', hs', -, -, -, -, -, hsent⟩ := lg_replay hp .zero initialSendToggleValue
  exact ⟨p, s', hp, hs', hsent.mpr (by decide)⟩

/-- The upper byte of the command 0x1234 is lost. -/
theorem lg_replay_wide_command : ∃ p s', IdealCapture p (sendLG 0x88 0x1234 0) ∧
    midIrRemoteDecode p .zero = some (true, s') ∧
    (midIrSendCommon s'.decodedIRData 0 initialSendToggleValue).1 ≠ sendLG 0x88 0x1234 0 := by
  obtain ⟨p, hp⟩ := exists_lgCapture 0x88 0x1234
  obtain ⟨s', hs', hd⟩ := decode_sendLG (s := .zero) hp
  refine ⟨p, s', hp, hs', ?_⟩
  rw [hd, midIrSendCommon_lgSentFields, Ne, sendLG_inj]
  decide

/-! ## LG2 -/

/-- The frame is decoded as LG2, with the address and the command it was sent with. -/
def YieldsLG2 (p : IrParams) (a : BitVec 8) (c : BitVec 16) (s : DecodeState) : Prop :=
  ∃ s', midIrRemoteDecode p s = some (true, s') ∧
    s'.decodedIRData.protocol = .lg2 ∧
    s'.decodedIRData.address = a.setWidth 16 ∧
    s'.decodedIRData.command = c ∧
    s'.decodedIRData.numberOfBits = 28 ∧
    s'.decodedIRData.flags &&& irdataFlagsParityFailed = 0

theorem IdealCapture.lg2 (h : IdealCapture p (sendLG2 a c 0)) :
    PulseDistanceCapture p lg2HeaderMark lg2HeaderSpace lgBitMark
      lg2ProtocolConstants.distanceWidthTimingInfo.bitSpace
      (BitWord.msbBits lgBits (computeLGRawDataAndChecksum a c)) :=
  h.msbFirst (n := 27) ⟨rfl, by decide⟩ (by decide) (by decide)

/-- The header of LG2 has the mark of LG, and so its space is too short. -/
theorem decodeLG_lg2Header {m u : ℕ} (hlen : p.rawlen = 60) (hm : p.raw 1 = some m)
    (hu : p.raw 2 = some u) (hmark : m ∈ roundings lg2HeaderMark)
    (hspace : u ∈ roundings lg2HeaderSpace) : decodeLG p s = some (false, s) := by
  have hprotocol : lgProtocol m = some (.lg, lgHeaderSpace) :=
    (by decide : ∀ m ∈ roundings lg2HeaderMark, lgProtocol m = some (.lg, lgHeaderSpace)) m hmark
  have hshort : matchSpace u lgHeaderSpace = false :=
    (by decide : ∀ u ∈ roundings lg2HeaderSpace, matchSpace u lgHeaderSpace = false) u hspace
  have hframe : ¬(p.rawlen ≠ 2 * lgBits + 4 ∧ p.rawlen ≠ 4) := fun h => h.1 hlen
  have hrepeat : ¬p.rawlen = 4 := by omega
  simp only [decodeLG, if_neg hframe, hm, hprotocol, if_neg hrepeat, hu, hshort,
    Option.bind_eq_bind, Option.bind_some, Bool.not_false, if_true]
  rfl

/-- What the universal decoder and the hash make of a frame is of no known protocol. -/
theorem protocol_of_tryDecoders_universal {accepted : Bool} {s' : DecodeState}
    (hprotocol : s.decodedIRData.protocol = .unknown)
    (h : tryDecoders [decodeDistanceWidth, decodeHash] p s = some (accepted, s')) :
    s'.decodedIRData.protocol ∈ [DecodeType.pulseWidth, .pulseDistance, .unknown] := by
  have huniversal : Attempt.Ensures
      (fun t => t.decodedIRData.protocol ∈ [DecodeType.pulseWidth, .pulseDistance, .unknown])
      (fun t => t.decodedIRData.protocol = .unknown) (decodeDistanceWidth p s) :=
    decodeDistanceWidth_ensures.mono
      (by
        rintro t ⟨mark, space, -, ht, -⟩
        rw [ht]
        split_ifs <;> decide)
      (by
        rintro t ⟨bits, rfl⟩
        exact hprotocol)
  have hhash : ∀ t : DecodeState, t.decodedIRData.protocol = .unknown → Attempt.Ensures
      (fun t => t.decodedIRData.protocol ∈ [DecodeType.pulseWidth, .pulseDistance, .unknown])
      (fun t => t.decodedIRData.protocol = .unknown) (Attempt.firstOf [decodeHash p] t) :=
    fun t ht => Attempt.Ensures.firstOf_cons
      (decodeHash_ensures.mono
        (fun u hu => by
          rw [hu]
          decide)
        (fun u hu => hu.1 ▸ ht))
      fun u hu => .refuse hu
  have hpost := Attempt.Ensures.firstOf_cons huniversal hhash accepted s' h
  cases accepted with
  | true => exact hpost
  | false =>
    rw [show s'.decodedIRData.protocol = .unknown from hpost]
    decide

/-- An LG2 frame is left to the decoders that give no known protocol. -/
theorem protocol_decode_sendLG2 {s' : DecodeState} (h : IdealCapture p (sendLG2 a c 0))
    (hs' : midIrRemoteDecode p s = some (true, s')) :
    s'.decodedIRData.protocol ∈ [DecodeType.pulseWidth, .pulseDistance, .unknown] := by
  have hframe := h.lg2
  obtain ⟨m, hmark, hm⟩ := hframe.headerMark
  obtain ⟨u, hspace, hu⟩ := hframe.headerSpace
  have hlen : p.rawlen = 60 := by
    rw [hframe.rawlen, BitWord.msbBits_length]
    rfl
  have hlong : 69 ≤ m := (by decide : ∀ m ∈ roundings lg2HeaderMark, 69 ≤ m) m hmark
  -- no decoder of a single protocol accepts the frame
  have hnec := decodeNec_of_rawlen (p := p) (s := irRemoteInitDecodedIRData p s) (by omega)
    (by omega)
  have hchain := tryDecoders_of_long_mark hnec (decodeKaseikyo_of_rawlen (by omega)) hm hlong
    (by omega) (by omega)
  have hrest := tryDecoders_behind_decodeLG (p := p) (s := { irRemoteInitDecodedIRData p s with
    biphase := initBiphaselevel 1 rc5Unit (irRemoteInitDecodedIRData p s).biphase })
    (by rw [hlen]; decide)
  rw [show specificDecoders.drop 6 = decodeLG :: specificDecoders.drop 7 from rfl,
    tryDecoders_cons_of_refuse (decodeLG_lg2Header hlen hm hu hmark hspace), hrest] at hchain
  rw [midIrRemoteDecode_of_stop hframe.stopped hframe.overflowFlag, decoders,
    tryDecoders_append_of_refuse hchain, Option.map_eq_some_iff] at hs'
  obtain ⟨⟨accepted, t⟩, ht, hresult⟩ := hs'
  obtain ⟨-, rfl⟩ := Prod.mk.inj hresult
  exact protocol_of_tryDecoders_universal
    (by rw [irRemoteInitDecodedIRData_eq hframe.overflowFlag]) ht

/-- Whatever address and command it carries, an LG2 frame is not decoded as one. -/
theorem not_yieldsLG2 (h : IdealCapture p (sendLG2 a c 0)) (s : DecodeState) :
    ¬YieldsLG2 p a c s := by
  rintro ⟨s', hs', hprotocol, -⟩
  have hmem := protocol_decode_sendLG2 h hs'
  rw [hprotocol] at hmem
  exact absurd hmem (by decide)

theorem exists_lg2Capture (a : BitVec 8) (c : BitVec 16) :
    ∃ p, IdealCapture p (sendLG2 a c 0) := by
  have hlen : (lineRuns (sendLG2 a c 0)).length < rawBufferLength := by
    rw [sendLG2, show lgBits = 27 + 1 from rfl,
      length_lineRuns_msbFirst ⟨rfl, by decide⟩ (by decide) (by decide)]
    decide
  obtain ⟨p, hp, -⟩ := exists_idealCapture (show recordGapTicks < 101 by decide) hlen
  exact ⟨p, hp⟩

theorem not_yieldsLG2_sample :
    ∃ p, IdealCapture p (sendLG2 0x88 0x0034 0) ∧ ¬YieldsLG2 p 0x88 0x0034 .zero := by
  obtain ⟨p, hp⟩ := exists_lg2Capture 0x88 0x0034
  exact ⟨p, hp, not_yieldsLG2 hp .zero⟩

/-- The command 0x0034 to the address 0x88. -/
theorem lg2_header_taken_for_lg :
    ¬∀ (a : BitVec 8) (c : BitVec 16) (p : IrParams) (s : DecodeState),
      IdealCapture p (sendLG2 a c 0) → YieldsLG2 p a c s := by
  intro h
  obtain ⟨p, hp⟩ := exists_lg2Capture 0x88 0x0034
  obtain ⟨s', hs', hprotocol, -⟩ := h 0x88 0x0034 p .zero hp
  have hmem := protocol_decode_sendLG2 hp hs'
  rw [hprotocol] at hmem
  exact absurd hmem (by decide)

end IrRemote
