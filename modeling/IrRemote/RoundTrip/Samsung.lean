import IrRemote.Link.IdealCapture
import IrRemote.Mid.IrRemoteDecode
import IrRemote.Mid.IrSend

/-!
# Samsung frames

Every frame of 32 bits with the timing of Samsung is decoded as Samsung. The decoder takes
the upper word for an 8 bit command when its bytes are complements, and the sender takes
a command below 0x100 for one: an upper word with a zero in front is sent again with a
complement that was not received.

## Main definitions

* `samsungFrame` — a frame with the timing of Samsung

## Main results

* `samsung_replay` — the words that are sent again as they were received
-/

set_option autoImplicit false

namespace IrRemote

/-- A frame with the timing of Samsung that carries a word. -/
def samsungFrame (w : BitVec 32) : List TxEvent :=
  sendPulseDistanceWidthV1 samsungProtocolConstants w samsungBits 0

variable {p : IrParams} {s s' : DecodeState} {w : BitVec 32} {toggle : BitVec 8}

theorem samsungFrame_inj {w' : BitVec 32} : samsungFrame w = samsungFrame w' ↔ w = w' :=
  (sendPulseDistanceWidthV1_lsb_inj (by decide) (by decide)).trans BitWord.lsbBits_width_inj

theorem IdealCapture.samsung (h : IdealCapture p (samsungFrame w)) :
    PulseDistanceCapture p samsungHeaderMark samsungHeaderSpace samsungBitMark
      samsungProtocolConstants.distanceWidthTimingInfo.bitSpace (BitWord.lsbBits samsungBits w) :=
  h.lsbFirst ⟨rfl, by decide⟩ (by decide)

/-- What the sender makes of the fields the decoder has read off a word. -/
def samsungResent (u : LongUnion) (d : IRData) : LongUnion :=
  samsungRawData u.lowWord (samsungFields u d).command

/-- A command below 0x100 is sent with its complement. -/
theorem samsungRawData_byte (low midLow command : BitVec 8) :
    samsungRawData (midLow ++ low) (0#8 ++ command) = ⟨low, midLow, command, ~~~command⟩ := by
  have hlt : 0#8 ++ command < 0x100#16 := (LongUnion.append_lt_iff _ _).mpr rfl
  simp [samsungRawData, hlt]

/-- Any other command is sent as it is. -/
theorem samsungRawData_word (low midLow midHigh : BitVec 8) {high : BitVec 8} (hne : high ≠ 0#8) :
    samsungRawData (midLow ++ low) (high ++ midHigh) = ⟨low, midLow, midHigh, high⟩ := by
  have hge : ¬high ++ midHigh < 0x100#16 := mt (LongUnion.append_lt_iff _ _).mp hne
  simp [samsungRawData, hge]

theorem samsungResent_eq_iff (u : LongUnion) (d : IRData) :
    samsungResent u d = u ↔ ¬(u.highByte = 0#8 ∧ u.midHighByte ≠ 0xFF#8) := by
  obtain ⟨low, midLow, midHigh, high⟩ := u
  rw [samsungResent, samsungFields]
  dsimp only [LongUnion.lowWord, LongUnion.highWord]
  by_cases hcomplement : midHigh = ~~~high
  · -- the complement that is sent is the one that was received
    have hones : ¬(high = 0#8 ∧ midHigh ≠ 0xFF#8) := by
      rintro ⟨rfl, hne⟩
      exact hne (by rw [hcomplement]; decide)
    rw [if_pos hcomplement, ← LongUnion.append_zero, samsungRawData_byte]
    exact iff_of_true (by rw [hcomplement, BitVec.not_not]) hones
  · rw [if_neg hcomplement]
    by_cases hzero : high = 0#8
    · -- the upper word is taken for an 8 bit command
      subst hzero
      have hones : midHigh ≠ 0xFF#8 := fun h => hcomplement (by rw [h]; decide)
      have hne : ~~~midHigh ≠ 0#8 := fun h => hcomplement (by rw [← h, BitVec.not_not])
      rw [samsungRawData_byte]
      exact iff_of_false (fun h => hne (congrArg LongUnion.highByte h)) (not_not.mpr ⟨rfl, hones⟩)
    · rw [samsungRawData_word low midLow midHigh hzero]
      exact iff_of_true rfl fun h => hzero h.1

/-- What the decoder leaves of a word. -/
def samsungReceived (w : BitVec 32) (d : IRData) : IRData :=
  samsungFields (LongUnion.ofULong w)
    { d with decodedRawData := w, address := (LongUnion.ofULong w).lowWord }

theorem midIrSendCommon_samsungReceived (d : IRData) (g ticks : ℕ) :
    (midIrSendCommon ((samsungReceived w d).afterGap g ticks) 0 toggle).1 =
      samsungFrame (samsungResent (LongUnion.ofULong w) d).uLong := rfl

/-- The decoders in front of `decodeSamsung` refuse a long frame with its header mark. -/
theorem tryDecoders_take_of_samsungMark {m : ℕ} (hm : m ∈ roundings samsungHeaderMark)
    (hmark : p.raw 1 = some m) (hlen : 60 < p.rawlen)
    (hkaseikyo : decodeKaseikyo p s = some (false, s)) :
    tryDecoders (specificDecoders.take 8) p s =
      some (false, { s with biphase := initBiphaselevel 1 rc5Unit s.biphase }) := by
  obtain ⟨hlong, hnec⟩ := (by decide : ∀ m ∈ roundings samsungHeaderMark,
    69 ≤ m ∧ matchMark m necHeaderMark = false) m hm
  have hfront := tryDecoders_take_of_long_mark (decodeNec_of_mark hmark hnec) hkaseikyo hmark hlong
    (by omega) (by omega)
  rw [show specificDecoders.take 8 = specificDecoders.take 6 ++ [decodeLG, decodeJVC] from rfl,
    tryDecoders_append_of_refuse hfront,
    tryDecoders_cons_of_refuse (decodeLG_of_rawlen (by omega) (by omega)),
    tryDecoders_cons_of_refuse (decodeJVC_of_rawlen (by omega) (by omega))]
  rfl

theorem tryDecoders_of_samsungMark {m : ℕ} (hm : m ∈ roundings samsungHeaderMark)
    (hmark : p.raw 1 = some m) (hlen : 60 < p.rawlen)
    (hkaseikyo : decodeKaseikyo p s = some (false, s))
    (hsamsung : decodeSamsung p { s with biphase := initBiphaselevel 1 rc5Unit s.biphase } =
      some (true, s')) :
    tryDecoders specificDecoders p s = some (true, s') :=
  (tryDecoders_append_of_refuse (tryDecoders_take_of_samsungMark hm hmark hlen hkaseikyo)).trans
    (tryDecoders_cons_of_accept hsamsung)

/-- The chain decodes the frame as Samsung. -/
theorem decode_samsungFrame (h : IdealCapture p (samsungFrame w)) (s : DecodeState) :
    ∃ s' g, midIrRemoteDecode p s = some (true, s') ∧
      s'.decodedIRData = (samsungReceived w (irRemoteInitDecodedIRData p s).decodedIRData).afterGap
        g (samsungMaximumRepeatDistance / microsPerTick) := by
  have hframe := h.samsung
  obtain ⟨m, hm, hmark⟩ := hframe.headerMark
  obtain ⟨g, hg, -⟩ := hframe.gap
  have hlen : p.rawlen = 68 := by
    rw [hframe.rawlen, BitWord.lsbBits_length]
    rfl
  have hheader : checkHeader samsungProtocolConstants.distanceWidthTimingInfo p = some true :=
    hframe.checkHeader (by decide)
  have hbits := hframe.decodeBits_lsb (show SpacesTold _ samsungOneSpace by decide) samsungBitMark
  rw [BitWord.lsbBits_length, show samsungBits = 32 from rfl, BitWord.collectLsb_lsbBits_width]
    at hbits
  have hsamsung := decodeSamsung_frame
    (s := { irRemoteInitDecodedIRData p s with
      biphase := initBiphaselevel 1 rc5Unit (irRemoteInitDecodedIRData p s).biphase })
    hlen hheader hbits hg
  have hchain := tryDecoders_of_samsungMark hm hmark (by omega)
    (decodeKaseikyo_of_rawlen (by omega)) hsamsung
  exact ⟨_, g, midIrRemoteDecode_of_accept hframe.stopped hframe.overflowFlag hchain, rfl⟩

/-- The words that are sent again as they were received are those whose high byte is not
zero, and those that end with the complement of a zero. -/
theorem samsung_replay (h : IdealCapture p (samsungFrame w)) (s : DecodeState)
    (toggle : BitVec 8) :
    ∃ s', midIrRemoteDecode p s = some (true, s') ∧ s'.decodedIRData.protocol = .samsung ∧
      ((midIrSendCommon s'.decodedIRData 0 toggle).1 = samsungFrame w ↔
        ¬((LongUnion.ofULong w).highByte = 0#8 ∧ (LongUnion.ofULong w).midHighByte ≠ 0xFF#8)) := by
  obtain ⟨s', g, hs', hd⟩ := decode_samsungFrame h s
  refine ⟨s', hs', by rw [hd]; rfl, ?_⟩
  rw [hd, midIrSendCommon_samsungReceived, samsungFrame_inj,
    ← samsungResent_eq_iff _ s.decodedIRData,
    ← LongUnion.uLong_inj, LongUnion.uLong_ofULong]
  rfl

theorem exists_samsungCapture (w : BitVec 32) : ∃ p, IdealCapture p (samsungFrame w) := by
  have hlen : (lineRuns (samsungFrame w)).length < rawBufferLength := by
    rw [samsungFrame, length_lineRuns_lsbFirst ⟨rfl, by decide⟩ (by decide)]
    decide
  obtain ⟨p, hp, -⟩ := exists_idealCapture (show recordGapTicks < 101 by decide) hlen
  exact ⟨p, hp⟩

/-- A word with a 16 bit command is sent again. -/
theorem samsung_replay_word : ∃ p s', IdealCapture p (samsungFrame 0x12340707) ∧
    midIrRemoteDecode p .zero = some (true, s') ∧
    (midIrSendCommon s'.decodedIRData 0 initialSendToggleValue).1 = samsungFrame 0x12340707 := by
  obtain ⟨p, hp⟩ := exists_samsungCapture 0x12340707
  obtain ⟨s', hs', -, hsent⟩ := samsung_replay hp .zero initialSendToggleValue
  exact ⟨p, s', hp, hs', hsent.mpr (by decide)⟩

/-- The command 0x0042 is sent again with a complement. -/
theorem samsung_replay_small_command : ∃ p s', IdealCapture p (samsungFrame 0x00420707) ∧
    midIrRemoteDecode p .zero = some (true, s') ∧
    (midIrSendCommon s'.decodedIRData 0 initialSendToggleValue).1 ≠ samsungFrame 0x00420707 := by
  obtain ⟨p, hp⟩ := exists_samsungCapture 0x00420707
  obtain ⟨s', g, hs', hd⟩ := decode_samsungFrame hp .zero
  refine ⟨p, s', hp, hs', ?_⟩
  rw [hd, midIrSendCommon_samsungReceived, Ne, samsungFrame_inj]
  intro hsame
  rw [← LongUnion.uLong_ofULong 0x00420707, LongUnion.uLong_inj, LongUnion.ofULong_uLong,
    samsungResent_eq_iff] at hsame
  exact hsame (by decide)

end IrRemote
