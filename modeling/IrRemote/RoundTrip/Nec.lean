import IrRemote.Link.IdealCapture
import IrRemote.Mid.IrRemoteDecode
import IrRemote.Mid.IrSend

/-!
# Frames of the NEC family

Every frame of 32 bits with the timing of NEC is decoded as NEC, Onkyo or Apple. The
decoder takes the lower word for an 8 bit address when its bytes are complements, and the
sender of NEC takes an address below 0x100 for one.

## Main definitions

* `necResent` — the word of the frame that is sent again
* `NecFrameCapture`, `necWord` — a full frame of the family in the buffer, and its word
* `necSentWord`, `appleSentWord` — the words `sendNEC` and `sendApple` make

## Main results

* `decode_sendNECRaw` — the decoded frame
* `necResent_eq_iff` — the words that are sent again as they were received
* `nec_replay` — the same for all frames but those of Onkyo with an 8 bit address
* `nec_sent_replay` — what `sendNEC` and `sendApple` send is sent again
-/

set_option autoImplicit false

namespace IrRemote

variable {p : IrParams} {s : DecodeState} {w w' : BitVec 32} {toggle : BitVec 8} {u : LongUnion}

theorem sendNECRaw_inj : sendNECRaw w 0 = sendNECRaw w' 0 ↔ w = w' :=
  (sendPulseDistanceWidthV1_lsb_inj (by decide) (by decide)).trans BitWord.lsbBits_width_inj

/-! ## The word that is sent again -/

/-- What the senders make of the fields the decoder has read off a word. -/
def necResent (u : LongUnion) : LongUnion :=
  if u.lowWord = appleAddress then u
  else if u.midHighByte = ~~~u.highByte then
    if u.lowByte = ~~~u.midLowByte ∨ u.midLowByte = 0#8 then { u with midLowByte := ~~~u.lowByte }
    else u
  else if u.lowByte = ~~~u.midLowByte then { u with midLowByte := 0#8 }
  else u

/-- The word of a byte command, with any address. -/
theorem computeNECRawDataAndChecksum_append (low midLow command : BitVec 8) :
    computeNECRawDataAndChecksum (midLow ++ low) (command.setWidth 16) =
      LongUnion.uLong
        ⟨low, if midLow = 0#8 then ~~~low else midLow, command, ~~~command⟩ := by
  have hlow : (midLow ++ low).setWidth 8 = low := BitVec.setWidth_append_eq_right
  have hcommand : (command.setWidth 16).setWidth 8 = command := by simp
  have hcomplement : (~~~command.setWidth 16).setWidth 8 = ~~~command := by
    rw [BitVec.setWidth_not (by decide), hcommand]
  have haddress : (midLow ++ low) &&& 0xFF00#16 = 0#16 ↔ midLow = 0#8 :=
    LongUnion.append_and_upper_eq_zero_iff midLow low
  simp only [computeNECRawDataAndChecksum, BitVec.ofNat_eq_ofNat, haddress, hlow, hcommand,
    hcomplement, LongUnion.extractLsb'_append_high]

/-! ### The senders on the fields of a word -/

theorem sendApple_fields (h : u.lowWord = appleAddress) :
    sendApple u.highByte u.midHighByte 0 = sendNECRaw u.uLong 0 := by
  rw [sendApple, ← h, LongUnion.lowWord, LongUnion.extractLsb'_append_low,
    LongUnion.extractLsb'_append_high]
  rfl

theorem sendOnkyo_fields :
    sendOnkyo u.lowWord u.highWord 0 = sendNECRaw u.uLong 0 := by
  rw [sendOnkyo, LongUnion.shiftLeft_or_words]
  rfl

theorem sendOnkyo_byte_fields :
    sendOnkyo (u.lowByte.setWidth 16) u.highWord 0 =
      sendNECRaw (LongUnion.uLong { u with midLowByte := 0#8 }) 0 := by
  rw [← LongUnion.append_zero]
  exact sendOnkyo_fields (u := { u with midLowByte := 0#8 })

theorem sendNEC_fields (h : u.midHighByte = ~~~u.highByte) :
    sendNEC u.lowWord u.midHighByte 0 = sendNECRaw (LongUnion.uLong
      { u with midLowByte := if u.midLowByte = 0#8 then ~~~u.lowByte else u.midLowByte }) 0 := by
  rw [sendNEC, LongUnion.lowWord, computeNECRawDataAndChecksum_append]
  simp only [h, BitVec.not_not]
  rfl

theorem sendNEC_byte_fields (h : u.midHighByte = ~~~u.highByte) :
    sendNEC (u.lowByte.setWidth 16) u.midHighByte 0 =
      sendNECRaw (LongUnion.uLong { u with midLowByte := ~~~u.lowByte }) 0 := by
  rw [← LongUnion.append_zero]
  exact sendNEC_fields (u := { u with midLowByte := 0#8 }) h

/-- The dispatcher sends what the decoder has read off a word. -/
theorem midIrSendCommon_necFields (d : IRData) :
    (midIrSendCommon (necFields u.uLong d) 0 toggle).1 = sendNECRaw (necResent u).uLong 0 := by
  have hbyte : ∀ x : BitVec 8, (x.setWidth 16).setWidth 8 = x := fun x => by simp
  rw [necFields, LongUnion.ofULong_uLong, decodeNecValue, necResent]
  by_cases happle : u.lowWord = appleAddress
  · simp only [if_pos happle, midIrSendCommon, hbyte]
    exact sendApple_fields happle
  by_cases hcommand : u.midHighByte = ~~~u.highByte
  · simp only [if_neg happle, if_pos hcommand, midIrSendCommon, hbyte]
    by_cases haddress : u.lowByte = ~~~u.midLowByte
    · rw [if_pos haddress, if_pos (.inl haddress)]
      exact sendNEC_byte_fields hcommand
    · rw [if_neg haddress, sendNEC_fields hcommand]
      by_cases hzero : u.midLowByte = 0#8
      · rw [if_pos hzero, if_pos (.inr hzero)]
      · rw [if_neg hzero, if_neg (not_or.mpr ⟨haddress, hzero⟩)]
  · simp only [if_neg happle, if_neg hcommand, midIrSendCommon]
    by_cases haddress : u.lowByte = ~~~u.midLowByte
    · rw [if_pos haddress, if_pos haddress]
      exact sendOnkyo_byte_fields
    · rw [if_neg haddress, if_neg haddress]
      exact sendOnkyo_fields

/-! ## The words that are sent again as they were received -/

/-- A NEC frame with an extended address, of no two complements, that is below 0x100. -/
def SmallExtendedAddress (u : LongUnion) : Prop :=
  u.midHighByte = ~~~u.highByte ∧ u.lowByte ≠ ~~~u.midLowByte ∧ u.midLowByte = 0#8

/-- An Onkyo frame with an 8 bit address and its complement. -/
def OnkyoByteAddress (u : LongUnion) : Prop :=
  u.lowWord ≠ appleAddress ∧ u.midHighByte ≠ ~~~u.highByte ∧ u.lowByte = ~~~u.midLowByte ∧
    u.midLowByte ≠ 0#8

instance (u : LongUnion) : Decidable (SmallExtendedAddress u) :=
  inferInstanceAs (Decidable (_ ∧ _))

instance (u : LongUnion) : Decidable (OnkyoByteAddress u) :=
  inferInstanceAs (Decidable (_ ∧ _))

theorem midLowByte_ne_zero_of_apple (h : u.lowWord = appleAddress) : u.midLowByte ≠ 0#8 := by
  intro hzero
  have hupper := congrArg (·.extractLsb' 8 8) h
  rw [LongUnion.lowWord, LongUnion.extractLsb'_append_high, hzero] at hupper
  revert hupper
  decide

/-- The sender of NEC adds a complement to a small extended address, and that of Onkyo
adds none to an 8 bit address. All other words are sent again as they were received. -/
theorem necResent_eq_iff :
    necResent u = u ↔ ¬SmallExtendedAddress u ∧ ¬OnkyoByteAddress u := by
  have hmidLow : ∀ x, ({ u with midLowByte := x } : LongUnion) = u ↔ x = u.midLowByte :=
    fun x => ⟨fun h => congrArg LongUnion.midLowByte h, fun h => by rw [h]⟩
  unfold necResent
  by_cases happle : u.lowWord = appleAddress
  · rw [if_pos happle]
    exact iff_of_true rfl
      ⟨fun h => midLowByte_ne_zero_of_apple happle h.2.2, fun h => h.1 happle⟩
  rw [if_neg happle]
  by_cases hcommand : u.midHighByte = ~~~u.highByte
  · -- NEC
    have honkyo : ¬OnkyoByteAddress u := fun h => h.2.1 hcommand
    rw [if_pos hcommand, and_iff_left honkyo]
    by_cases haddress : u.lowByte = ~~~u.midLowByte
    · have hcomplement : ~~~u.lowByte = u.midLowByte := by rw [haddress, BitVec.not_not]
      rw [if_pos (.inl haddress)]
      exact iff_of_true ((hmidLow _).mpr hcomplement) fun h => h.2.1 haddress
    · by_cases hzero : u.midLowByte = 0#8
      · rw [if_pos (.inr hzero), hmidLow]
        refine iff_of_false (fun h => haddress ?_) (not_not.mpr ⟨hcommand, haddress, hzero⟩)
        rw [← h, BitVec.not_not]
      · rw [if_neg (not_or.mpr ⟨haddress, hzero⟩)]
        exact iff_of_true rfl fun h => hzero h.2.2
  · -- Onkyo
    have hnec : ¬SmallExtendedAddress u := fun h => hcommand h.1
    rw [if_neg hcommand, and_iff_right hnec]
    by_cases haddress : u.lowByte = ~~~u.midLowByte
    · rw [if_pos haddress, hmidLow]
      exact ⟨fun h honkyo => honkyo.2.2.2 h.symm,
        fun h => (by_contra fun hzero => h ⟨happle, hcommand, haddress, Ne.symm hzero⟩)⟩
    · rw [if_neg haddress]
      exact iff_of_true rfl fun h => haddress h.2.2.1

/-! ## The frame in the chain -/

theorem IdealCapture.nec (h : IdealCapture p (sendNECRaw w 0)) :
    PulseDistanceCapture p necHeaderMark necHeaderSpace necBitMark
      necProtocolConstants.distanceWidthTimingInfo.bitSpace (BitWord.lsbBits necBits w) :=
  h.lsbFirst ⟨rfl, by decide⟩ (by decide)

/-- The receiver has stopped with a full frame of the NEC family in its buffer. -/
structure NecFrameCapture (p : IrParams) : Prop where
  stopped : p.stateForISR = .stop
  overflowFlag : p.overflowFlag = false
  rawlen : p.rawlen = 68
  gap : ∃ g, p.raw 0 = some g ∧ recordGapTicks < g
  headerMark : ∃ t, p.raw 1 = some t ∧ matchMark t necHeaderMark = true
  headerSpace : ∃ u, p.raw 2 = some u ∧ matchSpace u necHeaderSpace = true

/-- The word of a frame of 32 bits with the timing of NEC. -/
def necWord (p : IrParams) : Option (BitVec 32) :=
  decodeBits (bitValue p necBitMark necBitMark necOneSpace) false necBits 3 0#32 1#32

theorem exists_necWord (p : IrParams) : ∃ w, necWord p = some w :=
  exists_decodeBits_bitValue p (show 3 + 2 * necBits ≤ rawBufferLength by decide) necBitMark
    necBitMark necOneSpace false

/-- The chain decodes it, behind any gap. -/
theorem NecFrameCapture.decode {g : ℕ} (h : NecFrameCapture p) (hg : p.raw 0 = some g)
    (hw : necWord p = some w) (s : DecodeState) :
    ∃ t, midIrRemoteDecode p s = some (true, t) ∧
      t.decodedIRData = necFieldsAfterGap w g (irRemoteInitDecodedIRData p s).decodedIRData := by
  obtain ⟨m, hm, hmark⟩ := h.headerMark
  obtain ⟨u, hu, hspace⟩ := h.headerSpace
  have hnec := decodeNec_frame_afterGap (s := irRemoteInitDecodedIRData p s) h.rawlen hm hmark hu
    hspace hw hg
  have hchain : tryDecoders specificDecoders p _ = _ := tryDecoders_cons_of_accept hnec
  exact ⟨_, midIrRemoteDecode_of_accept h.stopped h.overflowFlag hchain, rfl⟩

theorem IdealCapture.necFrameCapture (h : IdealCapture p (sendNECRaw w 0)) :
    NecFrameCapture p := by
  obtain ⟨m, hm, hmark⟩ := h.nec.headerMark
  obtain ⟨u, hu, hspace⟩ := h.nec.headerSpace
  refine ⟨h.stopped, h.overflowFlag, ?_, h.gap, ⟨m, hmark, ?_⟩, u, hspace, ?_⟩
  · rw [h.nec.rawlen, BitWord.lsbBits_length]
    rfl
  · exact (by decide : ∀ m ∈ roundings necHeaderMark, matchMark m necHeaderMark = true) m hm
  · exact (by decide : ∀ u ∈ roundings necHeaderSpace, matchSpace u necHeaderSpace = true) u hu

theorem IdealCapture.necWord_eq (h : IdealCapture p (sendNECRaw w 0)) : necWord p = some w := by
  have hbits := h.nec.decodeBits_lsb (show SpacesTold _ necOneSpace by decide) necBitMark
  rw [BitWord.lsbBits_length, show necBits = 32 from rfl, BitWord.collectLsb_lsbBits_width]
    at hbits
  exact hbits

/-- The chain decodes the frame as one of the family, with the fields of its word. -/
theorem decode_sendNECRaw (h : IdealCapture p (sendNECRaw w 0)) {g : ℕ} (hg : p.raw 0 = some g)
    (hgap : necMaximumRepeatDistance / microsPerTick ≤ g) :
    ∃ s', midIrRemoteDecode p s = some (true, s') ∧
      s'.decodedIRData = necFields w (irRemoteInitDecodedIRData p s).decodedIRData := by
  obtain ⟨s', hs', hd⟩ := h.necFrameCapture.decode hg h.necWord_eq s
  exact ⟨s', hs', hd.trans (necFieldsAfterGap_of_le hgap
    (irRemoteInitDecodedIRData_not_repeat h.overflowFlag))⟩

theorem necFields_protocol (d : IRData) :
    (necFields w d).protocol ∈ [DecodeType.nec, .onkyo, .apple] := by
  rw [necFields, decodeNecValue]
  split_ifs <;> simp

/-- The frame is decoded as one of the family. Unless it is an Onkyo frame with an 8 bit
address, it is sent again as it was received exactly when it has no small extended
address. -/
theorem nec_replay (h : IdealCapture p (sendNECRaw w 0)) {g : ℕ} (hg : p.raw 0 = some g)
    (hgap : necMaximumRepeatDistance / microsPerTick ≤ g) (s : DecodeState) (toggle : BitVec 8) :
    ∃ s', midIrRemoteDecode p s = some (true, s') ∧
      s'.decodedIRData.protocol ∈ [DecodeType.nec, .onkyo, .apple] ∧
      (¬OnkyoByteAddress (LongUnion.ofULong w) →
        ((midIrSendCommon s'.decodedIRData 0 toggle).1 = sendNECRaw w 0 ↔
          ¬SmallExtendedAddress (LongUnion.ofULong w))) := by
  obtain ⟨s', hs', hd⟩ := decode_sendNECRaw (s := s) h hg hgap
  refine ⟨s', hs', ?_⟩
  rw [hd]
  refine ⟨necFields_protocol _, fun honkyo => ?_⟩
  have hresent := necResent_eq_iff (u := LongUnion.ofULong w)
  rw [← LongUnion.uLong_ofULong w, midIrSendCommon_necFields, sendNECRaw_inj, LongUnion.uLong_inj]
  rw [LongUnion.ofULong_uLong, hresent]
  exact and_iff_left honkyo

theorem exists_necCapture (w : BitVec 32) :
    ∃ p, IdealCapture p (sendNECRaw w 0) ∧ p.raw 0 = some 2000 := by
  have hlen : (lineRuns (sendNECRaw w 0)).length < rawBufferLength := by
    rw [sendNECRaw, length_lineRuns_lsbFirst ⟨rfl, by decide⟩ (by decide)]
    decide
  obtain ⟨p, hp, hg, -⟩ := exists_idealCapture (show recordGapTicks < 2000 by decide) hlen
  exact ⟨p, hp, hg⟩

/-! ## The frames of the senders -/

/-- The word of the frame that is sent for an address and a command. -/
def necSentWord (a : BitVec 16) (c : BitVec 8) : LongUnion where
  lowByte := a.extractLsb' 0 8
  midLowByte := if a.extractLsb' 8 8 = 0#8 then ~~~a.extractLsb' 0 8 else a.extractLsb' 8 8
  midHighByte := c
  highByte := ~~~c

theorem sendNEC_eq (a : BitVec 16) (c : BitVec 8) :
    sendNEC a c 0 = sendNECRaw (necSentWord a c).uLong 0 := by
  have ha : a.extractLsb' 8 8 ++ a.extractLsb' 0 8 = a := BitVec.extractLsb'_append_extractLsb'
  have hword := computeNECRawDataAndChecksum_append (a.extractLsb' 0 8) (a.extractLsb' 8 8) c
  rw [ha] at hword
  rw [sendNEC, hword]
  rfl

/-- The word of the frame that is sent for a device and a command. -/
def appleSentWord (device c : BitVec 8) : LongUnion where
  lowByte := appleAddress.extractLsb' 0 8
  midLowByte := appleAddress.extractLsb' 8 8
  midHighByte := c
  highByte := device

theorem sendApple_eq (device c : BitVec 8) :
    sendApple device c 0 = sendNECRaw (appleSentWord device c).uLong 0 := rfl

/-- The decoder takes a byte command off a word with the address of Apple, and off one with
the complement of its command. -/
theorem decodeNecValue_byte_command (h : u.lowWord = appleAddress ∨ u.midHighByte = ~~~u.highByte) :
    (decodeNecValue u).1 ∈ [DecodeType.nec, .apple] ∧
      (decodeNecValue u).2.2 = u.midHighByte.setWidth 16 := by
  rw [decodeNecValue]
  by_cases happle : u.lowWord = appleAddress
  · rw [if_pos happle]
    exact ⟨List.mem_cons_of_mem _ (List.mem_cons_self ..), rfl⟩
  · have hcommand := h.resolve_left happle
    rw [if_neg happle, if_pos hcommand]
    exact ⟨List.mem_cons_self .., rfl⟩

theorem necSentWord_byte (a c : BitVec 8) :
    necSentWord (0#8 ++ a) c = ⟨a, ~~~a, c, ~~~c⟩ := by
  rw [necSentWord, LongUnion.extractLsb'_append_low, LongUnion.extractLsb'_append_high, if_pos rfl]

/-- The address of Apple is not made of two complements. -/
theorem complements_ne_appleAddress (a : BitVec 8) : ~~~a ++ a ≠ appleAddress := by
  revert a
  decide

/-- The word is one that is sent again as it was received. -/
theorem necResent_necSentWord (a : BitVec 16) (c : BitVec 8) :
    necResent (necSentWord a c) = necSentWord a c := by
  have hcommand : c = ~~~(~~~c) := (BitVec.not_not).symm
  rw [necResent_eq_iff]
  refine ⟨?_, fun h => h.2.1 hcommand⟩
  rintro ⟨-, haddress, hzero⟩
  simp only [necSentWord] at haddress hzero
  split_ifs at haddress hzero with hhigh
  · exact haddress (BitVec.not_not).symm
  · exact hhigh hzero

theorem necResent_appleSentWord (device c : BitVec 8) :
    necResent (appleSentWord device c) = appleSentWord device c :=
  if_pos BitVec.extractLsb'_append_extractLsb'

/-- An 8 bit address is decoded. -/
theorem decodeNecValue_necSentWord {a : BitVec 16} (ha : a < 0x100#16) (c : BitVec 8) :
    (decodeNecValue (necSentWord a c)).2.1 = a := by
  have hsplit : a.extractLsb' 8 8 ++ a.extractLsb' 0 8 = a :=
    BitVec.extractLsb'_append_extractLsb'
  have hzero : a.extractLsb' 8 8 = 0#8 := by
    rw [← LongUnion.append_lt_iff _ (a.extractLsb' 0 8), hsplit]
    exact ha
  have hbyte : 0#8 ++ a.extractLsb' 0 8 = a := by rw [← hzero, hsplit]
  have hword : necSentWord a c = ⟨a.extractLsb' 0 8, ~~~a.extractLsb' 0 8, c, ~~~c⟩ := by
    rw [← necSentWord_byte, hbyte]
  have happle : (necSentWord a c).lowWord ≠ appleAddress := by
    rw [hword]
    exact complements_ne_appleAddress _
  have hcommand : c = ~~~(~~~c) := (BitVec.not_not).symm
  have haddress : a.extractLsb' 0 8 = ~~~(~~~a.extractLsb' 0 8) := (BitVec.not_not).symm
  rw [decodeNecValue, if_neg happle, hword]
  dsimp only
  rw [if_pos haddress, if_pos hcommand]
  dsimp only
  rw [← LongUnion.append_zero, hbyte]

/-- Every frame of the sender of NEC or of Apple is decoded to its command, and sent again as
it was. An 8 bit address is decoded too. -/
theorem nec_sent_replay {a : BitVec 16} {device c : BitVec 8} {tx : List TxEvent}
    (htx : tx = sendNEC a c 0 ∨ tx = sendApple device c 0) (h : IdealCapture p tx) {g : ℕ}
    (hg : p.raw 0 = some g) (hgap : necMaximumRepeatDistance / microsPerTick ≤ g)
    (s : DecodeState) (toggle : BitVec 8) :
    ∃ s', midIrRemoteDecode p s = some (true, s') ∧
      s'.decodedIRData.protocol ∈ [DecodeType.nec, .apple] ∧
      s'.decodedIRData.command = c.setWidth 16 ∧
      (midIrSendCommon s'.decodedIRData 0 toggle).1 = tx ∧
      (tx = sendNEC a c 0 → a < 0x100 → s'.decodedIRData.address = a) := by
  -- both senders send a word whose command has its complement, or an address of Apple
  obtain ⟨u, hu, hvalue, hresent, hcommand⟩ : ∃ u : LongUnion, tx = sendNECRaw u.uLong 0 ∧
      (u.lowWord = appleAddress ∨ u.midHighByte = ~~~u.highByte) ∧ necResent u = u ∧
      u.midHighByte = c := by
    rcases htx with rfl | rfl
    · exact ⟨necSentWord a c, sendNEC_eq a c, .inr (BitVec.not_not).symm,
        necResent_necSentWord a c, rfl⟩
    · exact ⟨appleSentWord device c, sendApple_eq device c,
        .inl BitVec.extractLsb'_append_extractLsb', necResent_appleSentWord device c, rfl⟩
  rw [hu] at h
  obtain ⟨s', hs', hd⟩ := decode_sendNECRaw (s := s) h hg hgap
  obtain ⟨hprotocol, hdecoded⟩ := decodeNecValue_byte_command hvalue
  rw [hcommand] at hdecoded
  refine ⟨s', hs', ?_, ?_, ?_, ?_⟩
  · rw [hd, necFields, LongUnion.ofULong_uLong]
    exact hprotocol
  · rw [hd, necFields, LongUnion.ofULong_uLong]
    exact hdecoded
  · rw [hd, midIrSendCommon_necFields, hresent, hu]
  · intro hnec ha
    rw [hu, sendNEC_eq, sendNECRaw_inj, LongUnion.uLong_inj] at hnec
    rw [hd, necFields, LongUnion.ofULong_uLong, hnec]
    exact decodeNecValue_necSentWord ha c

/-- The address of Apple, sent by the sender of NEC. -/
theorem nec_sent_replay_apple_address : ∃ p s', IdealCapture p (sendNEC 0x87EE 0x05 0) ∧
    midIrRemoteDecode p .zero = some (true, s') ∧ s'.decodedIRData.command = 0x05 ∧
    (midIrSendCommon s'.decodedIRData 0 initialSendToggleValue).1 = sendNEC 0x87EE 0x05 0 := by
  obtain ⟨p, hp, hg⟩ := exists_necCapture (necSentWord 0x87EE 0x05).uLong
  rw [← sendNEC_eq] at hp
  obtain ⟨s', hs', -, hcommand, hsent, -⟩ := @nec_sent_replay p _ 0 _ _ (.inl rfl) hp _ hg
    (by decide) .zero initialSendToggleValue
  exact ⟨p, s', hp, hs', hcommand, hsent⟩

/-- A NEC frame with an 8 bit address is sent again. -/
theorem nec_replay_byte_address : ∃ p s', IdealCapture p (sendNECRaw 0xFD02F807 0) ∧
    midIrRemoteDecode p .zero = some (true, s') ∧
    (midIrSendCommon s'.decodedIRData 0 initialSendToggleValue).1 = sendNECRaw 0xFD02F807 0 := by
  obtain ⟨p, hp, hg⟩ := exists_necCapture 0xFD02F807
  obtain ⟨s', hs', -, hsent⟩ := nec_replay hp hg (by decide) .zero initialSendToggleValue
  exact ⟨p, s', hp, hs', (hsent (by decide)).mpr (by decide)⟩

/-- The extended address 0x0007 is sent again as an 8 bit address with its complement. -/
theorem nec_replay_small_address : ∃ p s', IdealCapture p (sendNECRaw 0xFD020007 0) ∧
    p.raw 0 = some 2000 ∧ midIrRemoteDecode p .zero = some (true, s') ∧
    (midIrSendCommon s'.decodedIRData 0 initialSendToggleValue).1 ≠ sendNECRaw 0xFD020007 0 := by
  obtain ⟨p, hp, hg⟩ := exists_necCapture 0xFD020007
  obtain ⟨s', hs', hd⟩ := decode_sendNECRaw (s := .zero) hp hg (by decide)
  refine ⟨p, s', hp, hg, hs', ?_⟩
  rw [hd, ← LongUnion.uLong_ofULong 0xFD020007, midIrSendCommon_necFields, Ne, sendNECRaw_inj]
  decide

end IrRemote
