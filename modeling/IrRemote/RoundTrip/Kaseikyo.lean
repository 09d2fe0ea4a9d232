import IrRemote.Link.BitEntries
import IrRemote.Mid.IrRemoteDecode
import IrRemote.Mid.IrSend

/-!
# Kaseikyo frames

The 48 bits are sent as a word and a half word, and decoded as a half word, the vendor code,
and a word. The parity of the vendor code and that of the frame are computed from the same
bytes on both sides.

## Main definitions

* `kaseikyoVendors` — the vendors the dispatcher knows, and their protocols
* `kaseikyoWord` — the 32 bits behind the vendor code

## Main results

* `decode_sendKaseikyo` — the decoded frame
* `kaseikyo_roundTrip` — its fields are those that were sent
-/

set_option autoImplicit false

namespace IrRemote

variable {p : IrParams} {s : DecodeState} {a v : BitVec 16} {c : BitVec 8} {repeats : ℕ}
  {toggle : BitVec 8} {protocol : DecodeType}

/-- The vendors of `Mid_IrSendCommon`. -/
def kaseikyoVendors : List (DecodeType × BitVec 16) :=
  [(.panasonic, panasonicVendorIdCode), (.kaseikyoDenon, denonVendorIdCode),
    (.kaseikyoSharp, sharpVendorIdCode), (.kaseikyoJvc, jvcVendorIdCode),
    (.kaseikyoMitsubishi, mitsubishiVendorIdCode)]

/-! ## The word behind the vendor code -/

/-- The address and the parity of the vendor code. -/
def kaseikyoLowWord (a v : BitVec 16) : BitVec 16 :=
  (a <<< kaseikyoVendorIdParityBits) ||| (vendorParity v).setWidth 16

/-- The 32 bits that are sent behind the vendor code. -/
def kaseikyoWord (a v : BitVec 16) (c : BitVec 8) : LongUnion where
  lowByte := (kaseikyoLowWord a v).extractLsb' 0 8
  midLowByte := (kaseikyoLowWord a v).extractLsb' 8 8
  midHighByte := c
  highByte := c ^^^ (kaseikyoLowWord a v).extractLsb' 0 8 ^^^ (kaseikyoLowWord a v).extractLsb' 8 8

theorem lowWord_kaseikyoWord : (kaseikyoWord a v c).lowWord = kaseikyoLowWord a v :=
  BitVec.extractLsb'_append_extractLsb'

theorem getLsbD_vendorParity (v : BitVec 16) {i : ℕ} (hi : 4 ≤ i) :
    (vendorParity v).getLsbD i = false := by
  rcases Nat.lt_or_ge i 8 with hlt | hge
  · have hmask := (by decide : ∀ i < 8, 4 ≤ i → (0xF#8).getLsbD i = false) i hlt hi
    rw [vendorParity, BitVec.getLsbD_and, BitVec.ofNat_eq_ofNat, hmask, Bool.and_false]
  · exact BitVec.getLsbD_of_ge _ _ hge

/-- The parity is the low nibble. -/
theorem kaseikyoLowWord_parity :
    (kaseikyoLowWord a v).extractLsb' 0 8 &&& 0xF#8 = vendorParity v := by
  ext i hi
  have hmask := (by decide : ∀ i (hi : i < 8), (0xF#8)[i] = decide (i < 4)) i hi
  rcases Nat.lt_or_ge i 4 with hlt | hge
  · simp [kaseikyoLowWord, kaseikyoVendorIdParityBits, hmask, hlt, hi, show i < 16 by omega]
  · have hparity := getLsbD_vendorParity v hge
    rw [BitVec.getLsbD_eq_getElem hi] at hparity
    rw [hparity, BitVec.getElem_and, hmask, decide_eq_false (Nat.not_lt.mpr hge), Bool.and_false]

/-- The address is above it. -/
theorem kaseikyoLowWord_address (ha : a < 0x1000#16) :
    kaseikyoLowWord a v >>> kaseikyoVendorIdParityBits = a := by
  ext i hi
  rcases Nat.lt_or_ge i 12 with hlt | hge
  · have hparity := getLsbD_vendorParity v (Nat.le_add_right 4 i)
    simp [kaseikyoLowWord, kaseikyoVendorIdParityBits, hparity, show 4 + i < 16 by omega]
  · have htop : a.getLsbD i = false := by
      rw [BitVec.getLsbD, Nat.testBit_lt_two_pow]
      exact Nat.lt_of_lt_of_le ha (Nat.pow_le_pow_right Nat.two_pos hge)
    rw [BitVec.getLsbD_eq_getElem hi] at htop
    rw [htop, BitVec.getElem_ushiftRight, BitVec.getLsbD_of_ge]
    exact Nat.add_le_add (Nat.le_refl 4) hge

/-- The bits are sent in two chunks, and cut at another place when they are decoded. -/
theorem kaseikyo_bits (u : LongUnion) :
    BitWord.lsbBits 32 (u.lowWord.setWidth 32 <<< 16 ||| v.setWidth 32) ++
        BitWord.lsbBits 16 (u.highWord.setWidth 32) =
      BitWord.lsbBits 16 v ++ BitWord.lsbBits 32 u.uLong := by
  have hfirst : BitWord.lsbBits 32 (u.lowWord ++ v) =
      BitWord.lsbBits 16 v ++ BitWord.lsbBits 16 u.lowWord :=
    BitWord.lsbBits_append (w := 16) (v := 16) (n := 16)
  have hlast : BitWord.lsbBits 16 (u.highWord.setWidth 32) = BitWord.lsbBits 16 u.highWord :=
    BitWord.lsbBits_setWidth (by decide)
  rw [← BitVec.setWidth_append_eq_shiftLeft_setWidth_or, BitVec.setWidth_eq, hfirst, hlast,
    LongUnion.lsbBits_uLong, List.append_assoc]

/-! ## The frame in the chain -/

theorem IdealCapture.kaseikyo (h : IdealCapture p (sendKaseikyo a c 0 v)) :
    PulseDistanceCapture p kaseikyoHeaderMark kaseikyoHeaderSpace kaseikyoBitMark
      kaseikyoProtocolConstants.distanceWidthTimingInfo.bitSpace
      (BitWord.lsbBits 16 v ++ BitWord.lsbBits 32 (kaseikyoWord a v c).uLong) := by
  have hframe := h.tail.twoWords ⟨rfl, by decide⟩ rfl (by decide) (show 16 ≤ 32 by decide)
  rw [← kaseikyo_bits, lowWord_kaseikyoWord]
  exact hframe

/-- The chain decodes the frame as that of its vendor. -/
theorem decode_sendKaseikyo (h : IdealCapture p (sendKaseikyo a c 0 v)) :
    ∃ s' g, midIrRemoteDecode p s = some (true, s') ∧
      s'.decodedIRData = (kaseikyoFields v (kaseikyoWord a v c).uLong
        (irRemoteInitDecodedIRData p s).decodedIRData).afterGap g
          (kaseikyoMaximumRepeatDistance / microsPerTick) := by
  have hframe := h.kaseikyo
  obtain ⟨g, hg, -⟩ := hframe.gap
  have hlen : p.rawlen = 100 := by
    rw [hframe.rawlen, List.length_append, BitWord.lsbBits_length, BitWord.lsbBits_length]
  have hheader : checkHeader kaseikyoProtocolConstants.distanceWidthTimingInfo p = some true :=
    hframe.checkHeader (by decide)
  -- the vendor code lies in front of the word
  obtain ⟨hvendor, hdata⟩ := BitsAt.append.mp hframe.bitsAt
  rw [BitWord.lsbBits_length] at hdata
  have htold : SpacesTold kaseikyoProtocolConstants.distanceWidthTimingInfo.bitSpace
    kaseikyoProtocolConstants.distanceWidthTimingInfo.oneSpaceMicros := by decide
  have hdecodeVendor := @BitsAt.decodeSpaces p 3 _ _ hvendor _ htold rfl
    kaseikyoProtocolConstants.flags
  have hdecodeData := @BitsAt.decodeSpaces p 35 _ _ hdata _ htold rfl
    kaseikyoProtocolConstants.flags
  have hvendorWord : collected kaseikyoProtocolConstants.flags (BitWord.lsbBits 16 v) =
      v.setWidth 32 := BitWord.collectLsb_lsbBits_setWidth (by decide)
  have hdataWord : collected kaseikyoProtocolConstants.flags
      (BitWord.lsbBits 32 (kaseikyoWord a v c).uLong) = (kaseikyoWord a v c).uLong :=
    BitWord.collectLsb_lsbBits_width
  rw [BitWord.lsbBits_length, hvendorWord] at hdecodeVendor
  rw [BitWord.lsbBits_length, hdataWord] at hdecodeData
  have hv : (v.setWidth 32).setWidth 16 = v := by simp
  have hchain : tryDecoders specificDecoders p (irRemoteInitDecodedIRData p s) = _ :=
    (tryDecoders_cons_of_refuse (decodeNec_of_rawlen (by omega) (by omega))).trans
      (tryDecoders_cons_of_accept
        (decodeKaseikyo_frame hlen hheader hdecodeVendor hdecodeData hg))
  rw [hv] at hchain
  exact ⟨_, g, midIrRemoteDecode_of_accept hframe.stopped hframe.overflowFlag hchain, rfl⟩

/-- Neither of the parities fails, and the vendor is known. -/
theorem kaseikyoFlags_kaseikyoWord (flags : BitVec 8) (hv : vendorProtocol v ≠ .kaseikyo) :
    kaseikyoFlags flags v (kaseikyoWord a v c) = flags := by
  have hframe : (kaseikyoWord a v c).highByte = (kaseikyoWord a v c).lowByte ^^^
      (kaseikyoWord a v c).midLowByte ^^^ (kaseikyoWord a v c).midHighByte := by
    simp only [kaseikyoWord]
    rw [BitVec.xor_assoc, BitVec.xor_comm]
  have hvendor : vendorParity v = (kaseikyoWord a v c).lowByte &&& 0xF :=
    kaseikyoLowWord_parity.symm
  simp only [kaseikyoFlags, ← hframe, ← hvendor, ne_eq, not_true, if_false, if_neg hv]

theorem vendorProtocol_of_mem (h : (protocol, v) ∈ kaseikyoVendors) :
    vendorProtocol v = protocol ∧ protocol ≠ .kaseikyo := by
  have hall : ∀ a ∈ kaseikyoVendors, vendorProtocol a.2 = a.1 ∧ a.1 ≠ .kaseikyo := by decide
  exact hall (protocol, v) h

/-- Every frame is decoded to the protocol of its vendor and to the fields it was sent with. -/
theorem kaseikyo_roundTrip (hv : (protocol, v) ∈ kaseikyoVendors) (ha : a < 0x1000#16)
    (h : IdealCapture p (sendKaseikyo a c 0 v)) (s : DecodeState) :
    ∃ s', midIrRemoteDecode p s = some (true, s') ∧
      s'.decodedIRData.protocol = protocol ∧
      s'.decodedIRData.address = a ∧
      s'.decodedIRData.command = c.setWidth 16 ∧
      s'.decodedIRData.numberOfBits = 48 ∧
      s'.decodedIRData.flags &&& irdataFlagsParityFailed = 0 ∧
      s'.decodedIRData.flags &&& irdataFlagsExtraInfo = 0 := by
  obtain ⟨s', g, hs', hd⟩ := decode_sendKaseikyo (s := s) h
  obtain ⟨hprotocol, hknown⟩ := vendorProtocol_of_mem hv
  have haddress : (kaseikyoWord a v c).lowWord >>> kaseikyoVendorIdParityBits = a := by
    rw [lowWord_kaseikyoWord, kaseikyoLowWord_address ha]
  have hflags : kaseikyoFlags (irRemoteInitDecodedIRData p s).decodedIRData.flags v
      (kaseikyoWord a v c) = irdataFlagsEmpty := by
    rw [kaseikyoFlags_kaseikyoWord _ (hprotocol ▸ hknown),
      irRemoteInitDecodedIRData_flags h.overflowFlag]
  -- the gap only sets the flag of a repeat
  have hmask : ∀ mask : BitVec 8, irdataFlagsIsRepeat &&& mask = 0 →
      s'.decodedIRData.flags &&& mask = 0 := by
    intro mask hmask
    rw [hd, IRData.afterGap_and hmask, kaseikyoFields, LongUnion.ofULong_uLong, hflags]
    exact BitVec.zero_and
  refine ⟨s', hs', ?_, ?_, ?_, ?_, hmask _ (by decide), hmask _ (by decide)⟩
  · rw [hd]
    exact hprotocol
  · rw [hd, IRData.afterGap, kaseikyoFields, LongUnion.ofULong_uLong]
    exact haddress
  · rw [hd, IRData.afterGap, kaseikyoFields, LongUnion.ofULong_uLong]
    rfl
  · rw [hd]
    rfl

/-- Every frame has a capture. -/
theorem exists_kaseikyoCapture (a : BitVec 16) (c : BitVec 8) (v : BitVec 16) :
    ∃ p, IdealCapture p (sendKaseikyo a c 0 v) := by
  have hlen : (lineRuns (sendKaseikyo a c 0 v)).length = 2 * (32 + 16) + 3 :=
    length_lineRuns_twoWords (c := kaseikyoProtocolConstants) (n := 16) ⟨rfl, by decide⟩ rfl
      (by decide) (by decide)
  obtain ⟨p, hp, -⟩ := exists_idealCapture (show recordGapTicks < 101 by decide)
    (hlen.trans_lt (by decide))
  exact ⟨p, hp⟩

/-- A Panasonic frame. -/
theorem kaseikyo_roundTrip_panasonic : ∃ p s', IdealCapture p
      (sendKaseikyo 0xABC 0x5D 0 panasonicVendorIdCode) ∧
    midIrRemoteDecode p .zero = some (true, s') ∧
    s'.decodedIRData.protocol = .panasonic ∧ s'.decodedIRData.address = 0xABC ∧
    s'.decodedIRData.command = 0x5D := by
  obtain ⟨p, hp⟩ := exists_kaseikyoCapture 0xABC 0x5D panasonicVendorIdCode
  obtain ⟨s', hs', hprotocol, haddress, hcommand, -⟩ :=
    kaseikyo_roundTrip (List.mem_cons_self ..) (by decide) hp .zero
  exact ⟨p, s', hp, hs', hprotocol, haddress, hcommand⟩

end IrRemote
