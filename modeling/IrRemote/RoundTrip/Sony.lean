import IrRemote.Link.BitEntries
import IrRemote.Mid.IrRemoteDecode

/-!
# Sony frames

A frame has 12, 15 or 20 bits and no stop mark, so the space of its last bit is not
recorded and the number of bits is rounded from the length. A frame of 15 bits has the
length of Denon, whose decoder comes first; the last mark tells them apart.

## Main results

* `decode_sendSony` — the decoded frame
* `sony_roundTrip` — its fields are those that were sent
-/

set_option autoImplicit false

namespace IrRemote

variable {p : IrParams} {s : DecodeState} {a : BitVec 16} {c : BitVec 8} {n : ℕ}

/-! ## The word of a frame -/

/-- The command, and the address above it. -/
def sonyWord (a : BitVec 16) (c : BitVec 8) : BitVec 32 := (a ++ c.setWidth 7).setWidth 32

theorem sonyWord_eq : (a.setWidth 32 <<< 7) ||| (c &&& 0x7F).setWidth 32 = sonyWord a c := by
  have hcommand : (c &&& 0x7F).setWidth 32 = ((c.setWidth 7).setWidth 32 : BitVec 32) := by
    ext i hi
    have hmask := (by decide : ∀ i < 32, (0x7F#8).getLsbD i = decide (i < 7)) i hi
    simp only [BitVec.getElem_setWidth, BitVec.getLsbD_setWidth, BitVec.getLsbD_and,
      BitVec.ofNat_eq_ofNat, hmask]
    exact Bool.and_comm _ _
  rw [sonyWord, BitVec.setWidth_append_eq_shiftLeft_setWidth_or, hcommand]

theorem getLsbD_sonyWord (i : ℕ) : (sonyWord a c).getLsbD i =
    if i < 7 then c.getLsbD i else a.getLsbD (i - 7) := by
  simp only [sonyWord, BitVec.getLsbD_setWidth, BitVec.getLsbD_append]
  by_cases hcommand : i < 7
  · simp [hcommand, show i < 32 by omega]
  · by_cases hlt : i < 32
    · simp [hcommand, hlt]
    · simp [hcommand, hlt, BitVec.getLsbD_of_ge a (i - 7) (by omega)]

theorem sonyWord_command (hc : c < 0x80#8) :
    ((sonyWord a c &&& 0x7F#32).setWidth 16 : BitVec 16) = c.setWidth 16 := by
  ext i hi
  have hmask := (by decide : ∀ i < 16, (0x7F#32).getLsbD i = decide (i < 7)) i hi
  simp only [BitVec.getElem_setWidth, BitVec.getLsbD_and, hmask, getLsbD_sonyWord]
  by_cases hlt : i < 7
  · simp [hlt]
  · have htop : c.getLsbD i = false :=
      Nat.testBit_lt_two_pow (Nat.lt_of_lt_of_le hc
        (Nat.pow_le_pow_right Nat.two_pos (by omega : 7 ≤ i)))
    simp [hlt, htop]

theorem sonyWord_address : ((sonyWord a c >>> 7).setWidth 16 : BitVec 16) = a := by
  ext i hi
  simp [getLsbD_sonyWord, BitVec.getLsbD_eq_getElem hi]

/-- The word fits the bits that are sent. -/
theorem collectLsb_sonyWord (hn : 7 ≤ n) (ha : a.toNat < 2 ^ (n - 7)) :
    BitWord.collectLsb (BitWord.lsbBits n (sonyWord a c)) 1#32 0#32 = sonyWord a c := by
  apply BitWord.collectLsb_lsbBits
  intro i hi
  rw [getLsbD_sonyWord, if_neg (by omega)]
  exact Nat.testBit_lt_two_pow
    (Nat.lt_of_lt_of_le ha (Nat.pow_le_pow_right Nat.two_pos (by omega)))

/-! ## The frame in the chain -/

theorem IdealCapture.sony (h : IdealCapture p (sendSony a c 0 n)) :
    PairsCapture p ([(sonyHeaderMark, sonySpace)] ++
      (BitWord.lsbBits n (sonyWord a c)).map
        sonyProtocolConstants.distanceWidthTimingInfo.bitPair) := by
  have hdata : sendPulseDistanceWidthDataV3 sonyProtocolConstants (sonyWord a c) n =
      (BitWord.lsbBits n (sonyWord a c)).flatMap
        (sendBit sonyOneMark sonySpace sonyZeroMark sonySpace) ++ [] :=
    sendPulseDistanceWidthDataV1_lsb (by decide)
  refine h.pairsCapture ?_ (List.cons_ne_nil _ _)
  rw [sendSony, sendPulseDistanceWidthV1_zero, sonyWord_eq, sendFrame, hdata, List.append_nil]
  exact congrArg (_ :: _ :: ·)
    (filterMap_pulse?_pairs sonyProtocolConstants.distanceWidthTimingInfo _)

/-- The decoder of Denon refuses a frame of any length: of its own length only one with a
last mark that is too long reaches it. -/
theorem decodeDenon_of_last_mark {t : ℕ} (hlast : p.rawlen = 32 → p.raw 31 = some t)
    (ht : matchMark t denonHeaderMark = false) :
    ∃ data, decodeDenon p s = some (false, { s with decodedIRData.decodedRawData := data }) := by
  by_cases hlen : p.rawlen = 32
  · obtain ⟨g, hg⟩ := p.exists_raw (show 0 < rawBufferLength by decide)
    obtain ⟨data, hdecode⟩ := exists_decodeDenon (s := s) hlen (hlast hlen) hg
    rw [if_neg (by rw [ht]; exact Bool.false_ne_true)] at hdecode
    exact ⟨data, hdecode⟩
  · exact ⟨s.decodedIRData.decodedRawData, decodeDenon_of_rawlen hlen⟩

/-- The fields of a frame, with the flags its gap gives. -/
def sonySentFields (a : BitVec 16) (c : BitVec 8) (n : ℕ) (flags : BitVec 8) (d : IRData) :
    IRData :=
  { d with
    decodedRawData := sonyWord a c
    command := c.setWidth 16
    address := a
    numberOfBits := n
    protocol := .sony
    flags := flags }

/-- The chain decodes the frame as Sony. -/
theorem decode_sendSony (hn : n ∈ [12, 15, 20]) (hc : c < 0x80#8) (ha : a.toNat < 2 ^ (n - 7))
    (h : IdealCapture p (sendSony a c 0 n)) :
    ∃ s' flags, midIrRemoteDecode p s = some (true, s') ∧
      s'.decodedIRData =
        sonySentFields a c n flags (irRemoteInitDecodedIRData p s).decodedIRData := by
  have hframe := h.sony
  have hbits : 12 ≤ n ∧ n ≤ 20 ∧ (n = 12 ∨ n = 15 ∨ n = 20) := by
    simp only [List.mem_cons, List.not_mem_nil, or_false] at hn
    omega
  obtain ⟨hmin, hmax, hcases⟩ := hbits
  have hlen : p.rawlen = 2 * n + 2 := by
    rw [hframe.rawlen, List.length_append, List.length_map, BitWord.lsbBits_length,
      List.length_singleton]
    omega
  obtain ⟨g, hg, -⟩ := hframe.gap
  obtain ⟨m, hm, hmark⟩ := hframe.mark 0 (by simp)
  obtain ⟨u, hu, hspace⟩ := hframe.space 0 (by simp; omega)
  have hheader : checkHeader sonyProtocolConstants.distanceWidthTimingInfo p = some true := by
    rw [checkHeader_eq hmark hspace]
    exact congrArg some ((by decide : ∀ m ∈ roundings sonyHeaderMark, ∀ u ∈ roundings sonySpace,
      (matchMark m sonyHeaderMark && matchSpace u sonySpace) = true) m hm u hu)
  have hentries : BitsAt p 3 sonyProtocolConstants.distanceWidthTimingInfo.bitMark
      (BitWord.lsbBits n (sonyWord a c)) := hframe.bitsAt
  have htold : MarksTold sonyProtocolConstants.distanceWidthTimingInfo.bitMark
      sonyProtocolConstants.distanceWidthTimingInfo.oneMarkMicros := by decide
  have hdata := hentries.decodeMarks htold (by decide) sonyProtocolConstants.flags
  have hword : collected sonyProtocolConstants.flags (BitWord.lsbBits n (sonyWord a c)) =
      sonyWord a c := collectLsb_sonyWord (by omega) ha
  rw [BitWord.lsbBits_length, hword] at hdata
  -- the last mark is that of a bit
  obtain ⟨t, ht, hlast⟩ := hentries (n - 1) (by rw [BitWord.lsbBits_length]; omega)
  have hlong : matchMark t denonHeaderMark = false :=
    (by decide : ∀ b, ∀ t ∈ roundings (sonyProtocolConstants.distanceWidthTimingInfo.bitMark b),
      matchMark t denonHeaderMark = false) _ t ht
  have hindex : p.rawlen = 32 → p.raw 31 = some t := by
    intro h32
    have hi : 3 + 2 * (n - 1) = 31 := by omega
    rw [← hi]
    exact hlast
  -- 15 bits have the length of a Denon frame, whose last mark is that of a bit as well
  obtain ⟨stale, hdenon⟩ := decodeDenon_of_last_mark (s := irRemoteInitDecodedIRData p s) hindex
    hlong
  obtain ⟨flags, hsony⟩ := decodeSony_frame hn hlen hheader hdata hg
    (s := { irRemoteInitDecodedIRData p s with decodedIRData.decodedRawData := stale })
  rw [sonyWord_command hc, sonyWord_address] at hsony
  have hchain : tryDecoders specificDecoders p (irRemoteInitDecodedIRData p s) = _ :=
    (tryDecoders_cons_of_refuse (decodeNec_of_rawlen (by omega) (by omega))).trans <|
      (tryDecoders_cons_of_refuse (decodeKaseikyo_of_rawlen (by omega))).trans <|
        (tryDecoders_cons_of_refuse hdenon).trans <| tryDecoders_cons_of_accept hsony
  exact ⟨_, flags, midIrRemoteDecode_of_accept hframe.stopped hframe.overflowFlag hchain, rfl⟩

/-- Every frame is decoded to the fields it was sent with. -/
theorem sony_roundTrip (hn : n ∈ [12, 15, 20]) (hc : c < 0x80#8) (ha : a.toNat < 2 ^ (n - 7))
    (h : IdealCapture p (sendSony a c 0 n)) (s : DecodeState) :
    ∃ s', midIrRemoteDecode p s = some (true, s') ∧ s'.decodedIRData.protocol = .sony ∧
      s'.decodedIRData.address = a ∧ s'.decodedIRData.command = c.setWidth 16 ∧
      s'.decodedIRData.numberOfBits = n := by
  obtain ⟨s', flags, hs', hd⟩ := decode_sendSony (s := s) hn hc ha h
  exact ⟨s', hs', by rw [hd]; rfl, by rw [hd]; rfl, by rw [hd]; rfl, by rw [hd]; rfl⟩

/-- A frame of 15 bits, the length of Denon. -/
theorem sony_roundTrip_denon_length : ∃ p s', IdealCapture p (sendSony 0xA7 0x15 0 15) ∧
    midIrRemoteDecode p .zero = some (true, s') ∧ s'.decodedIRData.protocol = .sony ∧
    s'.decodedIRData.address = 0xA7 ∧ s'.decodedIRData.command = 0x15 := by
  have hlen : (lineRuns (sendSony 0xA7 0x15 0 15)).length < rawBufferLength := by decide
  obtain ⟨p, hp, -⟩ := exists_idealCapture (show recordGapTicks < 500 by decide) hlen
  obtain ⟨s', hs', hprotocol, haddress, hcommand, -⟩ :=
    sony_roundTrip (by decide) (by decide) (by decide) hp .zero
  exact ⟨p, s', hp, hs', hprotocol, haddress, hcommand⟩

end IrRemote
