import IrRemote.Link.BitEntries
import IrRemote.Link.Frames
import IrRemote.Mid.IrRemoteDecode

/-!
# Denon and Sharp frames

A command is sent as a pair of frames, the second with the command and the frame bits
inverted. The second is decoded with the help of the command the first has left.

## Main definitions

* `denonWord`, `denonFrame` — the word of a frame, and the frame

## Main results

* `exists_frames_sendDenon` — the frames of a command
* `decode_denonFrame` — one frame in the chain
* `denon_pair_roundTrip` — both frames are decoded to the command, in succession
-/

set_option autoImplicit false

namespace IrRemote

variable {p q : IrParams} {s : DecodeState} {a c : BitVec 8} {repeats g : ℕ} {sharp : Bool}
  {frameBits : BitVec 2}

/-! ## The word of a frame -/

/-- Five address bits, the command and the frame bits. -/
def denonWord (a c : BitVec 8) (frameBits : BitVec 2) : BitVec 32 :=
  (frameBits ++ c ++ a.setWidth 5).setWidth 32

theorem getLsbD_denonWord (i : ℕ) : (denonWord a c frameBits).getLsbD i =
    if i < 5 then a.getLsbD i else if i < 13 then c.getLsbD (i - 5)
      else frameBits.getLsbD (i - 13) := by
  simp only [denonWord, BitVec.getLsbD_setWidth, BitVec.getLsbD_append]
  by_cases haddress : i < 5
  · simp [haddress, show i < 32 by omega]
  by_cases hcommand : i < 13
  · simp [haddress, hcommand, show i < 32 by omega, show i - 5 < 8 by omega]
  · have hindex : i - 5 - 8 = i - 13 := by omega
    by_cases hlt : i < 32
    · simp [haddress, hcommand, hlt, hindex, show ¬i - 5 < 8 by omega]
    · simp [haddress, hcommand, hlt, BitVec.getLsbD_of_ge frameBits (i - 13) (by omega)]

/-- The command is above the address. -/
theorem denonWord_command :
    ((denonWord a c frameBits >>> denonAddressBits).setWidth 16 : BitVec 16) =
      (frameBits ++ c).setWidth 16 := by
  ext i hi
  have hword := @getLsbD_denonWord a c frameBits (5 + i)
  rw [if_neg (by omega)] at hword
  simp only [denonAddressBits, BitVec.getElem_setWidth, BitVec.getLsbD_ushiftRight, hword,
    BitVec.getLsbD_append]
  by_cases hcommand : i < 8
  · simp [hcommand, show 5 + i < 13 by omega]
  · simp [hcommand, show ¬5 + i < 13 by omega, show 5 + i - 13 = i - 8 by omega]

theorem denonWord_address (ha : a < 32#8) :
    ((denonWord a c frameBits &&& 0x1F#32).setWidth 16 : BitVec 16) = a.setWidth 16 := by
  ext i hi
  have hmask := (by decide : ∀ i < 16, (0x1F#32).getLsbD i = decide (i < 5)) i hi
  have hword := @getLsbD_denonWord a c frameBits i
  simp only [BitVec.getElem_setWidth, BitVec.getLsbD_and, hmask, hword]
  by_cases hlt : i < 5
  · simp [hlt]
  · have htop : a.getLsbD i = false := by
      rw [BitVec.getLsbD, Nat.testBit_lt_two_pow]
      exact Nat.lt_of_lt_of_le ha (Nat.pow_le_pow_right Nat.two_pos (by omega : 5 ≤ i))
    simp [hlt, htop]

theorem and_append_frameBits :
    ((frameBits ++ c).setWidth 16 : BitVec 16) &&& 0xFF#16 = c.setWidth 16 := by
  ext i hi
  have hmask := (by decide : ∀ i (hi : i < 16), (0xFF#16)[i] = decide (i < 8)) i hi
  simp only [BitVec.getElem_and, BitVec.getElem_setWidth, BitVec.getLsbD_append, hmask]
  by_cases hlt : i < 8
  · simp [hlt]
  · simp [hlt, BitVec.getLsbD_of_ge c i (by omega)]

theorem ushiftRight_append_frameBits :
    (((frameBits ++ c).setWidth 16 : BitVec 16) >>> 8) &&& 0x03#16 = frameBits.setWidth 16 := by
  ext i hi
  have hmask := (by decide : ∀ i (hi : i < 16), (0x03#16)[i] = decide (i < 2)) i hi
  simp only [BitVec.getElem_and, BitVec.getElem_ushiftRight, BitVec.getLsbD_setWidth,
    BitVec.getElem_setWidth, BitVec.getLsbD_append, hmask]
  by_cases hlt : i < 2
  · simp [hlt, show 8 + i < 16 by omega]
  · simp [hlt, BitVec.getLsbD_of_ge frameBits i (by omega)]

/-- The frame bits of the first frame. -/
def firstFrameBits (sharp : Bool) : BitVec 2 := if sharp then 2 else 0

theorem setWidth_of_lt_32 (ha : a < 32#8) :
    ((a.setWidth 5).setWidth 16 : BitVec 16) = a.setWidth 16 := by
  have hlt : a.toNat < 32 := ha
  rw [← BitVec.toNat_inj]
  simp only [BitVec.toNat_setWidth]
  omega

/-- The data of the first frame. -/
theorem denonData_eq (ha : a < 32#8) :
    a.setWidth 16 ||| ((if sharp then c.setWidth 16 ||| 0x0200#16 else c.setWidth 16) <<<
      denonAddressBits) = ((firstFrameBits sharp ++ c) ++ a.setWidth 5).setWidth 16 := by
  rw [BitVec.setWidth_append_append_eq_shiftLeft_setWidth_or, setWidth_of_lt_32 ha, BitVec.or_comm]
  congr 1
  cases sharp
  · exact (BitVec.zero_or).symm
  · rw [if_pos rfl, denonAddressBits, BitVec.shiftLeft_or_distrib, BitVec.or_comm]
    rfl

/-- The second frame has another command and other frame bits. -/
theorem denonData_inverted (w : BitVec 5) :
    ((frameBits ++ c) ++ w).setWidth 16 ^^^ 0x7FE0#16 =
      ((~~~frameBits ++ ~~~c) ++ w).setWidth 16 := by
  have hmask : 0x7FE0#16 = ((BitVec.allOnes 2 ++ BitVec.allOnes 8) ++ 0#5).setWidth 16 := by decide
  rw [hmask, ← BitVec.setWidth_xor, BitVec.xor_append, BitVec.xor_append, BitVec.xor_allOnes,
    BitVec.xor_allOnes, BitVec.xor_zero]

/-! ## The frames of a command -/

/-- A frame of 15 bits without a header. -/
def denonFrame (a c : BitVec 8) (frameBits : BitVec 2) : List TxEvent :=
  sendPulseDistanceWidthDataV3 denonProtocolConstants (denonWord a c frameBits) denonBits

theorem denonWord_setWidth :
    ((frameBits ++ c ++ a.setWidth 5).setWidth 16).setWidth 32 = denonWord a c frameBits :=
  BitVec.setWidth_setWidth (by decide)

theorem noWait_denonFrame : NoWait (denonFrame a c frameBits) :=
  noWait_sendPulseDistanceWidthDataV3 _ _

/-- The first two frames of a command that is sent at least once. -/
theorem exists_frames_sendDenon (ha : a < 32#8) (h : (repeats + 1) % 256 ≠ 0) :
    ∃ rest, frames (sendDenon a c repeats sharp) =
      (.enableIROut denonKhz :: denonFrame a c (firstFrameBits sharp)) ::
        denonFrame a (~~~c) (~~~firstFrameBits sharp) :: rest := by
  obtain ⟨n, hn⟩ := Nat.exists_eq_succ_of_ne_zero h
  have hsend : sendDenon a c repeats sharp = .enableIROut denonKhz ::
      sendCommands (denonFrame a c (firstFrameBits sharp) ++ [.delayMs 45] ++
        denonFrame a (~~~c) (~~~firstFrameBits sharp)) [.delayMs 45] (n + 1) := by
    rw [sendDenon, hn]
    simp only [BitVec.ofNat_eq_ofNat, denonData_eq ha, denonData_inverted, denonWord_setWidth]
    rfl
  -- the first wait ends the first frame
  have hsplit : sendDenon a c repeats sharp =
      (.enableIROut denonKhz :: denonFrame a c (firstFrameBits sharp)) ++ .delayMs 45 ::
        (denonFrame a (~~~c) (~~~firstFrameBits sharp) ++ (if 0 < n then [.delayMs 45] else []) ++
          sendCommands (denonFrame a c (firstFrameBits sharp) ++ [.delayMs 45] ++
            denonFrame a (~~~c) (~~~firstFrameBits sharp)) [.delayMs 45] n) := by
    rw [hsend, sendCommands]
    simp only [List.append_assoc, List.cons_append, List.nil_append]
  rw [hsplit, frames_append_wait (noWait_denonFrame.cons rfl) rfl]
  cases n with
  | zero =>
    refine ⟨[], ?_⟩
    rw [if_neg (Nat.lt_irrefl 0), List.append_nil, sendCommands, List.append_nil,
      frames_of_noWait noWait_denonFrame]
  | succ n =>
    rw [if_pos (Nat.succ_pos n), List.append_assoc, List.singleton_append,
      frames_append_wait noWait_denonFrame rfl]
    exact ⟨_, rfl⟩

/-! ## One frame in the chain -/

theorem filterMap_pulse?_denonFrame : (denonFrame a c frameBits).filterMap TxEvent.pulse? =
    dataRuns denonBitMark denonProtocolConstants.distanceWidthTimingInfo.bitSpace
      (BitWord.lsbBits denonBits (denonWord a c frameBits)) := by
  have hdata : denonFrame a c frameBits =
      (BitWord.lsbBits denonBits (denonWord a c frameBits)).flatMap
        (sendBit denonBitMark denonOneSpace denonBitMark denonZeroSpace) ++
        [.mark denonBitMark] :=
    sendPulseDistanceWidthDataV1_lsb (by decide)
  rw [hdata, filterMap_pulse?_data]
  rfl

theorem rawlen_denonFrame (h : IdealCapture p (denonFrame a c frameBits)) : p.rawlen = 32 := by
  rw [(h.headerless filterMap_pulse?_denonFrame).rawlen, BitWord.lsbBits_length]
  rfl

/-- The decoder accepts a frame. -/
theorem decodeDenon_denonFrame (h : IdealCapture p (denonFrame a c frameBits))
    (hg : p.raw 0 = some g) : decodeDenon p s = some (true, denonFields g { s with
      decodedIRData.decodedRawData := denonWord a c frameBits }) := by
  have hframe := h.headerless filterMap_pulse?_denonFrame
  -- the stop mark is tested as a header mark, whose window holds the bit mark too
  obtain ⟨t, ht, hraw⟩ := hframe.mark 15 (by rw [BitWord.lsbBits_length]; decide)
  have hstop : matchMark t denonHeaderMark = true :=
    (by decide : ∀ t ∈ roundings denonBitMark, matchMark t denonHeaderMark = true) t ht
  have hdata := @BitsAt.decodeSpaces p 1 _ _ hframe.bitsAt
    denonProtocolConstants.distanceWidthTimingInfo (by decide) rfl denonProtocolConstants.flags
  -- the word has no bits above the fifteen that are sent
  have hword : collected denonProtocolConstants.flags
      (BitWord.lsbBits denonBits (denonWord a c frameBits)) = denonWord a c frameBits := by
    apply BitWord.collectLsb_lsbBits
    intro i hi
    have hi' : 15 ≤ i := hi
    rw [getLsbD_denonWord, if_neg (by omega), if_neg (by omega)]
    exact BitVec.getLsbD_of_ge frameBits _ (by omega)
  rw [BitWord.lsbBits_length, hword] at hdata
  exact decodeDenon_frame (rawlen_denonFrame h) hdata hraw hstop hg

/-- The chain decodes a frame as Denon or Sharp. -/
theorem decode_denonFrame (h : IdealCapture p (denonFrame a c frameBits)) (hg : p.raw 0 = some g) :
    midIrRemoteDecode p s = some (true, denonFields g { irRemoteInitDecodedIRData p s with
      decodedIRData.decodedRawData := denonWord a c frameBits }) := by
  have hlen := rawlen_denonFrame h
  have hchain : tryDecoders specificDecoders p (irRemoteInitDecodedIRData p s) = _ :=
    (tryDecoders_cons_of_refuse (decodeNec_of_rawlen (by omega) (by omega))).trans <|
      (tryDecoders_cons_of_refuse (decodeKaseikyo_of_rawlen (by omega))).trans <|
        tryDecoders_cons_of_accept (decodeDenon_denonFrame h hg)
  exact midIrRemoteDecode_of_accept h.stopped h.overflowFlag hchain

/-! ## A pair of frames -/

/-- The frame that starts a command, after a long gap. -/
theorem denonFields_first (ha : a < 32#8) (hg : 1125 ≤ g) :
    denonFields g { s with
      decodedIRData.decodedRawData := denonWord a c (firstFrameBits sharp) } = { s with
      repeatCount := 0
      decodedIRData.decodedRawData := denonWord a c (firstFrameBits sharp)
      decodedIRData.address := a.setWidth 16
      decodedIRData.command := c.setWidth 16
      decodedIRData.numberOfBits := denonBits
      decodedIRData.protocol := if sharp then .sharp else .denon } := by
  have hgap : ¬g < (denonAutoRepeatDistance + denonAutoRepeatDistance / 4) / microsPerTick :=
    Nat.not_lt.mpr hg
  have hprotocol : ((firstFrameBits sharp).setWidth 16 = 2#16) ↔ sharp = true := by
    cases sharp <;> decide
  simp only [denonFields, if_neg hgap, denonWord_command, denonWord_address ha,
    ushiftRight_append_frameBits, and_append_frameBits, BitVec.ofNat_eq_ofNat, hprotocol]

/-- The frame with the inverted command, after the gap of the automatic repeat. -/
theorem denonFields_second (ha : a < 32#8) (hg : g < 1125)
    (hrepeat : s.repeatCount = 0) (hlast : s.lastDecodedCommand = c.setWidth 32) :
    denonFields g { s with
      decodedIRData.decodedRawData := denonWord a (~~~c) (~~~firstFrameBits sharp) } = { s with
      repeatCount := 1
      decodedIRData.decodedRawData := denonWord a (~~~c) (~~~firstFrameBits sharp)
      decodedIRData.address := a.setWidth 16
      decodedIRData.command := c.setWidth 16
      decodedIRData.numberOfBits := denonBits
      decodedIRData.flags := s.decodedIRData.flags ||| irdataFlagsIsAutoRepeat
      decodedIRData.protocol := if sharp then .sharp else .denon } := by
  have hgap : g < (denonAutoRepeatDistance + denonAutoRepeatDistance / 4) / microsPerTick := hg
  have hcount : ¬1#8 < 0#8 + 1#8 := by decide
  have hinverted : (~~~firstFrameBits sharp).setWidth 16 &&& 0x01#16 ≠ 0#16 := by
    cases sharp <;> decide
  have hprotocol : ((~~~firstFrameBits sharp).setWidth 16 = 1#16 ∨
      (~~~firstFrameBits sharp).setWidth 16 = 2#16) ↔ sharp = true := by
    cases sharp <;> decide
  -- both frames have the same command, once inverted
  have hparity : (c.setWidth 32).setWidth 8 = (~~~((~~~c).setWidth 16)).setWidth 8 := by
    rw [BitVec.setWidth_not (by decide), BitVec.setWidth_setWidth (by decide),
      BitVec.setWidth_setWidth (by decide), BitVec.setWidth_eq, BitVec.setWidth_eq, BitVec.not_not]
  have hcommand : (c.setWidth 32).setWidth 16 = c.setWidth 16 :=
    BitVec.setWidth_setWidth (by decide)
  simp only [denonFields, if_pos hgap, hlast, hrepeat, denonWord_command,
    denonWord_address ha, ushiftRight_append_frameBits, and_append_frameBits,
    BitVec.ofNat_eq_ofNat, if_pos hinverted, hprotocol, hparity, hcommand, ne_eq, not_true,
    and_false, if_false, if_neg hcount]
  rfl

/-- The first frame gives the command. -/
theorem decode_firstDenonFrame (ha : a < 32#8)
    (h : IdealCapture p (denonFrame a c (firstFrameBits sharp))) (hgap : p.raw 0 = some g)
    (hg : 1125 ≤ g) (s : DecodeState) :
    ∃ s', midIrRemoteDecode p s = some (true, s') ∧ s'.repeatCount = 0 ∧
      (s'.decodedIRData.protocol = if sharp then .sharp else .denon) ∧
      s'.decodedIRData.address = a.setWidth 16 ∧ s'.decodedIRData.command = c.setWidth 16 ∧
      s'.decodedIRData.flags = irdataFlagsEmpty := by
  have hdecode := decode_denonFrame (s := s) h hgap
  rw [denonFields_first ha hg] at hdecode
  exact ⟨_, hdecode, rfl, rfl, rfl, rfl, irRemoteInitDecodedIRData_flags h.overflowFlag⟩

/-- The second frame gives the command that the first has left. -/
theorem decode_secondDenonFrame (ha : a < 32#8)
    (h : IdealCapture p (denonFrame a (~~~c) (~~~firstFrameBits sharp))) (hgap : p.raw 0 = some g)
    (hg : g < 1125) (hcount : s.repeatCount = 0)
    (hcommand : s.decodedIRData.command = c.setWidth 16) :
    ∃ s', midIrRemoteDecode p s = some (true, s') ∧
      (s'.decodedIRData.protocol = if sharp then .sharp else .denon) ∧
      s'.decodedIRData.address = a.setWidth 16 ∧ s'.decodedIRData.command = c.setWidth 16 ∧
      s'.decodedIRData.flags = irdataFlagsIsAutoRepeat := by
  have hcount' : (irRemoteInitDecodedIRData p s).repeatCount = 0 := by
    rw [irRemoteInitDecodedIRData_eq h.overflowFlag]
    exact hcount
  have hlast : (irRemoteInitDecodedIRData p s).lastDecodedCommand = c.setWidth 32 := by
    have hwidth : (c.setWidth 16).setWidth 32 = c.setWidth 32 :=
      BitVec.setWidth_setWidth (by decide)
    rw [irRemoteInitDecodedIRData_eq h.overflowFlag, hcommand, hwidth]
  have hdecode := decode_denonFrame (s := s) h hgap
  rw [denonFields_second ha hg hcount' hlast] at hdecode
  have hflags : (irRemoteInitDecodedIRData p s).decodedIRData.flags ||| irdataFlagsIsAutoRepeat =
      irdataFlagsIsAutoRepeat := by
    rw [irRemoteInitDecodedIRData_flags h.overflowFlag]
    decide
  exact ⟨_, hdecode, rfl, rfl, rfl, hflags⟩

/-- The two frames of a command, decoded one after the other, both give the command. The
second is marked as an automatic repeat. -/
theorem denon_pair_roundTrip {first second : List TxEvent}
    (hfirst : (frames (sendDenon a c repeats sharp))[0]? = some first)
    (hsecond : (frames (sendDenon a c repeats sharp))[1]? = some second) (ha : a < 32#8)
    (hp : IdealCapture p first) (hpgap : p.raw 0 = some g) (hg : 1125 ≤ g)
    (hq : IdealCapture q second) (hqgap : q.raw 0 = some 900) (s : DecodeState) :
    ∃ s₁ s₂, midIrRemoteDecode p s = some (true, s₁) ∧ midIrRemoteDecode q s₁ = some (true, s₂) ∧
      (s₁.decodedIRData.protocol = if sharp then .sharp else .denon) ∧
      s₁.decodedIRData.address = a.setWidth 16 ∧ s₁.decodedIRData.command = c.setWidth 16 ∧
      s₁.decodedIRData.flags = irdataFlagsEmpty ∧
      (s₂.decodedIRData.protocol = if sharp then .sharp else .denon) ∧
      s₂.decodedIRData.address = a.setWidth 16 ∧ s₂.decodedIRData.command = c.setWidth 16 ∧
      s₂.decodedIRData.flags &&& irdataFlagsIsAutoRepeat ≠ 0 ∧
      s₂.decodedIRData.flags &&& irdataFlagsParityFailed = 0 := by
  have hsent : (repeats + 1) % 256 ≠ 0 := by
    -- nothing is sent when the command counter wraps around
    intro hzero
    have hempty : sendDenon a c repeats sharp = [.enableIROut denonKhz] := by
      rw [sendDenon, hzero]
      rfl
    rw [hempty, frames_of_noWait (NoWait.cons (by rfl) noWait_nil)] at hsecond
    cases hsecond
  obtain ⟨rest, hframes⟩ := @exists_frames_sendDenon a c repeats sharp ha hsent
  rw [hframes, List.getElem?_cons_zero, Option.some.injEq] at hfirst
  rw [hframes, List.getElem?_cons_succ, List.getElem?_cons_zero, Option.some.injEq] at hsecond
  rw [← hfirst] at hp
  rw [← hsecond] at hq
  obtain ⟨s₁, hs₁, hcount, hprotocol₁, haddress₁, hcommand₁, hflags₁⟩ :=
    decode_firstDenonFrame ha hp.tail hpgap hg s
  obtain ⟨s₂, hs₂, hprotocol₂, haddress₂, hcommand₂, hflags₂⟩ :=
    decode_secondDenonFrame ha hq hqgap (by decide) hcount hcommand₁
  refine ⟨s₁, s₂, hs₁, hs₂, hprotocol₁, haddress₁, hcommand₁, hflags₁, hprotocol₂, haddress₂,
    hcommand₂, ?_, ?_⟩
  · rw [hflags₂]
    decide
  · rw [hflags₂]
    decide

/-- Every frame has a capture, after any gap. -/
theorem exists_denonCapture (a c : BitVec 8) (frameBits : BitVec 2) (hg : recordGapTicks < g) :
    ∃ p, IdealCapture p (denonFrame a c frameBits) ∧ p.raw 0 = some g := by
  have hlen : (lineRuns (denonFrame a c frameBits)).length < rawBufferLength := by
    rw [lineRuns_dataRuns filterMap_pulse?_denonFrame, dataRuns_length, BitWord.lsbBits_length]
    decide
  obtain ⟨p, hp, hgap, -⟩ := exists_idealCapture hg hlen
  exact ⟨p, hp, hgap⟩

/-- A Sharp command with its two frames. -/
theorem denon_pair_roundTrip_sharp : ∃ p q s₁ s₂,
    midIrRemoteDecode p .zero = some (true, s₁) ∧ midIrRemoteDecode q s₁ = some (true, s₂) ∧
    s₁.decodedIRData.command = 0x5A ∧ s₂.decodedIRData.command = 0x5A ∧
    s₂.decodedIRData.protocol = .sharp := by
  obtain ⟨rest, hframes⟩ := @exists_frames_sendDenon 0x0B 0x5A 0 true (by decide) (by decide)
  obtain ⟨p, hp, hpgap⟩ := exists_denonCapture 0x0B 0x5A (firstFrameBits true)
    (show recordGapTicks < 2000 by decide)
  obtain ⟨q, hq, hqgap⟩ := exists_denonCapture 0x0B (~~~0x5A) (~~~firstFrameBits true)
    (show recordGapTicks < 900 by decide)
  obtain ⟨s₁, s₂, hs₁, hs₂, -, -, hcommand₁, -, hprotocol₂, -, hcommand₂, -⟩ :=
    denon_pair_roundTrip (congrArg (·[0]?) hframes) (congrArg (·[1]?) hframes) (by decide)
      (hp.cons _) hpgap (by decide) hq hqgap .zero
  exact ⟨p, q, s₁, s₂, hs₁, hs₂, hcommand₁, hcommand₂, hprotocol₂⟩

end IrRemote
