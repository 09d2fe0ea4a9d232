import IrRemote.Decode.CheckedFormats
import IrRemote.RoundTrip.MagiQuest
import IrRemote.RoundTrip.Samsung48

/-!
# Wrong bits that are not flagged

Two more decoders look for wrong bits. That of Samsung48 only flags a frame when both halves of
its command have come with a wrong complement, and that of MagiQuest overwrites its flags behind
the check. So a frame with a single wrong bit is never flagged by either of them.

## Main definitions

* `GuardedFormat` — a protocol, its words, and the bits that are guarded
* `GuardedFormat.Tells` — the flag tells whether a bit is wrong
* `GuardedFormat.Blind` — frames are accepted without the flag

## Main results

* `samsung48Format_blind`, `magiQuestFormat_blind` — the two decoders
* `tells_iff` — the flag is right for the frames without a wrong bit only
-/

set_option autoImplicit false

namespace IrRemote

open CheckDigits CheckedFormat LineSignal

/-! ## Formats -/

/-- A protocol with bits that its decoder checks. -/
structure GuardedFormat where
  /-- The number of bits of a word. -/
  bits : ℕ
  /-- The frame of a word. -/
  runs : BitVec bits → List (Pulse Bool)
  decode : Decoder
  /-- The decoders in front. -/
  before : List Decoder
  /-- What the sender sends. -/
  Sends : List TxEvent → Prop
  /-- The bits that are checked. -/
  Guarded : ℕ → Prop

/-- A word with at most one wrong bit. -/
def received {n : ℕ} (w : BitVec n) : Option ℕ → BitVec n
  | none => w
  | some i => flipBit w i

namespace GuardedFormat

variable (c : GuardedFormat)

/-- The sender sends a frame with a word. -/
def Encodes (w : BitVec c.bits) : Prop := ∃ tx, c.Sends tx ∧ tx.filterMap TxEvent.pulse? = c.runs w

/-- The bit that may be wrong is a checked one. -/
def Admits (wrong : Option ℕ) : Prop := ∀ i ∈ wrong, i < c.bits ∧ c.Guarded i

/-- When the frame that is received is accepted, its flag is set if a bit of it is wrong, and not
if none is. -/
def Tells (w : BitVec c.bits) (wrong : Option ℕ) : Prop :=
  ∀ tx p s t u, tx.filterMap TxEvent.pulse? = c.runs (received w wrong) → IdealCapture p tx →
    OfferedBehind c.before p s t → c.decode p t = some (true, u) →
      (Flagged u ↔ wrong.isSome = true)

/-- The words that are accepted without the flag, those of the sender with a wrong bit among
them. -/
structure Blind (Accepted : BitVec c.bits → Prop) : Prop where
  fits (w : BitVec c.bits) : (c.runs w).length < rawBufferLength
  received {w : BitVec c.bits} {wrong : Option ℕ} (hw : c.Encodes w) (hwrong : c.Admits wrong) :
    Accepted (received w wrong)
  decoded {x : BitVec c.bits} {tx : List TxEvent} {p : IrParams} (hx : Accepted x)
    (htx : tx.filterMap TxEvent.pulse? = c.runs x) (h : IdealCapture p tx) (s : DecodeState) :
    ∃ t u, OfferedBehind c.before p s t ∧ c.decode p t = some (true, u) ∧ ¬Flagged u

variable {c} {Accepted : BitVec c.bits → Prop} {w : BitVec c.bits} {wrong : Option ℕ}

/-- Any runs are those of a transmission. -/
theorem exists_transmission (l : List (Pulse Bool)) :
    ∃ tx : List TxEvent, tx.filterMap TxEvent.pulse? = l := by
  induction l with
  | nil => exact ⟨[], rfl⟩
  | cons a l ih =>
    obtain ⟨tx, htx⟩ := ih
    obtain ⟨level, duration⟩ := a
    cases level with
    | false => exact ⟨.space duration :: tx, congrArg _ htx⟩
    | true => exact ⟨.mark duration :: tx, congrArg _ htx⟩

/-- The receiver records no more than the runs. -/
theorem length_lineRuns_le (tx : List TxEvent) :
    (lineRuns tx).length ≤ (tx.filterMap TxEvent.pulse?).length :=
  (length_merge_le _).trans (length_trim_le _)

/-- Such a frame is received. -/
theorem Blind.exists_unflagged (hc : c.Blind Accepted) (hw : c.Encodes w)
    (hwrong : c.Admits wrong) (s : DecodeState) :
    ∃ tx p t u, tx.filterMap TxEvent.pulse? = c.runs (IrRemote.received w wrong) ∧
      IdealCapture p tx ∧ OfferedBehind c.before p s t ∧ c.decode p t = some (true, u) ∧
        ¬Flagged u := by
  obtain ⟨tx, htx⟩ := exists_transmission (c.runs (IrRemote.received w wrong))
  have hlen : (lineRuns tx).length < rawBufferLength := by
    apply (length_lineRuns_le tx).trans_lt
    rw [htx]
    exact hc.fits _
  obtain ⟨p, hp, -⟩ := exists_idealCapture (show recordGapTicks < 101 by decide) hlen
  obtain ⟨t, u, ht, hu, hflag⟩ := hc.decoded (hc.received hw hwrong) htx hp s
  exact ⟨tx, p, t, u, htx, hp, ht, hu, hflag⟩

/-- The decoders in front leave one state. -/
theorem Blind.not_flagged (hc : c.Blind Accepted) (hw : c.Encodes w) (hwrong : c.Admits wrong)
    {tx : List TxEvent} {p : IrParams} {s t u : DecodeState}
    (htx : tx.filterMap TxEvent.pulse? = c.runs (IrRemote.received w wrong))
    (h : IdealCapture p tx) (ht : OfferedBehind c.before p s t)
    (hu : c.decode p t = some (true, u)) : ¬Flagged u := by
  obtain ⟨t', u', ht', hu', hflag⟩ := hc.decoded (hc.received hw hwrong) htx h s
  obtain ⟨-, rfl⟩ := Prod.mk.inj (Option.some.inj (ht'.refused.symm.trans ht.refused))
  obtain ⟨-, rfl⟩ := Prod.mk.inj (Option.some.inj (hu'.symm.trans hu))
  exact hflag

/-- The flag is right when there is nothing to flag. -/
theorem Blind.tells_iff_none (hc : c.Blind Accepted) (hw : c.Encodes w)
    (hwrong : c.Admits wrong) : c.Tells w wrong ↔ wrong = none := by
  constructor
  · intro htells
    obtain ⟨tx, p, t, u, htx, hp, ht, hu, hflag⟩ := hc.exists_unflagged hw hwrong .zero
    have hnone := (htells tx p .zero t u htx hp ht hu).not.mp hflag
    exact Option.not_isSome_iff_eq_none.mp hnone
  · rintro rfl tx p s t u htx hp ht hu
    exact iff_of_false (hc.not_flagged hw hwrong htx hp ht hu) (by decide)

end GuardedFormat

open GuardedFormat

/-! ## Samsung48 -/

/-- The frame of a word. -/
def samsung48Runs (x : BitVec 48) : List (Pulse Bool) :=
  frameRuns samsungHeaderMark samsungHeaderSpace samsungBitMark
    samsungProtocolConstants.distanceWidthTimingInfo.bitSpace (BitWord.lsbBits 48 x)

/-- Samsung48: the bytes of the command, each with its complement behind it. -/
def samsung48Format : GuardedFormat where
  bits := samsung48Bits
  runs := samsung48Runs
  decode := decodeSamsung
  before := specificDecoders.take 8
  Sends tx := ∃ a c, tx = sendSamsung48 a c 0
  Guarded i := samsungAddressBits ≤ i

/-- One of the complements is right. -/
def HasComplement (x : BitVec 48) : Prop :=
  digit 8 x 2 = ~~~digit 8 x 3 ∨ digit 8 x 4 = ~~~digit 8 x 5

/-- The word of a frame that is sent. -/
def samsung48FrameWord (a c : BitVec 16) : BitVec 48 :=
  (samsung48Rest c).setWidth 16 ++ (samsung48Word a c).uLong

variable {w : BitVec 48}

theorem length_samsung48Runs (x : BitVec 48) : (samsung48Runs x).length = 99 := by
  rw [samsung48Runs, frameRuns, List.length_cons, List.length_cons, dataRuns_length,
    BitWord.lsbBits_length]

/-- Of the command, 16 bits are sent. -/
theorem sendSamsung48_setWidth (a : BitVec 16) (c : BitVec 32) (repeats : ℕ) :
    sendSamsung48 a ((c.setWidth 16).setWidth 32) repeats = sendSamsung48 a c repeats := by
  have hcut (c : BitVec 32) : ((c.setWidth 16).setWidth 32).setWidth 8 = c.setWidth 8 := by
    rw [BitVec.setWidth_setWidth_of_le _ (by decide), BitVec.setWidth_setWidth_of_le _ (by decide)]
  have hcomplement : (~~~(c.setWidth 16).setWidth 32).setWidth 8 = (~~~c).setWidth 8 := by
    rw [BitVec.setWidth_not (by decide), BitVec.setWidth_not (by decide), hcut]
  have hupper : ((c.setWidth 16).setWidth 32 >>> 8).setWidth 8 = (c >>> 8).setWidth 8 := by
    ext i hi
    simp [show 8 + i < 16 by omega, show 8 + i < 32 by omega]
  rw [sendSamsung48, hcut, hcomplement, hupper]
  rfl

theorem pulses_sendSamsung48 (a c : BitVec 16) :
    (sendSamsung48 a (c.setWidth 32) 0).filterMap TxEvent.pulse? =
      samsung48Runs (samsung48FrameWord a c) := by
  have hbits : BitWord.lsbBits 48 (samsung48FrameWord a c) =
      BitWord.lsbBits 32 (samsung48Word a c).uLong ++ BitWord.lsbBits 16 (samsung48Rest c) := by
    rw [← BitWord.lsbBits_setWidth (x := samsung48Rest c) (Nat.le_refl 16)]
    exact BitWord.lsbBits_append (n := 16)
  have hpulses : (sendPulseDistanceWidthFromArray samsungProtocolConstants (samsung48Words a c)
      (32 + 16) 0).filterMap TxEvent.pulse? = _ :=
    filterMap_pulse?_twoWords ⟨rfl, by decide⟩ rfl (by decide) (by decide)
  rw [sendSamsung48_eq, hpulses, samsung48Runs, hbits]
  rfl

/-- Only the words of frames are sent. -/
theorem Encodes.eq_samsung48FrameWord (hw : samsung48Format.Encodes w) :
    ∃ a c, w = samsung48FrameWord a c := by
  obtain ⟨_, ⟨a, c, rfl⟩, hruns⟩ := hw
  rw [← sendSamsung48_setWidth, pulses_sendSamsung48] at hruns
  have hbits := (frameRuns_inj (bitSpace_injective (by decide))).mp hruns
  exact ⟨a, c.setWidth 16, (BitWord.lsbBits_width_inj.mp hbits).symm⟩

/-- Both complements are sent. -/
theorem digit_samsung48FrameWord (a c : BitVec 16) :
    digit 8 (samsung48FrameWord a c) 2 = ~~~digit 8 (samsung48FrameWord a c) 3 ∧
      digit 8 (samsung48FrameWord a c) 4 = ~~~digit 8 (samsung48FrameWord a c) 5 := by
  have hlow (k : ℕ) (hk : k * 8 + 8 ≤ 32) :
      digit 8 (samsung48FrameWord a c) k = (samsung48Word a c).uLong.extractLsb' (k * 8) 8 :=
    BitVec.extractLsb'_append_eq_of_add_le hk
  have hhigh (k : ℕ) (hk : 32 ≤ k * 8) :
      digit 8 (samsung48FrameWord a c) k =
        ((samsung48Rest c).setWidth 16).extractLsb' (k * 8 - 32) 8 :=
    BitVec.extractLsb'_append_eq_of_le hk
  have hword : LongUnion.ofULong (samsung48Word a c).uLong = samsung48Word a c :=
    LongUnion.ofULong_uLong
  constructor
  · have hbyte : (samsung48Word a c).uLong.extractLsb' 16 8 = c.extractLsb' 0 8 :=
      congrArg LongUnion.midHighByte hword
    have hcomplement : (samsung48Word a c).uLong.extractLsb' 24 8 = ~~~c.extractLsb' 0 8 :=
      congrArg LongUnion.highByte hword
    rw [hlow 2 (by decide), hlow 3 (by decide), hbyte, hcomplement, BitVec.not_not]
  · rw [hhigh 4 (by decide), hhigh 5 (by decide), samsung48Rest_setWidth,
      LongUnion.extractLsb'_append_low, LongUnion.extractLsb'_append_high, BitVec.not_not]

theorem samsung48Format_received {wrong : Option ℕ} (hw : samsung48Format.Encodes w)
    (hwrong : samsung48Format.Admits wrong) : HasComplement (received w wrong) := by
  obtain ⟨a, c, rfl⟩ := Encodes.eq_samsung48FrameWord hw
  obtain ⟨hlower, hupper⟩ := digit_samsung48FrameWord a c
  cases wrong with
  | none => exact .inl hlower
  | some i =>
    obtain ⟨hi, hcommand⟩ := hwrong i rfl
    have hi' : i < 48 := hi
    have hcommand' : 16 ≤ i := hcommand
    -- the wrong bit is in one of the halves of the command
    rcases Nat.lt_or_ge i 32 with hlt | hge
    · refine .inr ?_
      rwa [received, digit_flipBit_of_ne _ hi' (by omega), digit_flipBit_of_ne _ hi' (by omega)]
    · refine .inl ?_
      rwa [received, digit_flipBit_of_ne _ hi' (by omega), digit_flipBit_of_ne _ hi' (by omega)]

/-- The flag asks for both complements to be wrong. -/
theorem samsung48Fields_flags {x : BitVec 48} {d : IRData} (hx : HasComplement x)
    (hrest : d.decodedRawData.setWidth 16 = x.extractLsb' 32 16) :
    (samsung48Fields (LongUnion.ofULong (x.extractLsb' 0 32)) d).flags = d.flags := by
  refine if_neg ?_
  rintro ⟨hlower, hupper⟩
  simp only [LongUnion.setLowWord, LongUnion.ofULong, hrest] at hlower hupper
  rw [extractLsb'_piece x 0 16 (by decide), extractLsb'_piece x 0 24 (by decide)] at hlower
  rw [extractLsb'_piece x 32 0 (by decide), extractLsb'_piece x 32 8 (by decide)] at hupper
  exact hx.elim hlower hupper

theorem samsung48Format_decoded {x : BitVec 48} {tx : List TxEvent} {p : IrParams}
    (hx : HasComplement x) (htx : tx.filterMap TxEvent.pulse? = samsung48Runs x)
    (h : IdealCapture p tx) (s : DecodeState) :
    ∃ t u, OfferedBehind samsung48Format.before p s t ∧
      samsung48Format.decode p t = some (true, u) ∧ ¬Flagged u := by
  have hbits : BitWord.lsbBits 48 x = BitWord.lsbBits 32 (x.extractLsb' 0 32) ++
      BitWord.lsbBits 16 ((x.extractLsb' 32 16).setWidth 32) := by
    have hsplit : x.extractLsb' 32 16 ++ x.extractLsb' 0 32 = x :=
      BitVec.extractLsb'_append_extractLsb'
    rw [BitWord.lsbBits_setWidth (by decide)]
    exact (congrArg (BitWord.lsbBits 48) hsplit.symm).trans (BitWord.lsbBits_append (n := 16))
  rw [samsung48Runs, hbits] at htx
  have hframe := h.pulseDistanceCapture htx
  have hfront := tryDecoders_take_of_capture48 hframe (irRemoteInitDecodedIRData p s)
  have hoffered : OfferedBehind samsung48Format.before p s _ :=
    ⟨h.stopped, h.overflowFlag, hfront⟩
  obtain ⟨g, hu⟩ := decodeSamsung_of_capture48 hframe
    { irRemoteInitDecodedIRData p s with
      biphase := initBiphaselevel 1 rc5Unit (irRemoteInitDecodedIRData p s).biphase }
  have hrest : (collected samsungProtocolConstants.flags (BitWord.lsbBits 16
      ((x.extractLsb' 32 16).setWidth 32))).setWidth 16 = x.extractLsb' 32 16 := by
    refine (BitWord.setWidth_collectLsb_lsbBits (w := 32) (n := 16)
      (x := (x.extractLsb' 32 16).setWidth 32)).trans ?_
    rw [BitVec.setWidth_setWidth_of_le _ (by decide), BitVec.setWidth_eq]
  refine ⟨_, _, hoffered, hu, ?_⟩
  rw [Flagged, not_not, IRData.afterGap_and (by decide), samsung48Fields_flags hx hrest]
  dsimp only
  rw [irRemoteInitDecodedIRData_flags h.overflowFlag]
  decide

theorem samsung48Format_blind : samsung48Format.Blind HasComplement where
  fits w := (length_samsung48Runs w).trans_lt (by decide)
  received hw hwrong := samsung48Format_received hw hwrong
  decoded hx htx h s := samsung48Format_decoded hx htx h s

/-! ## MagiQuest -/

/-- The frame of a word. -/
def magiQuestRuns (x : BitVec 56) : List (Pulse Bool) :=
  pairRuns ((BitWord.msbBits 56 x).map magiQuestProtocolConstants.distanceWidthTimingInfo.bitPair)

/-- MagiQuest: 8 zeros, and 48 bits with a checksum at the end. -/
def magiQuestFormat : GuardedFormat where
  bits := magiQuestBits
  runs := magiQuestRuns
  decode := decodeMagiQuest
  before := specificDecoders.take 13
  Sends tx := ∃ wand m, tx = sendMagiQuest wand m
  Guarded i := i < magiQuestBits - magiQuestStartBits

/-- The start bits. -/
def StartsWithZeros (x : BitVec 56) : Prop := digit 8 x 6 = 0#8

theorem length_magiQuestRuns (x : BitVec 56) : (magiQuestRuns x).length = 112 := by
  rw [magiQuestRuns, pairRuns_length, List.length_map, BitWord.msbBits_length]

/-- The pieces of a frame. -/
theorem msbBits_pieces (x : BitVec 56) : BitWord.msbBits 56 x =
    BitWord.msbBits 8 (digit 8 x 6) ++ (BitWord.msbBits 31 ((x.extractLsb' 17 31).setWidth 32) ++
      BitWord.msbBits 17 ((x.extractLsb' 0 17).setWidth 32)) := by
  have hsplit : digit 8 x 6 ++ x.extractLsb' 0 48 = x := BitVec.extractLsb'_append_extractLsb'
  have hrest : x.extractLsb' 17 31 ++ x.extractLsb' 0 17 = x.extractLsb' 0 48 :=
    BitVec.extractLsb'_append_extractLsb'_eq_extractLsb' rfl
  rw [BitWord.msbBits_setWidth (by decide), BitWord.msbBits_setWidth (by decide)]
  have hbits : BitWord.msbBits 48 (x.extractLsb' 0 48) =
      BitWord.msbBits 31 (x.extractLsb' 17 31) ++ BitWord.msbBits 17 (x.extractLsb' 0 17) :=
    (congrArg (BitWord.msbBits 48) hrest.symm).trans (BitWord.msbBits_append (n := 31))
  rw [← hbits]
  exact (congrArg (BitWord.msbBits 56) hsplit.symm).trans (BitWord.msbBits_append (n := 8))

theorem pulses_sendMagiQuest (wand : BitVec 32) (m : BitVec 16) :
    (sendMagiQuest wand m).filterMap TxEvent.pulse? =
      pairRuns ((magiQuestSentBits wand (m &&& 0x1FF)).map
        magiQuestProtocolConstants.distanceWidthTimingInfo.bitPair) := by
  have hmask : m &&& 0x1FF &&& 0x1FF = m &&& 0x1FF := by rw [BitVec.and_assoc, BitVec.and_self]
  have hcut : sendMagiQuest wand (m &&& 0x1FF) = sendMagiQuest wand m := by
    rw [sendMagiQuest, hmask]
    rfl
  have hlt : m &&& 0x1FF < 0x200 := by
    rw [BitVec.lt_def, BitVec.toNat_and]
    exact Nat.and_lt_two_pow (n := 9) _ (by decide)
  rw [← hcut, sendMagiQuest_eq hlt]
  exact filterMap_pulse?_pairs magiQuestProtocolConstants.distanceWidthTimingInfo _

/-- Every frame has a word. -/
theorem exists_magiQuestRuns (wand : BitVec 32) (m : BitVec 16) :
    ∃ w, (sendMagiQuest wand m).filterMap TxEvent.pulse? = magiQuestRuns w := by
  obtain ⟨w, hw⟩ : ∃ w : BitVec 56, BitWord.msbBits 56 w =
      magiQuestSentBits wand (m &&& 0x1FF) := by
    refine ⟨BitWord.collectLsb (magiQuestSentBits wand (m &&& 0x1FF)).reverse 1#56 0#56, ?_⟩
    have hlen : (magiQuestSentBits wand (m &&& 0x1FF)).reverse.length = 56 :=
      List.length_reverse.trans magiQuestSentBits_length
    have hbits := BitWord.lsbBits_collectLsb hlen.le
    rw [hlen] at hbits
    rw [BitWord.msbBits, hbits, List.reverse_reverse]
  exact ⟨w, (pulses_sendMagiQuest wand m).trans (by rw [magiQuestRuns, hw])⟩

theorem magiQuestFormat_received {w : BitVec 56} {wrong : Option ℕ}
    (hw : magiQuestFormat.Encodes w) (hwrong : magiQuestFormat.Admits wrong) :
    StartsWithZeros (received w wrong) := by
  have hstart : StartsWithZeros w := by
    obtain ⟨_, ⟨wand, m, rfl⟩, hruns⟩ := hw
    have hbits := (pairRuns_map_inj (by decide)).mp ((pulses_sendMagiQuest wand m).symm.trans hruns)
    rw [msbBits_pieces] at hbits
    have hzeros : BitWord.msbBits 8 0#8 = BitWord.msbBits 8 (digit 8 w 6) :=
      (List.append_inj hbits (by simp)).1
    exact (BitWord.lsbBits_width_inj.mp (List.reverse_injective hzeros)).symm
  cases wrong with
  | none => exact hstart
  | some i =>
    obtain ⟨hi, hguarded⟩ := hwrong i rfl
    have hlt : i < 48 := hguarded
    exact (digit_flipBit_of_ne w hi (by omega)).trans hstart

theorem magiQuestFormat_decoded {x : BitVec 56} {tx : List TxEvent} {p : IrParams}
    (hx : StartsWithZeros x) (htx : tx.filterMap TxEvent.pulse? = magiQuestRuns x)
    (h : IdealCapture p tx) (s : DecodeState) :
    ∃ t u, OfferedBehind magiQuestFormat.before p s t ∧
      magiQuestFormat.decode p t = some (true, u) ∧ ¬Flagged u := by
  have hzeros : BitWord.msbBits 8 (digit 8 x 6) = BitWord.msbBits 8 0#32 := by
    rw [hx]
    rfl
  have hlen : ((BitWord.msbBits 56 x).map
      magiQuestProtocolConstants.distanceWidthTimingInfo.bitPair).length = 56 := by
    rw [List.length_map, BitWord.msbBits_length]
  have hframe := h.pairsCapture htx (List.ne_nil_of_length_pos (by omega))
  have hrawlen : p.rawlen = 112 := by rw [hframe.rawlen, hlen]
  rw [msbBits_pieces, hzeros] at hframe
  have hwand : ((x.extractLsb' 17 31).setWidth 32).toNat < 2 ^ 31 := by
    rw [BitVec.toNat_setWidth_of_le (by decide)]
    exact BitVec.isLt _
  have hword : ((x.extractLsb' 0 17).setWidth 32).toNat < 2 ^ 17 := by
    rw [BitVec.toNat_setWidth_of_le (by decide)]
    exact BitVec.isLt _
  obtain ⟨hstart, hpiece, hdata⟩ := decode_magiQuestPieces hwand hword hframe
  have hfront := tryDecoders_take_of_magiQuest (s := irRemoteInitDecodedIRData p s)
    (by simp) hframe
  -- the flags are overwritten behind the check
  have hflags : irdataFlagsIsMsbFirst &&& irdataFlagsParityFailed = 0 := by decide
  exact ⟨_, _, ⟨h.stopped, h.overflowFlag, hfront⟩,
    decodeMagiQuest_frame hrawlen hstart hpiece hdata, not_not.mpr hflags⟩

theorem magiQuestFormat_blind : magiQuestFormat.Blind StartsWithZeros where
  fits w := (length_magiQuestRuns w).trans_lt (by decide)
  received hw hwrong := magiQuestFormat_received hw hwrong
  decoded hx htx h s := magiQuestFormat_decoded hx htx h s

/-! ## Both decoders -/

def guardedFormats : List GuardedFormat := [samsung48Format, magiQuestFormat]

/-- Both accept frames with a wrong bit, and flag none. -/
theorem exists_blind_of_mem_guardedFormats :
    ∀ c ∈ guardedFormats, ∃ Accepted, c.Blind Accepted := by
  simp only [guardedFormats, List.forall_mem_cons, List.not_mem_nil, false_imp_iff, implies_true,
    and_true]
  exact ⟨⟨_, samsung48Format_blind⟩, ⟨_, magiQuestFormat_blind⟩⟩

/-- The flag of a frame is right exactly when none of its bits is wrong. -/
theorem tells_iff {c : GuardedFormat} (hc : c ∈ guardedFormats) {w : BitVec c.bits}
    (hw : c.Encodes w) {wrong : Option ℕ} (hwrong : c.Admits wrong) :
    c.Tells w wrong ↔ wrong = none := by
  obtain ⟨_, hblind⟩ := exists_blind_of_mem_guardedFormats c hc
  exact hblind.tells_iff_none hw hwrong

/-- The frame of a wand is told to be right, and is not told to be wrong when the last bit of its
wand id is. -/
theorem tells_iff_wand : ∃ w, (sendMagiQuest 0x52345678 0x103).filterMap TxEvent.pulse? =
      magiQuestFormat.runs w ∧ magiQuestFormat.Tells w none ∧
        ¬magiQuestFormat.Tells w (some 17) := by
  obtain ⟨w, hw⟩ := exists_magiQuestRuns 0x52345678 0x103
  have hsent : magiQuestFormat.Encodes w := ⟨_, ⟨_, _, rfl⟩, hw⟩
  have hmem : magiQuestFormat ∈ guardedFormats := List.mem_cons_of_mem _ (List.mem_cons_self ..)
  refine ⟨w, hw, (tells_iff hmem hsent ?_).mpr rfl, fun htells => ?_⟩
  · rintro i ⟨⟩
  · have hadmits : magiQuestFormat.Admits (some 17) := by
      rintro i ⟨⟩
      exact ⟨by decide, show 17 < 48 by decide⟩
    exact absurd ((tells_iff hmem hsent hadmits).mp htells) (by decide)

/-- A bit of the first command byte is wrong. -/
theorem samsung48_wrong_bit_accepted : ∃ tx p u,
    (sendSamsung48 0x0707 0x1234 0).filterMap TxEvent.pulse? =
      samsung48Format.runs (samsung48FrameWord 0x0707 0x1234) ∧
    tx.filterMap TxEvent.pulse? =
      samsung48Format.runs (flipBit (samsung48FrameWord 0x0707 0x1234) 20) ∧
    IdealCapture p tx ∧
    ∃ t, OfferedBehind samsung48Format.before p .zero t ∧ decodeSamsung p t = some (true, u) ∧
      u.decodedIRData.flags &&& irdataFlagsParityFailed = 0 := by
  have hpulses : (sendSamsung48 0x0707 ((0x1234 : BitVec 16).setWidth 32) 0).filterMap
      TxEvent.pulse? = samsung48Runs (samsung48FrameWord 0x0707 0x1234) := pulses_sendSamsung48 _ _
  have hsent : samsung48Format.Encodes (samsung48FrameWord 0x0707 0x1234) :=
    ⟨_, ⟨0x0707, 0x1234, rfl⟩, hpulses⟩
  have hadmits : samsung48Format.Admits (some 20) := by
    rintro i ⟨⟩
    exact ⟨by decide, show 16 ≤ 20 by decide⟩
  obtain ⟨tx, p, t, u, htx, hp, ht, hu, hflag⟩ :=
    samsung48Format_blind.exists_unflagged hsent hadmits .zero
  exact ⟨tx, p, u, hpulses, htx, hp, t, ht, hu, not_not.mp hflag⟩

end IrRemote
