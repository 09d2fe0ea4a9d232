import IrRemote.Mid.LongUnion
import IrRemote.Mid.Matching
import IrRemote.Mid.Transmit

/-!
# The exotic protocols

`Ir_FAST.c`, `Ir_Whynter.c`, `Ir_Lego.c`, `Ir_BoseWave.c` and `Ir_MagiQuest.c`: short
protocols the decoder chain tries after the common ones.

## Main definitions

* `sendFAST`, `sendLegoPowerFunctions`, `sendBoseWave`, `sendMagiQuest` — the senders
* `decodeFAST`, `decodeWhynter`, `decodeLegoPowerFunctions`, `decodeBoseWave`,
  `decodeMagiQuest` — the decoders

## Main results

* `decodeFAST_frame` and its siblings — a full frame is decoded
* `decodeFAST_ensures` and its siblings — what they decode
-/

set_option autoImplicit false

namespace IrRemote

/-! ## FAST -/

def fastKhz : ℕ := 38
def fastAddressBits : ℕ := 0
def fastCommandBits : ℕ := 16
def fastBits : ℕ := fastAddressBits + fastCommandBits
def fastUnit : ℕ := 526
def fastBitMark : ℕ := fastUnit
def fastOneSpace : ℕ := 3 * fastUnit
def fastZeroSpace : ℕ := fastUnit
def fastHeaderMark : ℕ := 4 * fastUnit
def fastHeaderSpace : ℕ := 2 * fastUnit
def fastRepeatPeriod : ℕ := 50000
def fastRepeatDistance : ℕ := fastRepeatPeriod - 55 * fastUnit
def fastMaximumRepeatDistance : ℕ := fastRepeatDistance + 10000

/-- `FASTProtocolConstants`. -/
def fastProtocolConstants : PulseDistanceWidthProtocolConstants where
  protocolIndex := .fast
  frequencyKHz := fastKhz
  distanceWidthTimingInfo :=
    ⟨fastHeaderMark, fastHeaderSpace, fastBitMark, fastOneSpace, fastBitMark, fastZeroSpace⟩
  flags := protocolIsLsbFirst
  repeatPeriodMillis := fastRepeatPeriod / 1000
  specialSendRepeatFunction := none

/-- `sendFAST`. -/
def sendFAST (aCommand : BitVec 8) (aNumberOfRepeats : ℕ) : List TxEvent :=
  .enableIROut fastKhz ::
    sendCommands
      ([.mark fastHeaderMark, .space fastHeaderSpace] ++
        sendPulseDistanceWidthDataV3 fastProtocolConstants
          (aCommand.setWidth 32 ||| ((~~~aCommand).setWidth 32 <<< 8)) fastBits)
      [.delayMs (fastRepeatDistance / 1000)] (aNumberOfRepeats + 1)

/-- `decodeFAST`. -/
def decodeFAST : Decoder := fun irparams s => do
  if irparams.rawlen ≠ 2 * fastBits + 4 then
    return (false, s)
  if !(← checkHeader fastProtocolConstants.distanceWidthTimingInfo irparams) then
    return (false, s)
  let (decoded, s) ← decodePulseDistanceWidthDatav3 fastProtocolConstants.distanceWidthTimingInfo
    fastProtocolConstants.flags fastBits irparams s
  if !decoded then
    return (false, s)
  let tValue := LongUnion.ofULong s.decodedIRData.decodedRawData
  let flags :=
    if tValue.lowByte ≠ ~~~tValue.midLowByte then irdataFlagsParityFailed
    else s.decodedIRData.flags
  let s ← checkForRepeatSpaceTicksAndSetFlag (fastMaximumRepeatDistance / microsPerTick) irparams
    { s with decodedIRData.flags := flags }
  return (true, { s with
    decodedIRData.command := tValue.lowByte.setWidth 16
    decodedIRData.address := 0
    decodedIRData.numberOfBits := fastBits
    decodedIRData.protocol := .fast })

/-! ## Whynter -/

def whynterBits : ℕ := 32
def whynterHeaderMark : ℕ := 2850
def whynterHeaderSpace : ℕ := 2850
def whynterBitMark : ℕ := 750
def whynterOneSpace : ℕ := 2150
def whynterZeroSpace : ℕ := 750

/-- `WhynterProtocolConstants`. -/
def whynterProtocolConstants : PulseDistanceWidthProtocolConstants where
  protocolIndex := .whynter
  frequencyKHz := 38
  distanceWidthTimingInfo :=
    ⟨whynterHeaderMark, whynterHeaderSpace, whynterBitMark, whynterOneSpace, whynterBitMark,
      whynterZeroSpace⟩
  flags := protocolIsMsbFirst
  repeatPeriodMillis := 110
  specialSendRepeatFunction := none

/-- `decodeWhynter`. -/
def decodeWhynter : Decoder := fun irparams s => do
  if irparams.rawlen ≠ 2 * whynterBits + 4 then
    return (false, s)
  if !(← checkHeader whynterProtocolConstants.distanceWidthTimingInfo irparams) then
    return (false, s)
  let (decoded, s) ← decodePulseDistanceWidthDatav3
    whynterProtocolConstants.distanceWidthTimingInfo whynterProtocolConstants.flags whynterBits
    irparams s
  if !decoded then
    return (false, s)
  return (true, { s with
    decodedIRData.flags := irdataFlagsIsMsbFirst
    decodedIRData.numberOfBits := whynterBits
    decodedIRData.protocol := .whynter })

/-! ## Lego Power Functions -/

def legoChannelBits : ℕ := 4
def legoModeBits : ℕ := 4
def legoCommandBits : ℕ := 4
def legoParityBits : ℕ := 4
def legoBits : ℕ := legoChannelBits + legoModeBits + legoCommandBits + legoParityBits
def legoHeaderMark : ℕ := 158
def legoHeaderSpace : ℕ := 1026
def legoBitMark : ℕ := 158
def legoOneSpace : ℕ := 553
def legoZeroSpace : ℕ := 263
def legoAutoRepeatPeriodMin : ℕ := 110000
def legoAutoRepeatPeriodMax : ℕ := 230000

/-- `LegoProtocolConstants`. -/
def legoProtocolConstants : PulseDistanceWidthProtocolConstants where
  protocolIndex := .legoPf
  frequencyKHz := 38
  distanceWidthTimingInfo :=
    ⟨legoHeaderMark, legoHeaderSpace, legoBitMark, legoOneSpace, legoBitMark, legoZeroSpace⟩
  flags := protocolIsLsbFirst
  repeatPeriodMillis := legoAutoRepeatPeriodMin / 1000
  specialSendRepeatFunction := none

/-- The nibble parity of a frame. -/
def legoParity (channel mode command : BitVec 8) : BitVec 8 := 0xF ^^^ channel ^^^ mode ^^^ command

/-- `sendLegoPowerFunctionsV2`; the channel sets the repeat period. -/
def sendLegoPowerFunctionsV2 (aRawData : BitVec 16) (aChannel : BitVec 8) (aDoSend5Times : Bool) :
    List TxEvent :=
  let tRepeatPeriod := legoAutoRepeatPeriodMin / 1000 + (aChannel &&& 0x03).toNat * 40
  sendPulseDistanceWidthV1 { legoProtocolConstants with repeatPeriodMillis := tRepeatPeriod }
    (aRawData.setWidth 32) legoBits (if aDoSend5Times then 4 else 0)

/-- `sendLegoPowerFunctions`. -/
def sendLegoPowerFunctions (aChannel aCommand aMode : BitVec 8) (aDoSend5Times : Bool) :
    List TxEvent :=
  let aChannel := aChannel &&& 0x0F
  let aCommand := aCommand &&& 0x0F
  let aMode := aMode &&& 0x0F
  let tParity := legoParity aChannel aMode aCommand
  let tRawData : BitVec 16 :=
    (((aChannel.setWidth 16 <<< legoModeBits) ||| aMode.setWidth 16) <<<
      (legoCommandBits + legoParityBits)) |||
    (aCommand.setWidth 16 <<< legoParityBits) ||| tParity.setWidth 16
  sendLegoPowerFunctionsV2 tRawData aChannel aDoSend5Times

/-- The frame `decodeLegoPowerFunctions` reads off its data and the gap. -/
def legoFields (gap : ℕ) (d : IRData) : IRData :=
  let tDecodedValue : BitVec 16 := d.decodedRawData.setWidth 16
  let tToggleEscapeChannel : BitVec 8 :=
    (tDecodedValue >>> (legoModeBits + legoCommandBits + legoParityBits)).setWidth 8
  let tMode : BitVec 8 :=
    ((tDecodedValue >>> (legoCommandBits + legoParityBits)) &&& 0xF).setWidth 8
  let tData : BitVec 8 := ((tDecodedValue >>> legoParityBits) &&& 0xF).setWidth 8
  let tParityReceived : BitVec 8 := (tDecodedValue &&& 0xF).setWidth 8
  let flags :=
    if tParityReceived ≠ legoParity tToggleEscapeChannel tMode tData then
      irdataFlagsParityFailed ||| irdataFlagsIsMsbFirst
    else irdataFlagsIsMsbFirst
  { d with
    flags :=
      if gap < legoAutoRepeatPeriodMax / microsPerTick then flags ||| irdataFlagsIsAutoRepeat
      else flags
    address := tToggleEscapeChannel.setWidth 16
    command := tData.setWidth 16 ||| (tMode.setWidth 16 <<< legoCommandBits)
    numberOfBits := legoBits
    protocol := .legoPf }

/-- `decodeLegoPowerFunctions`; the header is checked before the length. -/
def decodeLegoPowerFunctions : Decoder := fun irparams s => do
  if !(← checkHeader legoProtocolConstants.distanceWidthTimingInfo irparams) then
    return (false, s)
  if irparams.rawlen ≠ 2 * legoBits + 4 then
    return (false, s)
  let (decoded, s) ← decodePulseDistanceWidthDatav3 legoProtocolConstants.distanceWidthTimingInfo
    legoProtocolConstants.flags legoBits irparams s
  if !decoded then
    return (false, s)
  -- stop bit
  if !matchMark (← irparams.raw (3 + 2 * legoBits)) legoBitMark then
    return (false, s)
  let gap ← irparams.raw 0
  return (true, { s with decodedIRData := legoFields gap s.decodedIRData })

/-! ## BoseWave -/

def boseWaveKhz : ℕ := 38
def boseWaveBits : ℕ := 16
def boseWaveHeaderMark : ℕ := 1014
def boseWaveHeaderSpace : ℕ := 1468
def boseWaveBitMark : ℕ := 520
def boseWaveZeroSpace : ℕ := 468
def boseWaveOneSpace : ℕ := 1468
def boseWaveRepeatPeriod : ℕ := 75000
def boseWaveMaximumRepeatDistance : ℕ := 62000

/-- `BoseWaveProtocolConstants`. -/
def boseWaveProtocolConstants : PulseDistanceWidthProtocolConstants where
  protocolIndex := .boseWave
  frequencyKHz := boseWaveKhz
  distanceWidthTimingInfo :=
    ⟨boseWaveHeaderMark, boseWaveHeaderSpace, boseWaveBitMark, boseWaveOneSpace, boseWaveBitMark,
      boseWaveZeroSpace⟩
  flags := protocolIsLsbFirst
  repeatPeriodMillis := boseWaveRepeatPeriod / 1000
  specialSendRepeatFunction := none

/-- `sendBoseWave`. -/
def sendBoseWave (aCommand : BitVec 8) (aNumberOfRepeats : ℕ) : List TxEvent :=
  let tData : BitVec 16 := (~~~(aCommand.setWidth 16) <<< 8) ||| aCommand.setWidth 16
  sendPulseDistanceWidthV1 boseWaveProtocolConstants (tData.setWidth 32) boseWaveBits
    aNumberOfRepeats

/-- `decodeBoseWave`; the header is checked before the length. -/
def decodeBoseWave : Decoder := fun irparams s => do
  if !(← checkHeader boseWaveProtocolConstants.distanceWidthTimingInfo irparams) then
    return (false, s)
  if irparams.rawlen ≠ 2 * boseWaveBits + 4 then
    return (false, s)
  let (decoded, s) ← decodePulseDistanceWidthDatav3
    boseWaveProtocolConstants.distanceWidthTimingInfo boseWaveProtocolConstants.flags boseWaveBits
    irparams s
  if !decoded then
    return (false, s)
  -- stop bit
  if !matchMark (← irparams.raw (3 + 2 * boseWaveBits)) boseWaveBitMark then
    return (false, s)
  let tDecodedValue : BitVec 16 := s.decodedIRData.decodedRawData.setWidth 16
  let tCommandNotInverted : BitVec 8 := (tDecodedValue &&& 0xFF).setWidth 8
  let tCommandInverted : BitVec 8 := (tDecodedValue >>> 8).setWidth 8
  -- parity check for command
  if tCommandNotInverted ^^^ tCommandInverted ≠ 0xFF then
    return (false, s)
  let s ← checkForRepeatSpaceTicksAndSetFlag (boseWaveMaximumRepeatDistance / microsPerTick)
    irparams { s with
      decodedIRData.command := tCommandNotInverted.setWidth 16
      decodedIRData.numberOfBits := boseWaveBits
      decodedIRData.protocol := .boseWave }
  return (true, s)

/-! ## MagiQuest -/

def magiQuestChecksumBits : ℕ := 8
def magiQuestMagnitudeBits : ℕ := 9
def magiQuestWandIdBits : ℕ := 31
def magiQuestStartBits : ℕ := 8
def magiQuestPeriod : ℕ := 1150
def magiQuestBits : ℕ :=
  magiQuestChecksumBits + magiQuestMagnitudeBits + magiQuestWandIdBits + magiQuestStartBits
def magiQuestUnit : ℕ := magiQuestPeriod / 4
def magiQuestOneMark : ℕ := 2 * magiQuestUnit
def magiQuestOneSpace : ℕ := 2 * magiQuestUnit
def magiQuestZeroMark : ℕ := magiQuestUnit
def magiQuestZeroSpace : ℕ := 3 * magiQuestUnit

/-- `MagiQuestProtocolConstants`. -/
def magiQuestProtocolConstants : PulseDistanceWidthProtocolConstants where
  protocolIndex := .magiQuest
  frequencyKHz := 38
  distanceWidthTimingInfo :=
    ⟨magiQuestZeroMark, magiQuestZeroSpace, magiQuestOneMark, magiQuestOneSpace, magiQuestZeroMark,
      magiQuestZeroSpace⟩
  flags := protocolIsMsbFirst
  repeatPeriodMillis := 110
  specialSendRepeatFunction := none

/-- The sum of the bytes of a value, in 8 bits. -/
def byteSum (u : LongUnion) : BitVec 8 := u.lowByte + u.midLowByte + u.midHighByte + u.highByte

/-- `sendMagiQuest`. -/
def sendMagiQuest (aWandId : BitVec 32) (aMagnitude : BitVec 16) : List TxEvent :=
  let aMagnitude := aMagnitude &&& 0x1FF
  let tChecksum := byteSum (LongUnion.ofULong (aWandId <<< 1)) +
    (aMagnitude + (aMagnitude >>> 8)).setWidth 8
  let tChecksum := ~~~tChecksum + 1
  .enableIROut 38 ::
    -- 8 start bits
    sendPulseDistanceWidthDataV3 magiQuestProtocolConstants 0 8 ++
    -- 48 bit data
    sendPulseDistanceWidthDataV3 magiQuestProtocolConstants aWandId magiQuestWandIdBits ++
    sendPulseDistanceWidthDataV3 magiQuestProtocolConstants (aMagnitude.setWidth 32)
      magiQuestMagnitudeBits ++
    sendPulseDistanceWidthDataV3 magiQuestProtocolConstants (tChecksum.setWidth 32)
      magiQuestChecksumBits

/-- `tChecksum` of `decodeMagiQuest`, 0 for a correct frame. Of the third byte only one bit
was sent. -/
def magiQuestChecksum (tWandId : BitVec 32) (tDecodedRawData : LongUnion) : BitVec 8 :=
  byteSum (LongUnion.ofULong (tWandId <<< 1)) +
    (tDecodedRawData.midHighByte + tDecodedRawData.midLowByte + tDecodedRawData.lowByte)

/-- The frame `decodeMagiQuest` stores. The flag of a wrong checksum is overwritten, so
the checksum has no effect. -/
def magiQuestFields (tWandId : BitVec 32) (d : IRData) : IRData :=
  let tDecodedRawData := LongUnion.ofULong d.decodedRawData
  let d := { d with
    command := tDecodedRawData.midLowByte.setWidth 16 |||
      (tDecodedRawData.midHighByte.setWidth 16 <<< 8)
    flags :=
      if magiQuestChecksum tWandId tDecodedRawData ≠ 0 then d.flags ||| irdataFlagsParityFailed
      else d.flags }
  { d with
    decodedRawData := tWandId
    address := tWandId.setWidth 16
    extra := (tWandId >>> 16).setWidth 16
    protocol := .magiQuest
    numberOfBits := magiQuestBits
    flags := irdataFlagsIsMsbFirst }

/-- `decodeMagiQuest`. -/
def decodeMagiQuest : Decoder := fun irparams s => do
  if irparams.rawlen ≠ 2 * magiQuestBits then
    return (false, s)
  -- check for 8 zero header bits
  let (decoded, s) ← decodePulseDistanceWidthDatav2
    magiQuestProtocolConstants.distanceWidthTimingInfo magiQuestProtocolConstants.flags
    magiQuestStartBits 1 irparams s
  if !decoded then
    return (false, s)
  if s.decodedIRData.decodedRawData ≠ 0 then
    return (false, s)
  -- decode the 31 bit ID
  let (decoded, s) ← decodePulseDistanceWidthDatav2
    magiQuestProtocolConstants.distanceWidthTimingInfo magiQuestProtocolConstants.flags
    magiQuestWandIdBits (magiQuestStartBits * 2 + 1) irparams s
  if !decoded then
    return (false, s)
  let tWandId := s.decodedIRData.decodedRawData
  -- decode the 9 bit magnitude + 8 bit checksum
  let (decoded, s) ← decodePulseDistanceWidthDatav2
    magiQuestProtocolConstants.distanceWidthTimingInfo magiQuestProtocolConstants.flags
    (magiQuestMagnitudeBits + magiQuestChecksumBits)
    ((magiQuestWandIdBits + magiQuestStartBits) * 2 + 1) irparams s
  if !decoded then
    return (false, s)
  return (true, { s with decodedIRData := magiQuestFields tWandId s.decodedIRData })

/-- The checksum `decodeMagiQuest` computes of a frame. -/
def magiQuestFrameChecksum (irparams : IrParams) (s : DecodeState) : Option (BitVec 8) := do
  let (_, s) ← decodePulseDistanceWidthDatav2
    magiQuestProtocolConstants.distanceWidthTimingInfo magiQuestProtocolConstants.flags
    magiQuestWandIdBits (magiQuestStartBits * 2 + 1) irparams s
  let tWandId := s.decodedIRData.decodedRawData
  let (_, s) ← decodePulseDistanceWidthDatav2
    magiQuestProtocolConstants.distanceWidthTimingInfo magiQuestProtocolConstants.flags
    (magiQuestMagnitudeBits + magiQuestChecksumBits)
    ((magiQuestWandIdBits + magiQuestStartBits) * 2 + 1) irparams s
  return magiQuestChecksum tWandId (LongUnion.ofULong s.decodedIRData.decodedRawData)

/-! ## What the decoders do -/

variable {p q : IrParams} {s : DecodeState}

theorem decodeFAST_of_rawlen (h : p.rawlen ≠ 36) : decodeFAST p s = some (false, s) := by
  unfold decodeFAST
  exact if_pos h

theorem decodeWhynter_of_rawlen (h : p.rawlen ≠ 68) : decodeWhynter p s = some (false, s) := by
  unfold decodeWhynter
  exact if_pos h

theorem decodeWhynter_accepts (hlen : p.rawlen = 68)
    (hheader : checkHeader whynterProtocolConstants.distanceWidthTimingInfo p = some true) :
    ∃ s', decodeWhynter p s = some (true, s') := by
  obtain ⟨data, hbits⟩ := exists_decodeBits_bitValue p
    (show 3 + 2 * whynterBits ≤ rawBufferLength by decide) whynterBitMark whynterBitMark
    whynterOneSpace true
  have hdata : decodePulseDistanceWidthDatav3 whynterProtocolConstants.distanceWidthTimingInfo
      whynterProtocolConstants.flags whynterBits p s =
      some (true, { s with decodedIRData.decodedRawData := data }) :=
    decodePulseDistanceWidthData_eq hbits
  have hframe : ¬p.rawlen ≠ 2 * whynterBits + 4 := not_not.mpr hlen
  simp only [decodeWhynter, if_neg hframe, hheader, hdata, Option.bind_eq_bind, Option.bind_some,
    Bool.not_true, Bool.false_eq_true, if_false]
  exact ⟨_, rfl⟩

theorem decodeMagiQuest_of_rawlen (h : p.rawlen ≠ 112) : decodeMagiQuest p s = some (false, s) := by
  unfold decodeMagiQuest
  exact if_pos h

/-- A frame of 56 bits that starts with 8 zeros is decoded. -/
theorem decodeMagiQuest_frame {w data : BitVec 32} (hlen : p.rawlen = 112)
    (hstart : ∀ s, decodePulseDistanceWidthDatav2 magiQuestProtocolConstants.distanceWidthTimingInfo
      magiQuestProtocolConstants.flags 8 1 p s =
        some (true, { s with decodedIRData.decodedRawData := 0 }))
    (hwand : ∀ s, decodePulseDistanceWidthDatav2 magiQuestProtocolConstants.distanceWidthTimingInfo
      magiQuestProtocolConstants.flags 31 17 p s =
        some (true, { s with decodedIRData.decodedRawData := w }))
    (hdata : ∀ s, decodePulseDistanceWidthDatav2 magiQuestProtocolConstants.distanceWidthTimingInfo
      magiQuestProtocolConstants.flags 17 79 p s =
        some (true, { s with decodedIRData.decodedRawData := data })) :
    decodeMagiQuest p s = some (true, { s with
      decodedIRData := magiQuestFields w { s.decodedIRData with decodedRawData := data } }) := by
  have hframe : ¬p.rawlen ≠ 2 * magiQuestBits := not_not.mpr hlen
  simp only [decodeMagiQuest, if_neg hframe]
  simp only [magiQuestStartBits, magiQuestWandIdBits, magiQuestMagnitudeBits,
    magiQuestChecksumBits, Nat.reduceAdd, Nat.reduceMul, hstart, hwand, hdata,
    Option.bind_eq_bind, Option.bind_some, Bool.not_true, Bool.false_eq_true, if_false, ne_eq,
    not_true]
  rfl

theorem decodeLego_of_rawlen (h : p.rawlen ≠ 36) :
    decodeLegoPowerFunctions p s = some (false, s) := by
  obtain ⟨b, hb⟩ := exists_checkHeader legoProtocolConstants.distanceWidthTimingInfo p
  have hlen : p.rawlen ≠ 2 * legoBits + 4 := h
  cases b <;> simp [decodeLegoPowerFunctions, hb, hlen]

theorem decodeBoseWave_of_rawlen (h : p.rawlen ≠ 36) : decodeBoseWave p s = some (false, s) := by
  obtain ⟨b, hb⟩ := exists_checkHeader boseWaveProtocolConstants.distanceWidthTimingInfo p
  have hlen : p.rawlen ≠ 2 * boseWaveBits + 4 := h
  cases b <;> simp [decodeBoseWave, hb, hlen]

/-- The frame `decodeFAST` reads off its data. -/
def fastFields (data : BitVec 32) (d : IRData) : IRData :=
  { d with
    decodedRawData := data
    flags :=
      if (LongUnion.ofULong data).lowByte ≠ ~~~(LongUnion.ofULong data).midLowByte then
        irdataFlagsParityFailed
      else d.flags
    command := (LongUnion.ofULong data).lowByte.setWidth 16
    address := 0
    numberOfBits := fastBits
    protocol := .fast }

theorem decodeFAST_frame {g : ℕ} {data : BitVec 32} (hlen : p.rawlen = 36)
    (hheader : checkHeader fastProtocolConstants.distanceWidthTimingInfo p = some true)
    (hdata : ∀ s, decodePulseDistanceWidthDatav3 fastProtocolConstants.distanceWidthTimingInfo
      fastProtocolConstants.flags fastBits p s =
        some (true, { s with decodedIRData.decodedRawData := data }))
    (hg : p.raw 0 = some g) : decodeFAST p s = some (true, { s with
      decodedIRData := (fastFields data s.decodedIRData).afterGap g
        (fastMaximumRepeatDistance / microsPerTick) }) := by
  have hframe : ¬p.rawlen ≠ 2 * fastBits + 4 := not_not.mpr hlen
  simp only [decodeFAST, if_neg hframe, hheader, hdata, checkForRepeatSpaceTicksAndSetFlag_eq hg,
    Option.bind_eq_bind, Option.bind_some, Bool.not_true, Bool.false_eq_true, if_false]
  rfl

theorem decodeFAST_of_header (hlen : p.rawlen = 36)
    (hheader : checkHeader fastProtocolConstants.distanceWidthTimingInfo p = some false) :
    decodeFAST p s = some (false, s) := by
  have hframe : ¬p.rawlen ≠ 2 * fastBits + 4 := not_not.mpr hlen
  simp only [decodeFAST, if_neg hframe, hheader, Option.bind_eq_bind, Option.bind_some,
    Bool.not_false, if_true]
  rfl

theorem decodeLego_of_header
    (hheader : checkHeader legoProtocolConstants.distanceWidthTimingInfo p = some false) :
    decodeLegoPowerFunctions p s = some (false, s) := by
  simp [decodeLegoPowerFunctions, hheader]

theorem decodeLego_frame {g t : ℕ} {data : BitVec 32} (hlen : p.rawlen = 36)
    (hheader : checkHeader legoProtocolConstants.distanceWidthTimingInfo p = some true)
    (hdata : ∀ s, decodePulseDistanceWidthDatav3 legoProtocolConstants.distanceWidthTimingInfo
      legoProtocolConstants.flags legoBits p s =
        some (true, { s with decodedIRData.decodedRawData := data }))
    (ht : p.raw 35 = some t) (hstop : matchMark t legoBitMark = true) (hg : p.raw 0 = some g) :
    decodeLegoPowerFunctions p s = some (true, { s with
      decodedIRData := legoFields g { s.decodedIRData with decodedRawData := data } }) := by
  have hframe : ¬p.rawlen ≠ 2 * legoBits + 4 := not_not.mpr hlen
  have hlast : 3 + 2 * legoBits = 35 := rfl
  simp only [decodeLegoPowerFunctions, hheader, if_neg hframe, hdata, hlast, ht, hstop, hg,
    Option.bind_eq_bind, Option.bind_some, Bool.not_true, Bool.false_eq_true, if_false]
  rfl

/-- Without its stop mark the frame is refused. -/
theorem decodeLego_of_stop {t : ℕ} {data : BitVec 32} (hlen : p.rawlen = 36)
    (hheader : checkHeader legoProtocolConstants.distanceWidthTimingInfo p = some true)
    (hdata : ∀ s, decodePulseDistanceWidthDatav3 legoProtocolConstants.distanceWidthTimingInfo
      legoProtocolConstants.flags legoBits p s =
        some (true, { s with decodedIRData.decodedRawData := data }))
    (ht : p.raw 35 = some t) (hstop : matchMark t legoBitMark = false) :
    decodeLegoPowerFunctions p s =
      some (false, { s with decodedIRData.decodedRawData := data }) := by
  have hframe : ¬p.rawlen ≠ 2 * legoBits + 4 := not_not.mpr hlen
  have hlast : 3 + 2 * legoBits = 35 := rfl
  simp only [decodeLegoPowerFunctions, hheader, if_neg hframe, hdata, hlast, ht, hstop,
    Option.bind_eq_bind, Option.bind_some, Bool.not_true, Bool.not_false, Bool.false_eq_true,
    if_false, if_true]
  rfl

/-- The frame `decodeBoseWave` reads off its data. -/
def boseWaveFields (data : BitVec 32) (d : IRData) : IRData :=
  { d with
    decodedRawData := data
    command := (((data.setWidth 16 : BitVec 16) &&& 0xFF).setWidth 8 : BitVec 8).setWidth 16
    numberOfBits := boseWaveBits
    protocol := .boseWave }

/-- The second byte of a frame is the complement of the first. -/
theorem decodeBoseWave_frame {g t : ℕ} {data : BitVec 32} (hlen : p.rawlen = 36)
    (hheader : checkHeader boseWaveProtocolConstants.distanceWidthTimingInfo p = some true)
    (hdata : ∀ s, decodePulseDistanceWidthDatav3 boseWaveProtocolConstants.distanceWidthTimingInfo
      boseWaveProtocolConstants.flags boseWaveBits p s =
        some (true, { s with decodedIRData.decodedRawData := data }))
    (ht : p.raw 35 = some t) (hstop : matchMark t boseWaveBitMark = true)
    (hparity : ((data.setWidth 16 : BitVec 16) &&& 0xFF).setWidth 8 ^^^
      ((data.setWidth 16 : BitVec 16) >>> 8).setWidth 8 = 0xFF#8)
    (hg : p.raw 0 = some g) : decodeBoseWave p s = some (true, { s with
      decodedIRData := (boseWaveFields data s.decodedIRData).afterGap g
        (boseWaveMaximumRepeatDistance / microsPerTick) }) := by
  have hframe : ¬p.rawlen ≠ 2 * boseWaveBits + 4 := not_not.mpr hlen
  have hlast : 3 + 2 * boseWaveBits = 35 := rfl
  simp only [decodeBoseWave, hheader, if_neg hframe, hdata, hlast, ht, hstop, hparity,
    checkForRepeatSpaceTicksAndSetFlag_eq hg, Option.bind_eq_bind, Option.bind_some, Bool.not_true,
    Bool.false_eq_true, if_false, ne_eq]
  rfl

theorem SameFrame.decodeFAST (h : SameFrame p q) : decodeFAST p s = decodeFAST q s := by
  have hrawlen := h.rawlen
  by_cases hframe : p.rawlen = 36
  · have hdata : ∀ s, decodePulseDistanceWidthDatav3
        fastProtocolConstants.distanceWidthTimingInfo fastProtocolConstants.flags fastBits p s =
        decodePulseDistanceWidthDatav3 fastProtocolConstants.distanceWidthTimingInfo
          fastProtocolConstants.flags fastBits q s :=
      fun s => h.decodePulseDistanceWidthData (.inl (by rw [hframe]; decide))
    simp only [IrRemote.decodeFAST, h.rawlen, h.checkHeader (by omega), hdata,
      h.checkForRepeatSpaceTicksAndSetFlag (by omega)]
  · rw [decodeFAST_of_rawlen hframe, decodeFAST_of_rawlen (hrawlen ▸ hframe)]

theorem SameFrame.decodeWhynter (h : SameFrame p q) : decodeWhynter p s = decodeWhynter q s := by
  have hrawlen := h.rawlen
  by_cases hframe : p.rawlen = 68
  · have hdata : ∀ s, decodePulseDistanceWidthDatav3
        whynterProtocolConstants.distanceWidthTimingInfo whynterProtocolConstants.flags
        whynterBits p s = decodePulseDistanceWidthDatav3
        whynterProtocolConstants.distanceWidthTimingInfo whynterProtocolConstants.flags
        whynterBits q s :=
      fun s => h.decodePulseDistanceWidthData (.inl (by rw [hframe]; decide))
    simp only [IrRemote.decodeWhynter, h.rawlen, h.checkHeader (by omega), hdata]
  · rw [decodeWhynter_of_rawlen hframe, decodeWhynter_of_rawlen (hrawlen ▸ hframe)]

theorem SameFrame.decodeLegoPowerFunctions (h : SameFrame p q) :
    decodeLegoPowerFunctions p s = decodeLegoPowerFunctions q s := by
  have hrawlen := h.rawlen
  by_cases hframe : p.rawlen = 36
  · have hdata : ∀ s, decodePulseDistanceWidthDatav3
        legoProtocolConstants.distanceWidthTimingInfo legoProtocolConstants.flags legoBits p s =
        decodePulseDistanceWidthDatav3 legoProtocolConstants.distanceWidthTimingInfo
          legoProtocolConstants.flags legoBits q s :=
      fun s => h.decodePulseDistanceWidthData (.inl (by rw [hframe]; decide))
    have hstop : p.raw (3 + 2 * legoBits) = q.raw (3 + 2 * legoBits) :=
      h.raw _ (by rw [hframe]; decide)
    simp only [IrRemote.decodeLegoPowerFunctions, h.rawlen, h.checkHeader (by omega), hdata, hstop,
      h.raw 0 (by omega)]
  · rw [decodeLego_of_rawlen hframe, decodeLego_of_rawlen (hrawlen ▸ hframe)]

theorem SameFrame.decodeBoseWave (h : SameFrame p q) :
    decodeBoseWave p s = decodeBoseWave q s := by
  have hrawlen := h.rawlen
  by_cases hframe : p.rawlen = 36
  · have hdata : ∀ s, decodePulseDistanceWidthDatav3
        boseWaveProtocolConstants.distanceWidthTimingInfo boseWaveProtocolConstants.flags
        boseWaveBits p s = decodePulseDistanceWidthDatav3
        boseWaveProtocolConstants.distanceWidthTimingInfo boseWaveProtocolConstants.flags
        boseWaveBits q s :=
      fun s => h.decodePulseDistanceWidthData (.inl (by rw [hframe]; decide))
    have hstop : p.raw (3 + 2 * boseWaveBits) = q.raw (3 + 2 * boseWaveBits) :=
      h.raw _ (by rw [hframe]; decide)
    simp only [IrRemote.decodeBoseWave, h.rawlen, h.checkHeader (by omega), hdata, hstop,
      h.checkForRepeatSpaceTicksAndSetFlag (by omega)]
  · rw [decodeBoseWave_of_rawlen hframe, decodeBoseWave_of_rawlen (hrawlen ▸ hframe)]

theorem SameFrame.decodeMagiQuest (h : SameFrame p q) :
    decodeMagiQuest p s = decodeMagiQuest q s := by
  have hrawlen := h.rawlen
  by_cases hframe : p.rawlen = 112
  · -- a one and a zero differ in their marks, so the space behind the last mark is not read
    have hdata : ∀ n start s, start + 2 * n ≤ 113 →
        decodePulseDistanceWidthDatav2 magiQuestProtocolConstants.distanceWidthTimingInfo
          magiQuestProtocolConstants.flags n start p s =
        decodePulseDistanceWidthDatav2 magiQuestProtocolConstants.distanceWidthTimingInfo
          magiQuestProtocolConstants.flags n start q s :=
      fun n start s hle => h.decodePulseDistanceWidthData (.inr ⟨by decide, by omega⟩)
    simp only [IrRemote.decodeMagiQuest, h.rawlen, hdata magiQuestStartBits 1 _ (by decide),
      hdata magiQuestWandIdBits (magiQuestStartBits * 2 + 1) _ (by decide),
      hdata (magiQuestMagnitudeBits + magiQuestChecksumBits)
        ((magiQuestWandIdBits + magiQuestStartBits) * 2 + 1) _ (by decide)]
  · rw [decodeMagiQuest_of_rawlen hframe, decodeMagiQuest_of_rawlen (hrawlen ▸ hframe)]

theorem decodeFAST_ensures : Attempt.Ensures (fun s' => s'.decodedIRData.protocol = .fast)
    (· = s) (decodeFAST p s) := by
  unfold decodeFAST
  refine .ite (fun _ => .refuse rfl) fun _ => .bind fun _ _ => .ite (fun _ => .refuse rfl) fun _ =>
    .bind fun ⟨b, u⟩ hu => ?_
  obtain ⟨rfl, data, -, rfl⟩ := decodePulseDistanceWidthData_spec hu
  exact .ite (fun h => by simp at h) fun _ => .bind fun _ _ => .accept rfl

theorem decodeWhynter_ensures : Attempt.Ensures
    (fun s' => s'.decodedIRData.protocol = .whynter ∧ p.rawlen = 68 ∧
      checkHeader whynterProtocolConstants.distanceWidthTimingInfo p = some true)
    (· = s) (decodeWhynter p s) := by
  unfold decodeWhynter
  refine .ite (fun _ => .refuse rfl) fun hlen => .bind fun header hheader =>
    .ite (fun _ => .refuse rfl) fun hok => .bind fun ⟨b, u⟩ hu => ?_
  obtain ⟨rfl, data, -, rfl⟩ := decodePulseDistanceWidthData_spec hu
  refine .ite (fun h => by simp at h) fun _ => .accept ⟨rfl, not_not.mp hlen, ?_⟩
  simpa [hheader] using hok

/-- A refused frame may leave its data behind. -/
theorem decodeLegoPowerFunctions_ensures : Attempt.Ensures
    (fun s' => s'.decodedIRData.protocol = .legoPf)
    (fun s' => ∃ data, s' = { s with decodedIRData.decodedRawData := data })
    (decodeLegoPowerFunctions p s) := by
  unfold decodeLegoPowerFunctions
  refine .bind fun _ _ => .ite (fun _ => .refuse ⟨_, rfl⟩) fun _ =>
    .ite (fun _ => .refuse ⟨_, rfl⟩) fun _ => .bind fun ⟨b, u⟩ hu => ?_
  obtain ⟨rfl, data, -, rfl⟩ := decodePulseDistanceWidthData_spec hu
  exact .ite (fun h => by simp at h) fun _ => .bind fun _ _ =>
    .ite (fun _ => .refuse ⟨data, rfl⟩) fun _ => .bind fun _ _ => .accept rfl

theorem decodeBoseWave_ensures : Attempt.Ensures
    (fun s' => s'.decodedIRData.protocol = .boseWave)
    (fun s' => ∃ data, s' = { s with decodedIRData.decodedRawData := data })
    (decodeBoseWave p s) := by
  unfold decodeBoseWave
  refine .bind fun _ _ => .ite (fun _ => .refuse ⟨_, rfl⟩) fun _ =>
    .ite (fun _ => .refuse ⟨_, rfl⟩) fun _ => .bind fun ⟨b, u⟩ hu => ?_
  obtain ⟨rfl, data, -, rfl⟩ := decodePulseDistanceWidthData_spec hu
  refine .ite (fun h => by simp at h) fun _ => .bind fun _ _ =>
    .ite (fun _ => .refuse ⟨data, rfl⟩) fun _ => .ite (fun _ => .refuse ⟨data, rfl⟩) fun _ =>
    .bind fun u hu => ?_
  obtain ⟨flags, rfl⟩ := checkForRepeatSpaceTicksAndSetFlag_spec hu
  exact .accept rfl

theorem decodeMagiQuest_ensures : Attempt.Ensures
    (fun s' => s'.decodedIRData.protocol = .magiQuest)
    (fun s' => ∃ data, s' = { s with decodedIRData.decodedRawData := data })
    (decodeMagiQuest p s) := by
  unfold decodeMagiQuest
  refine .ite (fun _ => .refuse ⟨_, rfl⟩) fun _ => .bind fun ⟨b, u⟩ hu => ?_
  obtain ⟨rfl, data, -, rfl⟩ := decodePulseDistanceWidthData_spec hu
  refine .ite (fun h => by simp at h) fun _ => .ite (fun _ => .refuse ⟨data, rfl⟩) fun _ =>
    .bind fun ⟨b, u⟩ hu => ?_
  obtain ⟨rfl, data', -, rfl⟩ := decodePulseDistanceWidthData_spec hu
  refine .ite (fun h => by simp at h) fun _ => .bind fun ⟨b, u⟩ hu => ?_
  obtain ⟨rfl, data'', -, rfl⟩ := decodePulseDistanceWidthData_spec hu
  exact .ite (fun h => by simp at h) fun _ => .accept rfl

end IrRemote
