import IrRemote.Mid.LongUnion
import IrRemote.Mid.Matching
import IrRemote.Mid.Transmit

/-!
# NEC, NEC2, Onkyo and Apple

`Ir_Nec.c`: 32 bits least significant first. NEC sends an address and its
complement or a 16-bit address, then a command and its complement; Onkyo sends 16
bits each; Apple sends a fixed address, a command and a device.

## Main definitions

* `sendNEC`, `sendNEC2`, `sendOnkyo`, `sendApple` — the senders
* `decodeNecValue` — the fields of a received word
* `decodeNec` — the decoder of all four

## Main results

* `decodeNec_frame_afterGap` — the frame it reads off its data, behind any gap
* `decodeNec_ensures` — what it accepts
-/

set_option autoImplicit false

namespace IrRemote

/-! ## Constants -/

def necKhz : ℕ := 38
def necBits : ℕ := 16 + 16
def necUnit : ℕ := 560
def necHeaderMark : ℕ := 16 * necUnit
def necHeaderSpace : ℕ := 8 * necUnit
def necBitMark : ℕ := necUnit
def necOneSpace : ℕ := 3 * necUnit
def necZeroSpace : ℕ := necUnit
def necRepeatHeaderSpace : ℕ := 4 * necUnit
def necMinimalDuration : ℕ := 49900
def necRepeatPeriod : ℕ := 110000
def necMaximumRepeatDistance : ℕ := necRepeatPeriod - necMinimalDuration + 10000
def appleAddress : BitVec 16 := 0x87EE

/-- `sendNECSpecialRepeat`. -/
def sendNECSpecialRepeat : List TxEvent :=
  [.enableIROut necKhz, .mark necHeaderMark, .space necRepeatHeaderSpace, .mark necBitMark]

/-- `NECProtocolConstants`. -/
def necProtocolConstants : PulseDistanceWidthProtocolConstants where
  protocolIndex := .nec
  frequencyKHz := necKhz
  distanceWidthTimingInfo :=
    ⟨necHeaderMark, necHeaderSpace, necBitMark, necOneSpace, necBitMark, necZeroSpace⟩
  flags := protocolIsLsbFirst
  repeatPeriodMillis := necRepeatPeriod / 1000
  specialSendRepeatFunction := some sendNECSpecialRepeat

/-- `NEC2ProtocolConstants`: repeats are full frames. -/
def nec2ProtocolConstants : PulseDistanceWidthProtocolConstants :=
  { necProtocolConstants with protocolIndex := .nec2, specialSendRepeatFunction := none }

/-! ## Senders -/

/-- `computeNECRawDataAndChecksum`. -/
def computeNECRawDataAndChecksum (aAddress aCommand : BitVec 16) : BitVec 32 :=
  let low := aAddress.setWidth 8
  LongUnion.uLong {
    lowByte := low
    midLowByte :=
      -- assume 8 bit address -> send 8 address bits and then 8 inverted address bits
      if aAddress &&& 0xFF00 = 0 then ~~~low else aAddress.extractLsb' 8 8
    midHighByte := aCommand.setWidth 8
    highByte := (~~~aCommand).setWidth 8 }

/-- `sendNEC`. -/
def sendNEC (aAddress : BitVec 16) (aCommand : BitVec 8) (aNumberOfRepeats : ℕ) : List TxEvent :=
  sendPulseDistanceWidthV1 necProtocolConstants
    (computeNECRawDataAndChecksum aAddress (aCommand.setWidth 16)) necBits aNumberOfRepeats

/-- `sendNEC2`. -/
def sendNEC2 (aAddress : BitVec 16) (aCommand : BitVec 8) (aNumberOfRepeats : ℕ) : List TxEvent :=
  sendPulseDistanceWidthV1 nec2ProtocolConstants
    (computeNECRawDataAndChecksum aAddress (aCommand.setWidth 16)) necBits aNumberOfRepeats

/-- `sendOnkyo`. -/
def sendOnkyo (aAddress aCommand : BitVec 16) (aNumberOfRepeats : ℕ) : List TxEvent :=
  sendPulseDistanceWidthV1 necProtocolConstants
    (aCommand.setWidth 32 <<< 16 ||| aAddress.setWidth 32) necBits aNumberOfRepeats

/-- `sendApple`. -/
def sendApple (aDeviceId aCommand : BitVec 8) (aNumberOfRepeats : ℕ) : List TxEvent :=
  sendPulseDistanceWidthV1 necProtocolConstants
    (LongUnion.uLong {
      lowByte := appleAddress.extractLsb' 0 8
      midLowByte := appleAddress.extractLsb' 8 8
      midHighByte := aCommand
      highByte := aDeviceId })
    necBits aNumberOfRepeats

/-- `sendNECRaw`. -/
def sendNECRaw (aRawData : BitVec 32) (aNumberOfRepeats : ℕ) : List TxEvent :=
  sendPulseDistanceWidthV1 necProtocolConstants aRawData necBits aNumberOfRepeats

/-! ## Decoder -/

/-- The protocol, address and command `decodeNec` reads off a received word. -/
def decodeNecValue (tValue : LongUnion) : DecodeType × BitVec 16 × BitVec 16 :=
  if tValue.lowWord = appleAddress then
    (.apple, tValue.highByte.setWidth 16, tValue.midHighByte.setWidth 16)
  else
    let address :=
      -- standard 8 bit address NEC protocol, or extended NEC protocol
      if tValue.lowByte = ~~~tValue.midLowByte then tValue.lowByte.setWidth 16 else tValue.lowWord
    if tValue.midHighByte = ~~~tValue.highByte then (.nec, address, tValue.midHighByte.setWidth 16)
    else (.onkyo, address, tValue.highWord)

/-- `decodeNec`. -/
def decodeNec : Decoder := fun irparams s => do
  if irparams.rawlen ≠ 2 * necBits + 4 ∧ irparams.rawlen ≠ 4 then
    return (false, s)
  if !matchMark (← irparams.raw 1) necHeaderMark then
    return (false, s)
  -- another header space length for the repeat
  if irparams.rawlen = 4 then
    if matchSpace (← irparams.raw 2) necRepeatHeaderSpace &&
        matchMark (← irparams.raw 3) necBitMark then
      return (true, { s with
        decodedIRData.flags := irdataFlagsIsRepeat ||| irdataFlagsIsLsbFirst
        decodedIRData.address := s.lastDecodedAddress.setWidth 16
        decodedIRData.command := s.lastDecodedCommand.setWidth 16
        decodedIRData.protocol := s.lastDecodedProtocol })
    return (false, s)
  if !matchSpace (← irparams.raw 2) necHeaderSpace then
    return (false, s)
  let (decoded, s) ← decodePulseDistanceWidthDatav3 necProtocolConstants.distanceWidthTimingInfo
    necProtocolConstants.flags necBits irparams s
  if !decoded then
    return (false, s)
  let (protocol, address, command) :=
    decodeNecValue (LongUnion.ofULong s.decodedIRData.decodedRawData)
  let s ← checkForRepeatSpaceTicksAndSetFlag (necMaximumRepeatDistance / microsPerTick) irparams
    { s with
      decodedIRData.protocol := protocol
      decodedIRData.address := address
      decodedIRData.command := command
      decodedIRData.numberOfBits := necBits }
  if s.decodedIRData.flags &&& irdataFlagsIsRepeat ≠ 0 then
    return (true, { s with decodedIRData.protocol := .nec2 })
  return (true, s)

/-! ## What the decoder does -/

variable {p q : IrParams} {s s' : DecodeState} {t : ℕ} {b : Bool}

theorem decodeNec_of_rawlen (h : p.rawlen ≠ 68) (h' : p.rawlen ≠ 4) :
    decodeNec p s = some (false, s) := by
  unfold decodeNec
  exact if_pos ⟨h, h'⟩

theorem decodeNec_of_mark (h : p.raw 1 = some t) (ht : matchMark t necHeaderMark = false) :
    decodeNec p s = some (false, s) := by
  simp [decodeNec, h, ht]

theorem decodeNec_of_space {u : ℕ} (hlen : p.rawlen = 68) (hu : p.raw 2 = some u)
    (hspace : matchSpace u necHeaderSpace = false) : decodeNec p s = some (false, s) := by
  obtain ⟨m, hm⟩ := p.exists_raw (show 1 < rawBufferLength by decide)
  simp [decodeNec, hlen, necBits, hm, hu, hspace]

/-- The frame of a word. -/
def necFields (data : BitVec 32) (d : IRData) : IRData :=
  let value := decodeNecValue (LongUnion.ofULong data)
  { d with
    decodedRawData := data
    protocol := value.1
    address := value.2.1
    command := value.2.2
    numberOfBits := necBits }

/-- The frame of a word behind a gap: behind a repeat distance it is one of NEC2. -/
def necFieldsAfterGap (data : BitVec 32) (gap : ℕ) (d : IRData) : IRData :=
  let d := (necFields data d).afterGap gap (necMaximumRepeatDistance / microsPerTick)
  if d.flags &&& irdataFlagsIsRepeat ≠ 0 then { d with protocol := .nec2 } else d

/-- A frame of 32 bits is decoded. -/
theorem decodeNec_frame_afterGap {u g : ℕ} {data : BitVec 32} (hlen : p.rawlen = 68)
    (ht : p.raw 1 = some t) (hmark : matchMark t necHeaderMark = true) (hu : p.raw 2 = some u)
    (hspace : matchSpace u necHeaderSpace = true)
    (hbits : decodeBits (bitValue p necBitMark necBitMark necOneSpace) false necBits 3 0#32 1#32 =
      some data)
    (hg : p.raw 0 = some g) :
    decodeNec p s =
      some (true, { s with decodedIRData := necFieldsAfterGap data g s.decodedIRData }) := by
  have hdata : decodePulseDistanceWidthDatav3 necProtocolConstants.distanceWidthTimingInfo
      necProtocolConstants.flags necBits p s =
      some (true, { s with decodedIRData.decodedRawData := data }) :=
    decodePulseDistanceWidthData_eq hbits
  have hframe : ¬(p.rawlen ≠ 2 * necBits + 4 ∧ p.rawlen ≠ 4) := fun h => h.1 hlen
  have hrepeat : ¬p.rawlen = 4 := by omega
  simp only [decodeNec, if_neg hframe, ht, hmark, if_neg hrepeat, hu, hspace, hdata,
    checkForRepeatSpaceTicksAndSetFlag_eq hg, Option.bind_eq_bind, Option.bind_some, Bool.not_true,
    Bool.false_eq_true, if_false, necFieldsAfterGap]
  by_cases hrepeated : ((necFields data s.decodedIRData).afterGap g
      (necMaximumRepeatDistance / microsPerTick)).flags &&& irdataFlagsIsRepeat ≠ 0
  · rw [if_pos hrepeated]
    exact if_pos hrepeated
  · rw [if_neg hrepeated]
    exact if_neg hrepeated

/-- It is no repeat when the gap before it is long enough. -/
theorem necFieldsAfterGap_of_le {data : BitVec 32} {g : ℕ} {d : IRData}
    (hgap : necMaximumRepeatDistance / microsPerTick ≤ g)
    (hflags : d.flags &&& irdataFlagsIsRepeat = 0) :
    necFieldsAfterGap data g d = necFields data d := by
  have hafter : (necFields data d).afterGap g (necMaximumRepeatDistance / microsPerTick) =
      necFields data d := by
    rw [IRData.afterGap, if_neg (Nat.not_lt.mpr hgap)]
  have hrepeat : ¬(necFields data d).flags &&& irdataFlagsIsRepeat ≠ 0 := not_not.mpr hflags
  rw [necFieldsAfterGap, hafter, if_neg hrepeat]

/-- Behind a repeat distance it is one. -/
theorem necFieldsAfterGap_of_lt {data : BitVec 32} {g : ℕ} {d : IRData}
    (hgap : g < necMaximumRepeatDistance / microsPerTick) :
    necFieldsAfterGap data g d = { necFields data d with
      protocol := .nec2
      flags := d.flags ||| irdataFlagsIsRepeat } := by
  have hafter : (necFields data d).afterGap g (necMaximumRepeatDistance / microsPerTick) =
      { necFields data d with flags := d.flags ||| irdataFlagsIsRepeat } := by
    rw [IRData.afterGap, if_pos hgap]
    rfl
  have hrepeat : (d.flags ||| irdataFlagsIsRepeat) &&& irdataFlagsIsRepeat ≠ 0 := by
    generalize d.flags = flags
    revert flags
    decide
  rw [necFieldsAfterGap, hafter, if_pos hrepeat]

theorem SameFrame.decodeNec (h : SameFrame p q) : decodeNec p s = decodeNec q s := by
  have hrawlen := h.rawlen
  by_cases hframe : p.rawlen = 68
  · have hdata : ∀ s, decodePulseDistanceWidthDatav3 necProtocolConstants.distanceWidthTimingInfo
        necProtocolConstants.flags necBits p s = decodePulseDistanceWidthDatav3
        necProtocolConstants.distanceWidthTimingInfo necProtocolConstants.flags necBits q s :=
      fun s => h.decodePulseDistanceWidthData (.inl (by rw [hframe]; decide))
    simp only [IrRemote.decodeNec, h.rawlen, h.raw 1 (by omega), h.raw 2 (by omega),
      h.raw 3 (by omega), hdata, h.checkForRepeatSpaceTicksAndSetFlag (by omega)]
  · by_cases hrepeat : p.rawlen = 4
    · have hq : q.rawlen = 4 := hrawlen ▸ hrepeat
      simp only [IrRemote.decodeNec, hrepeat, hq, h.raw 1 (by omega), h.raw 2 (by omega),
        h.raw 3 (by omega), if_true]
    · rw [decodeNec_of_rawlen hframe hrepeat,
        decodeNec_of_rawlen (hrawlen ▸ hframe) (hrawlen ▸ hrepeat)]

theorem decodeNecValue_protocol (u : LongUnion) :
    (decodeNecValue u).1 ∈ [DecodeType.nec, .nec2, .onkyo, .apple] := by
  unfold decodeNecValue
  split_ifs <;> simp

/-- An accepted frame is a repeat of the last command or a full frame of the family. -/
theorem decodeNec_ensures : Attempt.Ensures
    (fun s' => p.rawlen = 4 ∧ RepeatAnswer s s' ∨
      s'.decodedIRData.protocol ∈ [DecodeType.nec, .nec2, .onkyo, .apple])
    (· = s) (decodeNec p s) := by
  unfold decodeNec
  refine .ite (fun _ => .refuse rfl) fun _ => .bind fun headerMark _ =>
    .ite (fun _ => .refuse rfl) fun _ => .ite (fun hrepeat => ?repeated) fun _ => ?full
  case repeated =>
    exact .bind fun _ _ => .bind fun _ _ =>
      .ite (fun _ => .accept (.inl ⟨hrepeat, isRepeat_lsbFirst, rfl⟩)) fun _ => .refuse rfl
  case full =>
    refine .bind fun _ _ => .ite (fun _ => .refuse rfl) fun _ => .bind fun ⟨b, u⟩ hu => ?_
    obtain ⟨rfl, data, -, rfl⟩ := decodePulseDistanceWidthData_spec hu
    refine .ite (fun h => by simp at h) fun _ => .bind fun u hu => ?_
    obtain ⟨flags, rfl⟩ := checkForRepeatSpaceTicksAndSetFlag_spec hu
    refine .ite (fun _ => .accept (.inr ?_)) fun _ => .accept (.inr ?_)
    · simp
    · exact decodeNecValue_protocol _

end IrRemote
