import IrRemote.Mid.LongUnion
import IrRemote.Mid.Matching
import IrRemote.Mid.Transmit

/-!
# Samsung, Samsung48 and SamsungLG

`Ir_Samsung.c`: a 16-bit address followed by a command of 16 bits, of 8 bits and its
complement, or, for Samsung48, of two such pairs.

## Main definitions

* `samsungRawData`, `sendSamsung`, `sendSamsung48`, `sendSamsungLG` — the senders
* `samsungFields`, `samsung48Fields` — the fields of a received frame
* `decodeSamsung` — the decoder of all three
* `samsungWord` — the 32 bits it reads off a frame

## Main results

* `decodeSamsung_frame`, `decodeSamsung_frame48` — the frames it reads off their data
* `decodeSamsung_ensures` — the protocols it decodes
-/

set_option autoImplicit false

namespace IrRemote

/-! ## Constants -/

def samsungKhz : ℕ := 38
def samsungAddressBits : ℕ := 16
def samsungCommand16Bits : ℕ := 16
def samsungCommand32Bits : ℕ := 32
def samsungBits : ℕ := samsungAddressBits + samsungCommand16Bits
def samsung48Bits : ℕ := samsungAddressBits + samsungCommand32Bits
def samsungUnit : ℕ := 560
def samsungHeaderMark : ℕ := 8 * samsungUnit
def samsungHeaderSpace : ℕ := 8 * samsungUnit
def samsungBitMark : ℕ := samsungUnit
def samsungOneSpace : ℕ := 3 * samsungUnit
def samsungZeroSpace : ℕ := samsungUnit
def samsungAverageDuration : ℕ := 55000
def samsungRepeatPeriod : ℕ := 110000
def samsungRepeatDistance : ℕ := samsungRepeatPeriod - samsungAverageDuration
def samsungMaximumRepeatDistance : ℕ := samsungRepeatDistance + samsungRepeatDistance / 4

/-- `sendSamsungLGSpecialRepeat`. -/
def sendSamsungLGSpecialRepeat : List TxEvent :=
  [.enableIROut samsungKhz, .mark samsungHeaderMark, .space samsungHeaderSpace,
    .mark samsungBitMark, .space samsungZeroSpace, .mark samsungBitMark]

/-- `SamsungProtocolConstants`. -/
def samsungProtocolConstants : PulseDistanceWidthProtocolConstants where
  protocolIndex := .samsung
  frequencyKHz := samsungKhz
  distanceWidthTimingInfo :=
    ⟨samsungHeaderMark, samsungHeaderSpace, samsungBitMark, samsungOneSpace, samsungBitMark,
      samsungZeroSpace⟩
  flags := protocolIsLsbFirst
  repeatPeriodMillis := samsungRepeatPeriod / 1000
  specialSendRepeatFunction := some sendSamsungLGSpecialRepeat

/-! ## Senders -/

/-- `sendSamsungLG`. -/
def sendSamsungLG (aAddress aCommand : BitVec 16) (aNumberOfRepeats : ℕ) : List TxEvent :=
  sendPulseDistanceWidthV1 samsungProtocolConstants
    (LongUnion.uLong {
      lowByte := aAddress.extractLsb' 0 8
      midLowByte := aAddress.extractLsb' 8 8
      midHighByte := aCommand.setWidth 8
      highByte := (~~~aCommand).setWidth 8 })
    samsungBits aNumberOfRepeats

/-- The word of `sendSamsung`: a command below 0x100 is followed by its complement. -/
def samsungRawData (aAddress aCommand : BitVec 16) : LongUnion where
  lowByte := aAddress.extractLsb' 0 8
  midLowByte := aAddress.extractLsb' 8 8
  midHighByte := aCommand.extractLsb' 0 8
  highByte :=
    if aCommand < 0x100 then ~~~(aCommand.extractLsb' 0 8) else aCommand.extractLsb' 8 8

/-- `sendSamsung`. -/
def sendSamsung (aAddress aCommand : BitVec 16) (aNumberOfRepeats : ℕ) : List TxEvent :=
  sendPulseDistanceWidthV1 samsungProtocolConstants (samsungRawData aAddress aCommand).uLong
    samsungBits aNumberOfRepeats

/-- `sendSamsung48`. The complement of the upper command byte is taken as an `int`. -/
def sendSamsung48 (aAddress : BitVec 16) (aCommand : BitVec 32) (aNumberOfRepeats : ℕ) :
    List TxEvent :=
  let tUpper8BitsOfCommand : BitVec 8 := (aCommand >>> 8).setWidth 8
  let tRawSamsungData : ℕ → BitVec 32
    | 0 => LongUnion.uLong {
        lowByte := aAddress.extractLsb' 0 8
        midLowByte := aAddress.extractLsb' 8 8
        midHighByte := aCommand.setWidth 8
        highByte := (~~~aCommand).setWidth 8 }
    | _ => tUpper8BitsOfCommand.setWidth 32 ||| (~~~(tUpper8BitsOfCommand.setWidth 32) <<< 8)
  sendPulseDistanceWidthFromArray samsungProtocolConstants tRawSamsungData samsung48Bits
    aNumberOfRepeats

/-! ## Decoder -/

/-- The Samsung32 end of `decodeSamsung`. -/
def samsungFields (tValue : LongUnion) (d : IRData) : IRData :=
  { d with
    command :=
      -- 8 bit or 16 bit command protocol
      if tValue.midHighByte = ~~~tValue.highByte then tValue.midHighByte.setWidth 16
      else tValue.highWord
    numberOfBits := samsungBits
    protocol := .samsung }

/-- The Samsung48 end of `decodeSamsung`, with the last 16 bits put in the low word. -/
def samsung48Fields (tValue : LongUnion) (d : IRData) : IRData :=
  let tValue := tValue.setLowWord (d.decodedRawData.setWidth 16)
  { d with
    flags :=
      if tValue.midHighByte ≠ ~~~tValue.highByte ∧ tValue.lowByte ≠ ~~~tValue.midLowByte then
        irdataFlagsParityFailed ||| irdataFlagsIsLsbFirst
      else d.flags
    -- low and high word are swapped here
    command := tValue.lowByte ++ tValue.midHighByte
    numberOfBits := samsung48Bits
    protocol := .samsung48 }

/-- `decodeSamsung`. -/
def decodeSamsung : Decoder := fun irparams s => do
  if irparams.rawlen ≠ 2 * samsungBits + 4 ∧ irparams.rawlen ≠ 2 * samsung48Bits + 4 ∧
      irparams.rawlen ≠ 6 then
    return (false, s)
  if !(← checkHeader samsungProtocolConstants.distanceWidthTimingInfo irparams) then
    return (false, s)
  -- check for SamsungLG style repeat
  if irparams.rawlen = 6 then
    return (true, { s with
      decodedIRData.flags := irdataFlagsIsRepeat ||| irdataFlagsIsLsbFirst
      decodedIRData.address := s.lastDecodedAddress.setWidth 16
      decodedIRData.command := s.lastDecodedCommand.setWidth 16
      decodedIRData.protocol := .samsungLg })
  -- decode first 32 bits
  let (decoded, s) ← decodePulseDistanceWidthDatav2
    samsungProtocolConstants.distanceWidthTimingInfo samsungProtocolConstants.flags samsungBits 3
    irparams s
  if !decoded then
    return (false, s)
  let tValue := LongUnion.ofULong s.decodedIRData.decodedRawData
  let s := { s with decodedIRData.address := tValue.lowWord }
  if irparams.rawlen = 2 * samsung48Bits + 4 then
    -- decode additional 16 bit
    let (decoded, s) ← decodePulseDistanceWidthDatav2
      samsungProtocolConstants.distanceWidthTimingInfo samsungProtocolConstants.flags
      (samsungCommand32Bits - samsungCommand16Bits) (3 + 2 * samsungBits) irparams s
    if !decoded then
      return (false, s)
    let s ← checkForRepeatSpaceTicksAndSetFlag (samsungMaximumRepeatDistance / microsPerTick)
      irparams { s with decodedIRData := samsung48Fields tValue s.decodedIRData }
    return (true, s)
  let s ← checkForRepeatSpaceTicksAndSetFlag (samsungMaximumRepeatDistance / microsPerTick)
    irparams { s with decodedIRData := samsungFields tValue s.decodedIRData }
  return (true, s)

/-! ## What the decoder does -/

variable {p q : IrParams} {s : DecodeState}

theorem decodeSamsung_of_rawlen (h₃₂ : p.rawlen ≠ 68) (h₄₈ : p.rawlen ≠ 100) (h : p.rawlen ≠ 6) :
    decodeSamsung p s = some (false, s) := by
  unfold decodeSamsung
  exact if_pos ⟨h₃₂, h₄₈, h⟩

/-- A frame of 32 bits with the header of the protocol is decoded. -/
theorem decodeSamsung_frame {g : ℕ} {data : BitVec 32} (hlen : p.rawlen = 68)
    (hheader : checkHeader samsungProtocolConstants.distanceWidthTimingInfo p = some true)
    (hbits : decodeBits (bitValue p samsungBitMark samsungBitMark samsungOneSpace) false
      samsungBits 3 0#32 1#32 = some data)
    (hgap : p.raw 0 = some g) : decodeSamsung p s = some (true, { s with
      decodedIRData := (samsungFields (LongUnion.ofULong data)
        { s.decodedIRData with
          decodedRawData := data
          address := (LongUnion.ofULong data).lowWord }).afterGap g
            (samsungMaximumRepeatDistance / microsPerTick) }) := by
  have hdata : decodePulseDistanceWidthDatav2 samsungProtocolConstants.distanceWidthTimingInfo
      samsungProtocolConstants.flags samsungBits 3 p s =
      some (true, { s with decodedIRData.decodedRawData := data }) :=
    decodePulseDistanceWidthData_eq hbits
  have hframe : ¬(p.rawlen ≠ 2 * samsungBits + 4 ∧ p.rawlen ≠ 2 * samsung48Bits + 4 ∧
      p.rawlen ≠ 6) := fun h => h.1 hlen
  have hlong : ¬p.rawlen = 2 * samsung48Bits + 4 := by
    rw [hlen]
    decide
  have hrepeat : ¬p.rawlen = 6 := by omega
  simp only [decodeSamsung, if_neg hframe, hheader, if_neg hrepeat, hdata, if_neg hlong,
    checkForRepeatSpaceTicksAndSetFlag_eq hgap, Option.bind_eq_bind, Option.bind_some,
    Bool.not_true, Bool.false_eq_true, if_false]
  rfl

/-- So is a frame of 48 bits. -/
theorem decodeSamsung_frame48 {g : ℕ} {data data' : BitVec 32} (hlen : p.rawlen = 100)
    (hheader : checkHeader samsungProtocolConstants.distanceWidthTimingInfo p = some true)
    (hdata : ∀ s, decodePulseDistanceWidthDatav2 samsungProtocolConstants.distanceWidthTimingInfo
      samsungProtocolConstants.flags 32 3 p s =
        some (true, { s with decodedIRData.decodedRawData := data }))
    (hdata' : ∀ s, decodePulseDistanceWidthDatav2 samsungProtocolConstants.distanceWidthTimingInfo
      samsungProtocolConstants.flags 16 67 p s =
        some (true, { s with decodedIRData.decodedRawData := data' }))
    (hgap : p.raw 0 = some g) : decodeSamsung p s = some (true, { s with
      decodedIRData := (samsung48Fields (LongUnion.ofULong data)
        { s.decodedIRData with
          decodedRawData := data'
          address := (LongUnion.ofULong data).lowWord }).afterGap g
            (samsungMaximumRepeatDistance / microsPerTick) }) := by
  have hframe : ¬(p.rawlen ≠ 2 * samsungBits + 4 ∧ p.rawlen ≠ 2 * samsung48Bits + 4 ∧
      p.rawlen ≠ 6) := fun h => h.2.1 hlen
  have hlong : p.rawlen = 2 * samsung48Bits + 4 := hlen
  have hrepeat : ¬p.rawlen = 6 := by omega
  have hrest : samsungCommand32Bits - samsungCommand16Bits = 16 := rfl
  have hbits : samsungBits = 32 := rfl
  simp only [decodeSamsung, if_neg hframe, hheader, if_neg hrepeat, if_pos hlong, hrest]
  simp only [hbits, hdata, hdata', checkForRepeatSpaceTicksAndSetFlag_eq hgap,
    Option.bind_eq_bind, Option.bind_some, Bool.not_true, Bool.false_eq_true, if_false]
  rfl

theorem decodeSamsung_accepts (hlen : p.rawlen = 68)
    (hheader : checkHeader samsungProtocolConstants.distanceWidthTimingInfo p = some true) :
    ∃ s', decodeSamsung p s = some (true, s') := by
  obtain ⟨g, hg⟩ := p.exists_raw (show 0 < rawBufferLength by decide)
  obtain ⟨data, hbits⟩ := exists_decodeBits_bitValue p
    (show 3 + 2 * samsungBits ≤ rawBufferLength by decide) samsungBitMark samsungBitMark
    samsungOneSpace false
  exact ⟨_, decodeSamsung_frame hlen hheader hbits hg⟩

theorem decodeSamsung_of_header
    (h : checkHeader samsungProtocolConstants.distanceWidthTimingInfo p = some false) :
    decodeSamsung p s = some (false, s) := by
  simp [decodeSamsung, h]

theorem checkHeader_of_decodeSamsung_refuse {s' : DecodeState} (hlen : p.rawlen = 68)
    (h : decodeSamsung p s = some (false, s')) :
    checkHeader samsungProtocolConstants.distanceWidthTimingInfo p = some false := by
  obtain ⟨b, hb⟩ := exists_checkHeader samsungProtocolConstants.distanceWidthTimingInfo p
  cases b with
  | false => exact hb
  | true =>
    obtain ⟨u, hu⟩ := decodeSamsung_accepts (s := s) hlen hb
    rw [h] at hu
    cases hu

theorem SameFrame.decodeSamsung (h : SameFrame p q) : decodeSamsung p s = decodeSamsung q s := by
  have hrawlen := h.rawlen
  have hdata : ∀ n start s, start + 2 * n ≤ p.rawlen →
      decodePulseDistanceWidthDatav2 samsungProtocolConstants.distanceWidthTimingInfo
        samsungProtocolConstants.flags n start p s =
      decodePulseDistanceWidthDatav2 samsungProtocolConstants.distanceWidthTimingInfo
        samsungProtocolConstants.flags n start q s :=
    fun n start s hle => h.decodePulseDistanceWidthData (.inl hle)
  by_cases h₃₂ : p.rawlen = 68
  · have hshort : ¬q.rawlen = 2 * samsung48Bits + 4 := by
      rw [← hrawlen, h₃₂]
      decide
    simp only [IrRemote.decodeSamsung, h.checkHeader (by omega), h.rawlen,
      hdata samsungBits 3 _ (by rw [h₃₂]; decide), hshort, if_false,
      h.checkForRepeatSpaceTicksAndSetFlag (by omega)]
  · by_cases h₄₈ : p.rawlen = 100
    · simp only [IrRemote.decodeSamsung, h.checkHeader (by omega), h.rawlen,
        hdata samsungBits 3 _ (by rw [h₄₈]; decide),
        hdata (samsungCommand32Bits - samsungCommand16Bits) (3 + 2 * samsungBits) _
          (by rw [h₄₈]; decide),
        h.checkForRepeatSpaceTicksAndSetFlag (by omega)]
    · by_cases hrepeat : p.rawlen = 6
      · simp only [IrRemote.decodeSamsung, h.checkHeader (by omega), ← h.rawlen, hrepeat, if_true]
      · rw [decodeSamsung_of_rawlen h₃₂ h₄₈ hrepeat,
          decodeSamsung_of_rawlen (hrawlen ▸ h₃₂) (hrawlen ▸ h₄₈) (hrawlen ▸ hrepeat)]

/-- The word of a frame of 32 bits with the timing of Samsung. -/
def samsungWord (p : IrParams) : Option (BitVec 32) :=
  decodeBits (bitValue p samsungBitMark samsungBitMark samsungOneSpace) false samsungBits 3 0#32
    1#32

/-- A frame of 32 bits is decoded as Samsung, and its command is read off its word. -/
theorem decodeSamsung_ensures : Attempt.Ensures
    (fun s' => s'.decodedIRData.protocol ∈ [DecodeType.samsung, .samsung48, .samsungLg] ∧
      (s'.decodedIRData.protocol = .samsung → ∃ w, samsungWord p = some w ∧
        s'.decodedIRData.command =
          (samsungFields (LongUnion.ofULong w) s.decodedIRData).command))
    (· = s) (decodeSamsung p s) := by
  unfold decodeSamsung
  refine .ite (fun _ => .refuse rfl) fun _ => .bind fun _ _ => .ite (fun _ => .refuse rfl) fun _ =>
    .ite (fun _ => .accept ?repeated) fun _ => .bind fun ⟨b, u⟩ hu => ?_
  case repeated => exact ⟨by simp, fun h => by simp at h⟩
  obtain ⟨rfl, data, hdata, rfl⟩ := decodePulseDistanceWidthData_spec hu
  refine .ite (fun h => by simp at h) fun _ => .ite (fun _ => ?long) fun _ => ?short
  case long =>
    refine .bind fun ⟨b, u⟩ hu => ?_
    obtain ⟨rfl, data', -, rfl⟩ := decodePulseDistanceWidthData_spec hu
    refine .ite (fun h => by simp at h) fun _ => .bind fun u hu => ?_
    obtain ⟨flags, rfl⟩ := checkForRepeatSpaceTicksAndSetFlag_spec hu
    exact .accept ⟨by simp [samsung48Fields], fun h => by simp [samsung48Fields] at h⟩
  case short =>
    refine .bind fun u hu => ?_
    obtain ⟨flags, rfl⟩ := checkForRepeatSpaceTicksAndSetFlag_spec hu
    exact .accept ⟨by simp [samsungFields], fun _ => ⟨data, hdata, rfl⟩⟩

end IrRemote
