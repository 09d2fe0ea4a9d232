import IrRemote.Mid.LongUnion
import IrRemote.Mid.Matching
import IrRemote.Mid.Transmit

/-!
# Kaseikyo

`Ir_kaseikyo.c`: 48 bits least significant first, of which the first 16 are a vendor
code. The decoder gives a protocol of its own to every vendor it knows.

## Main definitions

* `sendKaseikyo` — the sender, shared by all vendors
* `vendorProtocol` — the protocol of a vendor code
* `decodeKaseikyo` — the decoder

## Main results

* `decodeKaseikyo_frame` — the frame it reads off its data
* `decodeKaseikyo_ensures` — the protocols it decodes
-/

set_option autoImplicit false

namespace IrRemote

/-! ## Constants -/

def kaseikyoKhz : ℕ := 37
def kaseikyoVendorIdBits : ℕ := 16
def kaseikyoVendorIdParityBits : ℕ := 4
def kaseikyoAddressBits : ℕ := 12
def kaseikyoCommandBits : ℕ := 8
def kaseikyoParityBits : ℕ := 8
def kaseikyoBits : ℕ := kaseikyoVendorIdBits + kaseikyoVendorIdParityBits + kaseikyoAddressBits +
  kaseikyoCommandBits + kaseikyoParityBits
def kaseikyoUnit : ℕ := 432
def kaseikyoHeaderMark : ℕ := 8 * kaseikyoUnit
def kaseikyoHeaderSpace : ℕ := 4 * kaseikyoUnit
def kaseikyoBitMark : ℕ := kaseikyoUnit
def kaseikyoOneSpace : ℕ := 3 * kaseikyoUnit
def kaseikyoZeroSpace : ℕ := kaseikyoUnit
def kaseikyoAverageDuration : ℕ := 56000
def kaseikyoRepeatPeriod : ℕ := 130000
def kaseikyoRepeatDistance : ℕ := kaseikyoRepeatPeriod - kaseikyoAverageDuration
def kaseikyoMaximumRepeatDistance : ℕ := kaseikyoRepeatDistance + kaseikyoRepeatDistance / 4

def panasonicVendorIdCode : BitVec 16 := 0x2002
def denonVendorIdCode : BitVec 16 := 0x3254
def mitsubishiVendorIdCode : BitVec 16 := 0xCB23
def sharpVendorIdCode : BitVec 16 := 0x5AAA
def jvcVendorIdCode : BitVec 16 := 0x0103

/-- `KaseikyoProtocolConstants`. -/
def kaseikyoProtocolConstants : PulseDistanceWidthProtocolConstants where
  protocolIndex := .kaseikyo
  frequencyKHz := kaseikyoKhz
  distanceWidthTimingInfo :=
    ⟨kaseikyoHeaderMark, kaseikyoHeaderSpace, kaseikyoBitMark, kaseikyoOneSpace, kaseikyoBitMark,
      kaseikyoZeroSpace⟩
  flags := protocolIsLsbFirst
  repeatPeriodMillis := kaseikyoRepeatPeriod / 1000
  specialSendRepeatFunction := none

/-! ## Sender and decoder -/

/-- The 4-bit parity of a vendor code. -/
def vendorParity (vendorId : BitVec 16) : BitVec 8 :=
  let tVendorParity := (vendorId ^^^ (vendorId >>> 8)).setWidth 8
  (tVendorParity ^^^ (tVendorParity >>> 4)) &&& 0xF

/-- `sendKaseikyo`. -/
def sendKaseikyo (aAddress : BitVec 16) (aCommand : BitVec 8) (aNumberOfRepeats : ℕ)
    (aVendorCode : BitVec 16) : List TxEvent :=
  let lowWord : BitVec 16 :=
    (aAddress <<< kaseikyoVendorIdParityBits) ||| (vendorParity aVendorCode).setWidth 16
  let parity := aCommand ^^^ lowWord.extractLsb' 0 8 ^^^ lowWord.extractLsb' 8 8
  let tRawKaseikyoData : ℕ → BitVec 32
    | 0 => (lowWord.setWidth 32 <<< 16) ||| aVendorCode.setWidth 32
    | _ => (parity ++ aCommand).setWidth 32
  .enableIROut kaseikyoKhz ::
    sendPulseDistanceWidthFromArray kaseikyoProtocolConstants tRawKaseikyoData kaseikyoBits
      aNumberOfRepeats

/-- The protocol `decodeKaseikyo` gives to a vendor code. -/
def vendorProtocol (tVendorId : BitVec 16) : DecodeType :=
  if tVendorId = panasonicVendorIdCode then .panasonic
  else if tVendorId = sharpVendorIdCode then .kaseikyoSharp
  else if tVendorId = denonVendorIdCode then .kaseikyoDenon
  else if tVendorId = jvcVendorIdCode then .kaseikyoJvc
  else if tVendorId = mitsubishiVendorIdCode then .kaseikyoMitsubishi
  else .kaseikyo

/-- The flags `decodeKaseikyo` sets before the check for a repeat. -/
def kaseikyoFlags (flags : BitVec 8) (tVendorId : BitVec 16) (tValue : LongUnion) : BitVec 8 :=
  let tParity := tValue.lowByte ^^^ tValue.midLowByte ^^^ tValue.midHighByte
  let flags :=
    if vendorParity tVendorId ≠ tValue.lowByte &&& 0xF then
      irdataFlagsParityFailed ||| irdataFlagsIsLsbFirst
    else flags
  let flags :=
    if vendorProtocol tVendorId = .kaseikyo then flags ||| irdataFlagsExtraInfo else flags
  if tValue.highByte ≠ tParity then flags ||| irdataFlagsParityFailed else flags

/-- `decodeKaseikyo`. -/
def decodeKaseikyo : Decoder := fun irparams s => do
  if irparams.rawlen ≠ 2 * kaseikyoBits + 4 then
    return (false, s)
  if !(← checkHeader kaseikyoProtocolConstants.distanceWidthTimingInfo irparams) then
    return (false, s)
  -- decode first 16 vendor ID bits
  let (decoded, s) ← decodePulseDistanceWidthDatav2
    kaseikyoProtocolConstants.distanceWidthTimingInfo kaseikyoProtocolConstants.flags
    kaseikyoVendorIdBits 3 irparams s
  if !decoded then
    return (false, s)
  let tVendorId := s.decodedIRData.decodedRawData.setWidth 16
  -- decode next 32 bits, vendor parity + address + command + parity
  let (decoded, s) ← decodePulseDistanceWidthDatav2
    kaseikyoProtocolConstants.distanceWidthTimingInfo kaseikyoProtocolConstants.flags
    (kaseikyoVendorIdParityBits + kaseikyoAddressBits + kaseikyoCommandBits + kaseikyoParityBits)
    (3 + 2 * kaseikyoVendorIdBits) irparams s
  if !decoded then
    return (false, s)
  let tValue := LongUnion.ofULong s.decodedIRData.decodedRawData
  let s ← checkForRepeatSpaceTicksAndSetFlag (kaseikyoMaximumRepeatDistance / microsPerTick)
    irparams { s with
      decodedIRData.address := tValue.lowWord >>> kaseikyoVendorIdParityBits
      decodedIRData.command := tValue.midHighByte.setWidth 16
      decodedIRData.flags := kaseikyoFlags s.decodedIRData.flags tVendorId tValue
      decodedIRData.extra :=
        -- store (unknown) vendor ID
        if vendorProtocol tVendorId = .kaseikyo then tVendorId else s.decodedIRData.extra
      decodedIRData.numberOfBits := kaseikyoBits
      decodedIRData.protocol := vendorProtocol tVendorId }
  return (true, s)

/-! ## What the decoder does -/

variable {p q : IrParams} {s s' : DecodeState}

theorem decodeKaseikyo_of_rawlen (h : p.rawlen ≠ 100) : decodeKaseikyo p s = some (false, s) := by
  unfold decodeKaseikyo
  exact if_pos h

theorem decodeKaseikyo_of_header
    (h : checkHeader kaseikyoProtocolConstants.distanceWidthTimingInfo p = some false) :
    decodeKaseikyo p s = some (false, s) := by
  simp [decodeKaseikyo, h]

theorem SameFrame.decodeKaseikyo (h : SameFrame p q) : decodeKaseikyo p s = decodeKaseikyo q s := by
  have hrawlen := h.rawlen
  by_cases hframe : p.rawlen = 100
  · have hdata : ∀ n start s, start + 2 * n ≤ 100 →
        decodePulseDistanceWidthDatav2 kaseikyoProtocolConstants.distanceWidthTimingInfo
          kaseikyoProtocolConstants.flags n start p s =
        decodePulseDistanceWidthDatav2 kaseikyoProtocolConstants.distanceWidthTimingInfo
          kaseikyoProtocolConstants.flags n start q s :=
      fun n start s hle => h.decodePulseDistanceWidthData (.inl (hframe ▸ hle))
    simp only [IrRemote.decodeKaseikyo, h.rawlen, h.checkHeader (by omega),
      hdata kaseikyoVendorIdBits 3 _ (by decide),
      hdata (kaseikyoVendorIdParityBits + kaseikyoAddressBits + kaseikyoCommandBits +
        kaseikyoParityBits) (3 + 2 * kaseikyoVendorIdBits) _ (by decide),
      h.checkForRepeatSpaceTicksAndSetFlag (by omega)]
  · rw [decodeKaseikyo_of_rawlen hframe, decodeKaseikyo_of_rawlen (hrawlen ▸ hframe)]

/-- The frame of a vendor and of the 32 bits behind its code, after a gap. -/
def kaseikyoFields (tVendorId : BitVec 16) (data : BitVec 32) (d : IRData) : IRData :=
  let tValue := LongUnion.ofULong data
  { d with
    decodedRawData := data
    address := tValue.lowWord >>> kaseikyoVendorIdParityBits
    command := tValue.midHighByte.setWidth 16
    flags := kaseikyoFlags d.flags tVendorId tValue
    extra := if vendorProtocol tVendorId = .kaseikyo then tVendorId else d.extra
    numberOfBits := kaseikyoBits
    protocol := vendorProtocol tVendorId }

/-- A frame with the header of the protocol is decoded. -/
theorem decodeKaseikyo_frame {g : ℕ} {vendor data : BitVec 32} (hlen : p.rawlen = 100)
    (hheader : checkHeader kaseikyoProtocolConstants.distanceWidthTimingInfo p = some true)
    (hvendor : ∀ s, decodePulseDistanceWidthDatav2 kaseikyoProtocolConstants.distanceWidthTimingInfo
      kaseikyoProtocolConstants.flags 16 3 p s =
        some (true, { s with decodedIRData.decodedRawData := vendor }))
    (hdata : ∀ s, decodePulseDistanceWidthDatav2 kaseikyoProtocolConstants.distanceWidthTimingInfo
      kaseikyoProtocolConstants.flags 32 35 p s =
        some (true, { s with decodedIRData.decodedRawData := data }))
    (hg : p.raw 0 = some g) :
    decodeKaseikyo p s = some (true, { s with
      decodedIRData := (kaseikyoFields (vendor.setWidth 16) data s.decodedIRData).afterGap g
        (kaseikyoMaximumRepeatDistance / microsPerTick) }) := by
  have hframe : ¬p.rawlen ≠ 2 * kaseikyoBits + 4 := not_not.mpr hlen
  have hlong : kaseikyoVendorIdParityBits + kaseikyoAddressBits + kaseikyoCommandBits +
      kaseikyoParityBits = 32 := rfl
  have hshort : kaseikyoVendorIdBits = 16 := rfl
  simp only [decodeKaseikyo, if_neg hframe, hheader, hlong, hshort, hvendor, hdata,
    checkForRepeatSpaceTicksAndSetFlag_eq hg, Option.bind_eq_bind, Option.bind_some,
    Bool.not_true, Bool.false_eq_true, if_false]
  rfl

/-- The length and the header are all that `decodeKaseikyo` asks for. -/
theorem decodeKaseikyo_accepts (hlen : p.rawlen = 100)
    (hheader : checkHeader kaseikyoProtocolConstants.distanceWidthTimingInfo p = some true) :
    ∃ s', decodeKaseikyo p s = some (true, s') := by
  have hdata : ∀ n start, start + 2 * n ≤ rawBufferLength → ∃ data, ∀ s,
      decodePulseDistanceWidthDatav2 kaseikyoProtocolConstants.distanceWidthTimingInfo
        kaseikyoProtocolConstants.flags n start p s =
          some (true, { s with decodedIRData.decodedRawData := data }) := by
    intro n start h
    obtain ⟨data, hdata⟩ := exists_decodeBits_bitValue p h kaseikyoBitMark kaseikyoBitMark
      kaseikyoOneSpace false
    exact ⟨data, fun s => decodePulseDistanceWidthData_eq hdata⟩
  obtain ⟨vendor, hvendor⟩ := hdata 16 3 (by decide)
  obtain ⟨data, hdata⟩ := hdata 32 35 (by decide)
  obtain ⟨g, hg⟩ := p.exists_raw (show 0 < rawBufferLength by decide)
  exact ⟨_, decodeKaseikyo_frame hlen hheader hvendor hdata hg⟩

/-- The protocols of the vendors `decodeKaseikyo` knows. -/
def knownVendorProtocols : List DecodeType :=
  [.panasonic, .kaseikyoSharp, .kaseikyoDenon, .kaseikyoJvc, .kaseikyoMitsubishi]

theorem vendorProtocol_mem (v : BitVec 16) :
    vendorProtocol v ∈ knownVendorProtocols ∨ vendorProtocol v = .kaseikyo := by
  unfold vendorProtocol knownVendorProtocols
  split_ifs <;> simp

/-- The vendor codes `decodeKaseikyo` knows. -/
def knownVendorIdCodes : List (BitVec 16) :=
  [panasonicVendorIdCode, sharpVendorIdCode, denonVendorIdCode, jvcVendorIdCode,
    mitsubishiVendorIdCode]

theorem vendorProtocol_eq_kaseikyo_iff (v : BitVec 16) :
    vendorProtocol v = .kaseikyo ↔ v ∉ knownVendorIdCodes := by
  unfold vendorProtocol knownVendorIdCodes
  split_ifs <;> simp_all

/-- The vendor code of a frame, read off its first 16 spaces. -/
def kaseikyoVendor (irparams : IrParams) : Option (BitVec 16) :=
  (decodeBits (bitValue irparams kaseikyoBitMark kaseikyoBitMark kaseikyoOneSpace) false
    kaseikyoVendorIdBits 3 0#32 1#32).map (BitVec.setWidth 16)

/-- An accepted frame has the length and the header of the protocol, and its protocol is
that of its vendor. -/
theorem decodeKaseikyo_ensures : Attempt.Ensures
    (fun s' => p.rawlen = 100 ∧
      checkHeader kaseikyoProtocolConstants.distanceWidthTimingInfo p = some true ∧
      s'.decodedIRData.numberOfBits = kaseikyoBits ∧
      ∃ v, kaseikyoVendor p = some v ∧ s'.decodedIRData.protocol = vendorProtocol v)
    (· = s) (decodeKaseikyo p s) := by
  unfold decodeKaseikyo
  refine .ite (fun _ => .refuse rfl) fun hlen => .bind fun header hheader =>
    .ite (fun _ => .refuse rfl) fun hok => .bind fun ⟨b, u⟩ hu => ?_
  obtain ⟨rfl, v, hv, rfl⟩ := decodePulseDistanceWidthData_spec hu
  refine .ite (fun h => by simp at h) fun _ => .bind fun ⟨b, u⟩ hu => ?_
  obtain ⟨rfl, data, -, rfl⟩ := decodePulseDistanceWidthData_spec hu
  refine .ite (fun h => by simp at h) fun _ => .bind fun u hu => ?_
  obtain ⟨flags, rfl⟩ := checkForRepeatSpaceTicksAndSetFlag_spec hu
  refine .accept ⟨not_not.mp hlen, ?_, rfl, v.setWidth 16, ?_, rfl⟩
  · simpa [hheader] using hok
  · exact congrArg (Option.map _) hv

end IrRemote
