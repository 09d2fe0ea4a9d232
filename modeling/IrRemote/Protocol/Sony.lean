import IrRemote.Mid.Matching
import IrRemote.Mid.Transmit

/-!
# Sony

`Ir_Sony.c`: the only pulse width protocol, with 12, 15 or 20 bits least significant
first and no stop mark.

## Main definitions

* `sendSony` — the sender
* `decodeSony` — the decoder

## Main results

* `decodeSony_of_header`, `decodeSony_of_rawlen` — the frames it refuses
* `decodeSony_frame` — the frame it reads off its data
* `decodeSony_ensures` — what it decodes
-/

set_option autoImplicit false

namespace IrRemote

/-! ## Constants -/

def sonyKhz : ℕ := 40
def sonyAddressBits : ℕ := 5
def sonyCommandBits : ℕ := 7
def sonyExtraBits : ℕ := 8
def sonyBitsMin : ℕ := sonyCommandBits + sonyAddressBits
def sonyBits15 : ℕ := sonyCommandBits + sonyAddressBits + 3
def sonyBitsMax : ℕ := sonyCommandBits + sonyAddressBits + sonyExtraBits
def sonyUnit : ℕ := 600
def sonyHeaderMark : ℕ := 4 * sonyUnit
def sonyOneMark : ℕ := 2 * sonyUnit
def sonyZeroMark : ℕ := sonyUnit
def sonySpace : ℕ := sonyUnit
def sonyAverageDurationMin : ℕ := 21000
def sonyRepeatPeriod : ℕ := 45000
def sonyMaximumRepeatDistance : ℕ := sonyRepeatPeriod - sonyAverageDurationMin

/-- `SonyProtocolConstants`. -/
def sonyProtocolConstants : PulseDistanceWidthProtocolConstants where
  protocolIndex := .sony
  frequencyKHz := sonyKhz
  distanceWidthTimingInfo :=
    ⟨sonyHeaderMark, sonySpace, sonyOneMark, sonySpace, sonyZeroMark, sonySpace⟩
  flags := protocolIsLsbFirst
  repeatPeriodMillis := sonyRepeatPeriod / 1000
  specialSendRepeatFunction := none

/-! ## Sender and decoder -/

/-- `sendSony`. -/
def sendSony (aAddress : BitVec 16) (aCommand : BitVec 8) (aNumberOfRepeats numberOfBits : ℕ) :
    List TxEvent :=
  sendPulseDistanceWidthV1 sonyProtocolConstants
    ((aAddress.setWidth 32 <<< 7) ||| (aCommand &&& 0x7F).setWidth 32) numberOfBits
    aNumberOfRepeats

/-- `decodeSony`; the header is checked before the length. -/
def decodeSony : Decoder := fun irparams s => do
  if !(← checkHeader sonyProtocolConstants.distanceWidthTimingInfo irparams) then
    return (false, s)
  if irparams.rawlen ≠ 2 * sonyBitsMin + 2 ∧ irparams.rawlen ≠ 2 * sonyBitsMax + 2 ∧
      irparams.rawlen ≠ 2 * sonyBits15 + 2 then
    return (false, s)
  let (decoded, s) ← decodePulseDistanceWidthDatav2 sonyProtocolConstants.distanceWidthTimingInfo
    sonyProtocolConstants.flags ((irparams.rawlen - 1) / 2) 3 irparams s
  if !decoded then
    return (false, s)
  let raw := s.decodedIRData.decodedRawData
  let s ← checkForRepeatSpaceTicksAndSetFlag (sonyMaximumRepeatDistance / microsPerTick) irparams
    { s with
      decodedIRData.command := (raw &&& 0x7F).setWidth 16
      decodedIRData.address := (raw >>> 7).setWidth 16
      decodedIRData.numberOfBits := (irparams.rawlen - 1) / 2
      decodedIRData.protocol := .sony }
  return (true, s)

/-! ## What the decoder does -/

variable {p q : IrParams} {s : DecodeState}

theorem decodeSony_of_header
    (h : checkHeader sonyProtocolConstants.distanceWidthTimingInfo p = some false) :
    decodeSony p s = some (false, s) := by
  simp [decodeSony, h]

/-- A frame of another length is refused, whatever the header check reads. -/
theorem decodeSony_of_rawlen (h₁₂ : p.rawlen ≠ 26) (h₁₅ : p.rawlen ≠ 32) (h₂₀ : p.rawlen ≠ 42) :
    decodeSony p s = some (false, s) := by
  obtain ⟨b, hb⟩ := exists_checkHeader sonyProtocolConstants.distanceWidthTimingInfo p
  cases b
  · exact decodeSony_of_header hb
  · simp [decodeSony, hb, sonyBitsMin, sonyBits15, sonyBitsMax, sonyCommandBits, sonyAddressBits,
      sonyExtraBits, h₁₂, h₁₅, h₂₀]

/-- A frame with the header of the protocol is decoded. -/
theorem decodeSony_frame {n g : ℕ} {data : BitVec 32} (hn : n ∈ [12, 15, 20])
    (hlen : p.rawlen = 2 * n + 2)
    (hheader : checkHeader sonyProtocolConstants.distanceWidthTimingInfo p = some true)
    (hdata : ∀ s, decodePulseDistanceWidthDatav2 sonyProtocolConstants.distanceWidthTimingInfo
      sonyProtocolConstants.flags n 3 p s =
        some (true, { s with decodedIRData.decodedRawData := data }))
    (hg : p.raw 0 = some g) :
    ∃ flags, decodeSony p s = some (true, { s with
      decodedIRData := { s.decodedIRData with
        decodedRawData := data
        command := (data &&& 0x7F#32).setWidth 16
        address := (data >>> 7).setWidth 16
        numberOfBits := n
        protocol := .sony
        flags := flags } }) := by
  -- one of the three lengths is met
  have hframe : ¬(p.rawlen ≠ 2 * sonyBitsMin + 2 ∧ p.rawlen ≠ 2 * sonyBitsMax + 2 ∧
      p.rawlen ≠ 2 * sonyBits15 + 2) := by
    have hlengths : sonyBitsMin = 12 ∧ sonyBitsMax = 20 ∧ sonyBits15 = 15 := ⟨rfl, rfl, rfl⟩
    simp only [List.mem_cons, List.not_mem_nil, or_false] at hn
    omega
  have hbits : (p.rawlen - 1) / 2 = n := by omega
  simp only [decodeSony, hheader, if_neg hframe, hbits, hdata,
    checkForRepeatSpaceTicksAndSetFlag_eq hg, Option.bind_eq_bind, Option.bind_some,
    Bool.not_true, Bool.false_eq_true, if_false]
  exact ⟨_, rfl⟩

theorem SameFrame.decodeSony (h : SameFrame p q) : decodeSony p s = decodeSony q s := by
  have hrawlen := h.rawlen
  by_cases hframe : p.rawlen = 26 ∨ p.rawlen = 32 ∨ p.rawlen = 42
  · have hdata : ∀ s, decodePulseDistanceWidthDatav2 sonyProtocolConstants.distanceWidthTimingInfo
        sonyProtocolConstants.flags ((q.rawlen - 1) / 2) 3 p s =
        decodePulseDistanceWidthDatav2 sonyProtocolConstants.distanceWidthTimingInfo
          sonyProtocolConstants.flags ((q.rawlen - 1) / 2) 3 q s :=
      -- the space behind the last mark is not read
      fun s => h.decodePulseDistanceWidthData (.inr ⟨by decide, by omega⟩)
    simp only [IrRemote.decodeSony, h.checkHeader (by omega), h.rawlen, hdata,
      h.checkForRepeatSpaceTicksAndSetFlag (by omega)]
  · rw [not_or, not_or] at hframe
    obtain ⟨h₁₂, h₁₅, h₂₀⟩ := hframe
    rw [decodeSony_of_rawlen h₁₂ h₁₅ h₂₀,
      decodeSony_of_rawlen (hrawlen ▸ h₁₂) (hrawlen ▸ h₁₅) (hrawlen ▸ h₂₀)]

theorem decodeSony_ensures : Attempt.Ensures (fun s' => s'.decodedIRData.protocol = .sony)
    (· = s) (decodeSony p s) := by
  unfold decodeSony
  refine .bind fun header _ => .ite (fun _ => .refuse rfl) fun _ =>
    .ite (fun _ => .refuse rfl) fun _ => .bind fun ⟨b, u⟩ hu => ?_
  obtain ⟨rfl, data, -, rfl⟩ := decodePulseDistanceWidthData_spec hu
  refine .ite (fun h => by simp at h) fun _ => .bind fun u hu => ?_
  obtain ⟨flags, rfl⟩ := checkForRepeatSpaceTicksAndSetFlag_spec hu
  exact .accept rfl

end IrRemote
