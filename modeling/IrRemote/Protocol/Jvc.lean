import IrRemote.Mid.Matching
import IrRemote.Mid.Transmit

/-!
# JVC

`Ir_JVC.c`: 16 bits least significant first. A repeat leaves out the header.

## Main definitions

* `sendJVC` — the sender
* `decodeJVC` — the decoder

## Main results

* `decodeJVC_frame` — a full frame is decoded
* `decodeJVC_ensures` — what it decodes
-/

set_option autoImplicit false

namespace IrRemote

/-! ## Constants -/

def jvcKhz : ℕ := 38
def jvcAddressBits : ℕ := 8
def jvcCommandBits : ℕ := 8
def jvcBits : ℕ := jvcAddressBits + jvcCommandBits
def jvcUnit : ℕ := 526
def jvcHeaderMark : ℕ := 16 * jvcUnit
def jvcHeaderSpace : ℕ := 8 * jvcUnit
def jvcBitMark : ℕ := jvcUnit
def jvcOneSpace : ℕ := 3 * jvcUnit
def jvcZeroSpace : ℕ := jvcUnit
def jvcRepeatDistance : ℕ := 45 * jvcUnit
def jvcRepeatPeriod : ℕ := 65000

/-- `JVCProtocolConstants`. -/
def jvcProtocolConstants : PulseDistanceWidthProtocolConstants where
  protocolIndex := .jvc
  frequencyKHz := jvcKhz
  distanceWidthTimingInfo :=
    ⟨jvcHeaderMark, jvcHeaderSpace, jvcBitMark, jvcOneSpace, jvcBitMark, jvcZeroSpace⟩
  flags := protocolIsLsbFirst
  repeatPeriodMillis := jvcRepeatPeriod / 1000
  specialSendRepeatFunction := none

/-! ## Sender and decoder -/

/-- `sendJVC`; the header is sent once. -/
def sendJVC (aAddress aCommand : BitVec 8) (aNumberOfRepeats : ℕ) : List TxEvent :=
  [.enableIROut jvcKhz, .mark jvcHeaderMark, .space jvcHeaderSpace] ++
    sendCommands
      (sendPulseDistanceWidthDataV3 jvcProtocolConstants
        (aAddress.setWidth 32 ||| (aCommand.setWidth 32 <<< jvcAddressBits)) jvcBits)
      [.delayMs (jvcRepeatDistance / 1000)] (aNumberOfRepeats + 1)

/-- The longest gap before a repeat. The division by the tick length binds to the
second summand only. -/
def jvcMaximumRepeatTicks : ℕ := jvcRepeatDistance + jvcRepeatDistance / 4 / microsPerTick

/-- `decodeJVC`; a frame of the length of a repeat is accepted even when it is none. -/
def decodeJVC : Decoder := fun irparams s => do
  if irparams.rawlen ≠ 2 * jvcBits + 2 ∧ irparams.rawlen ≠ 2 * jvcBits + 4 then
    return (false, s)
  if irparams.rawlen = 2 * jvcBits + 2 then
    -- check leading space and first and last mark length
    if (← irparams.raw 0) < jvcMaximumRepeatTicks ∧ matchMark (← irparams.raw 1) jvcBitMark ∧
        matchMark (← irparams.raw (irparams.rawlen - 1)) jvcBitMark then
      return (true, { s with
        decodedIRData.flags := irdataFlagsIsRepeat ||| irdataFlagsIsLsbFirst
        decodedIRData.address := s.lastDecodedAddress.setWidth 16
        decodedIRData.command := s.lastDecodedCommand.setWidth 16
        decodedIRData.protocol := .jvc })
    return (true, s)
  if !(← checkHeader jvcProtocolConstants.distanceWidthTimingInfo irparams) then
    return (false, s)
  let (decoded, s) ← decodePulseDistanceWidthDatav3 jvcProtocolConstants.distanceWidthTimingInfo
    jvcProtocolConstants.flags jvcBits irparams s
  if !decoded then
    return (false, s)
  let raw := s.decodedIRData.decodedRawData
  return (true, { s with
    decodedIRData.command := (raw >>> jvcAddressBits).setWidth 16
    decodedIRData.address := (raw &&& 0xFF).setWidth 16
    decodedIRData.numberOfBits := jvcBits
    decodedIRData.protocol := .jvc })

/-! ## What the decoder does -/

variable {p q : IrParams} {s : DecodeState}

theorem decodeJVC_of_rawlen (h : p.rawlen ≠ 34) (h' : p.rawlen ≠ 36) :
    decodeJVC p s = some (false, s) := by
  unfold decodeJVC
  exact if_pos ⟨h, h'⟩

/-- The frame `decodeJVC` reads off its data. -/
def jvcFields (data : BitVec 32) (d : IRData) : IRData :=
  { d with
    decodedRawData := data
    command := (data >>> jvcAddressBits).setWidth 16
    address := (data &&& 0xFF).setWidth 16
    numberOfBits := jvcBits
    protocol := .jvc }

/-- A full frame is decoded. -/
theorem decodeJVC_frame {data : BitVec 32} (hlen : p.rawlen = 36)
    (hheader : checkHeader jvcProtocolConstants.distanceWidthTimingInfo p = some true)
    (hdata : ∀ s, decodePulseDistanceWidthDatav3 jvcProtocolConstants.distanceWidthTimingInfo
      jvcProtocolConstants.flags jvcBits p s =
        some (true, { s with decodedIRData.decodedRawData := data })) :
    decodeJVC p s =
      some (true, { s with decodedIRData := jvcFields data s.decodedIRData }) := by
  have hframe : ¬(p.rawlen ≠ 2 * jvcBits + 2 ∧ p.rawlen ≠ 2 * jvcBits + 4) := fun h => h.2 hlen
  have hrepeat : ¬p.rawlen = 2 * jvcBits + 2 := by
    rw [hlen]
    decide
  simp only [decodeJVC, if_neg hframe, if_neg hrepeat, hheader, hdata, Option.bind_eq_bind,
    Option.bind_some, Bool.not_true, Bool.false_eq_true, if_false]
  rfl

theorem decodeJVC_of_header (hlen : p.rawlen = 36)
    (hheader : checkHeader jvcProtocolConstants.distanceWidthTimingInfo p = some false) :
    decodeJVC p s = some (false, s) := by
  have hframe : ¬(p.rawlen ≠ 2 * jvcBits + 2 ∧ p.rawlen ≠ 2 * jvcBits + 4) := fun h => h.2 hlen
  have hrepeat : ¬p.rawlen = 2 * jvcBits + 2 := by
    rw [hlen]
    decide
  simp only [decodeJVC, if_neg hframe, if_neg hrepeat, hheader, Option.bind_eq_bind,
    Option.bind_some, Bool.not_false, if_true]
  rfl

theorem SameFrame.decodeJVC (h : SameFrame p q) : decodeJVC p s = decodeJVC q s := by
  have hrawlen := h.rawlen
  by_cases hframe : p.rawlen = 34 ∨ p.rawlen = 36
  · have hlast : p.raw (q.rawlen - 1) = q.raw (q.rawlen - 1) := h.raw _ (by omega)
    by_cases hlong : p.rawlen = 36
    · have hdata : ∀ s, decodePulseDistanceWidthDatav3
          jvcProtocolConstants.distanceWidthTimingInfo jvcProtocolConstants.flags jvcBits p s =
          decodePulseDistanceWidthDatav3 jvcProtocolConstants.distanceWidthTimingInfo
            jvcProtocolConstants.flags jvcBits q s :=
        fun s => h.decodePulseDistanceWidthData (.inl (by rw [hlong]; decide))
      simp only [IrRemote.decodeJVC, h.rawlen, h.raw 0 (by omega), h.raw 1 (by omega), hlast,
        h.checkHeader (by omega), hdata]
    · have hshort : q.rawlen = 2 * jvcBits + 2 := by
        have hbits : 2 * jvcBits + 2 = 34 := by decide
        omega
      simp only [IrRemote.decodeJVC, h.rawlen, h.raw 0 (by omega), h.raw 1 (by omega), hlast]
      rw [if_pos hshort, if_pos hshort]
  · rw [not_or] at hframe
    obtain ⟨h₁, h₂⟩ := hframe
    rw [decodeJVC_of_rawlen h₁ h₂, decodeJVC_of_rawlen (hrawlen ▸ h₁) (hrawlen ▸ h₂)]

/-- An accepted frame is a repeat, a full frame, or of the length of a repeat and otherwise
not touched. -/
theorem decodeJVC_ensures : Attempt.Ensures
    (fun s' => s'.decodedIRData.protocol = .jvc ∨ s' = s) (· = s) (decodeJVC p s) := by
  unfold decodeJVC
  refine .ite (fun _ => .refuse rfl) fun _ => .ite (fun _ => ?repeated) fun _ => ?full
  case repeated =>
    exact .bind fun _ _ => .bind fun _ _ => .bind fun _ _ =>
      .ite (fun _ => .accept (.inl rfl)) fun _ => .accept (.inr rfl)
  case full =>
    refine .bind fun _ _ => .ite (fun _ => .refuse rfl) fun _ => .bind fun ⟨b, u⟩ hu => ?_
    obtain ⟨rfl, data, -, rfl⟩ := decodePulseDistanceWidthData_spec hu
    exact .ite (fun h => by simp at h) fun _ => .accept (.inl rfl)

end IrRemote
