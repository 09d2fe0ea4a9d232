import IrRemote.Mid.Matching
import IrRemote.Mid.Transmit

/-!
# Denon and Sharp

`Ir_Denon.c`: 15 bits least significant first without a header, sent twice, the
second time with the command and the frame bits inverted. The decoder recognises a
frame by its length and its stop mark.

## Main definitions

* `sendDenon`, `sendSharp` — the senders
* `denonFields` — what a received frame stands for
* `decodeDenon` — the decoder of both

## Main results

* `decodeDenon_of_rawlen`, `exists_decodeDenon` — all it checks of a frame
* `decodeDenon_ensures` — the protocols it decodes
-/

set_option autoImplicit false

namespace IrRemote

/-! ## Constants -/

def denonKhz : ℕ := 38
def denonAddressBits : ℕ := 5
def denonCommandBits : ℕ := 8
def denonFrameBits : ℕ := 2
def denonBits : ℕ := denonAddressBits + denonCommandBits + denonFrameBits
def denonUnit : ℕ := 260
def denonBitMark : ℕ := denonUnit
def denonOneSpace : ℕ := 7 * denonUnit
def denonZeroSpace : ℕ := 3 * denonUnit
def denonAutoRepeatDistance : ℕ := 45000
def denonRepeatPeriod : ℕ := 110000
def denonHeaderMark : ℕ := denonUnit
def denonHeaderSpace : ℕ := 3 * denonUnit

/-- `DenonProtocolConstants`. -/
def denonProtocolConstants : PulseDistanceWidthProtocolConstants where
  protocolIndex := .denon
  frequencyKHz := denonKhz
  distanceWidthTimingInfo :=
    ⟨denonHeaderMark, denonHeaderSpace, denonBitMark, denonOneSpace, denonBitMark, denonZeroSpace⟩
  flags := protocolIsLsbFirst
  repeatPeriodMillis := denonRepeatPeriod / 1000
  specialSendRepeatFunction := none

/-! ## Sender -/

/-- `sendDenon`; the command counter is a byte. -/
def sendDenon (aAddress aCommand : BitVec 8) (aNumberOfRepeats : ℕ) (aSendSharp : Bool) :
    List TxEvent :=
  let tCommand : BitVec 16 := aCommand.setWidth 16
  -- the 2 upper bits are 00 for Denon and 10 for Sharp
  let tCommand := if aSendSharp then tCommand ||| 0x0200 else tCommand
  let tData : BitVec 16 := aAddress.setWidth 16 ||| (tCommand <<< denonAddressBits)
  let tInvertedData := tData ^^^ 0x7FE0
  let pause : List TxEvent := [.delayMs (denonAutoRepeatDistance / 1000)]
  .enableIROut denonKhz ::
    sendCommands
      (sendPulseDistanceWidthDataV3 denonProtocolConstants (tData.setWidth 32) denonBits ++ pause ++
        sendPulseDistanceWidthDataV3 denonProtocolConstants (tInvertedData.setWidth 32) denonBits)
      pause ((aNumberOfRepeats + 1) % 256)

/-- `sendSharp`. -/
def sendSharp (aAddress aCommand : BitVec 8) (aNumberOfRepeats : ℕ) : List TxEvent :=
  sendDenon aAddress aCommand aNumberOfRepeats true

/-! ## Decoder -/

/-- The end of `decodeDenon`: a frame close to its predecessor is a repeat, and one with
inverted bits is the automatic one, which is checked against the last command. -/
def denonFields (gap : ℕ) (s : DecodeState) : DecodeState :=
  let raw := s.decodedIRData.decodedRawData
  let command : BitVec 16 := (raw >>> denonAddressBits).setWidth 16
  let tFrameBits := (command >>> 8) &&& 0x03
  let command := command &&& 0xFF
  let s := { s with
    decodedIRData.address := (raw &&& 0x1F).setWidth 16
    decodedIRData.command := command
    decodedIRData.numberOfBits := denonBits }
  if gap < (denonAutoRepeatDistance + denonAutoRepeatDistance / 4) / microsPerTick then
    let repeatCount := s.repeatCount + 1
    let flags := if 1 < repeatCount then irdataFlagsIsRepeat else s.decodedIRData.flags
    let inverted := tFrameBits &&& 0x01 ≠ 0
    let flags := if inverted then flags ||| irdataFlagsIsAutoRepeat else flags
    let parityFailed := inverted ∧ s.lastDecodedCommand.setWidth 8 ≠ (~~~command).setWidth 8
    { s with
      repeatCount := repeatCount
      decodedIRData.flags := if parityFailed then flags ||| irdataFlagsParityFailed else flags
      -- always take non inverted command
      decodedIRData.command :=
        if inverted then s.lastDecodedCommand.setWidth 16 else command
      decodedIRData.protocol := if tFrameBits = 1 ∨ tFrameBits = 2 then .sharp else .denon }
  else
    { s with
      repeatCount := 0
      decodedIRData.protocol := if tFrameBits = 2 then .sharp else .denon }

/-- `decodeDenon`. -/
def decodeDenon : Decoder := fun irparams s => do
  -- no start bit, so check for the exact amount of data bits
  if irparams.rawlen ≠ 2 * denonBits + 2 then
    return (false, s)
  let (decoded, s') ← decodePulseDistanceWidthDatav2
    denonProtocolConstants.distanceWidthTimingInfo denonProtocolConstants.flags denonBits 1
    irparams s
  if !decoded then
    return (false, s')
  -- check for stop mark
  if !matchMark (← irparams.raw (2 * denonBits + 1)) denonHeaderMark then
    return (false, s')
  return (true, denonFields (← irparams.raw 0) s')

/-! ## What the decoder does -/

variable {p q : IrParams} {s s' : DecodeState} {t : ℕ}

theorem decodeDenon_of_rawlen (h : p.rawlen ≠ 32) : decodeDenon p s = some (false, s) := by
  unfold decodeDenon
  exact if_pos h

/-- A frame with a stop mark is decoded. -/
theorem decodeDenon_frame {g : ℕ} {data : BitVec 32} (hlen : p.rawlen = 32)
    (hdata : ∀ s, decodePulseDistanceWidthDatav2 denonProtocolConstants.distanceWidthTimingInfo
      denonProtocolConstants.flags denonBits 1 p s =
        some (true, { s with decodedIRData.decodedRawData := data }))
    (ht : p.raw 31 = some t) (hstop : matchMark t denonHeaderMark = true)
    (hg : p.raw 0 = some g) :
    decodeDenon p s =
      some (true, denonFields g { s with decodedIRData.decodedRawData := data }) := by
  have hframe : ¬p.rawlen ≠ 2 * denonBits + 2 := not_not.mpr hlen
  have hlast : 2 * denonBits + 1 = 31 := rfl
  simp only [decodeDenon, if_neg hframe, hdata, hlast, ht, hstop, hg, Option.bind_eq_bind,
    Option.bind_some, Bool.not_true, Bool.false_eq_true, if_false]
  rfl

/-- Of a frame of the right length only the last mark is checked. -/
theorem exists_decodeDenon (hlen : p.rawlen = 32) (ht : p.raw 31 = some t) {g : ℕ}
    (hg : p.raw 0 = some g) : ∃ data, decodeDenon p s =
      if matchMark t denonHeaderMark then
        some (true, denonFields g { s with decodedIRData.decodedRawData := data })
      else some (false, { s with decodedIRData.decodedRawData := data }) := by
  have hframe : ¬p.rawlen ≠ 2 * denonBits + 2 := not_not.mpr hlen
  have hbits : 1 + 2 * denonBits ≤ rawBufferLength := by decide
  obtain ⟨data, hdata⟩ := exists_decodeBits_bitValue p hbits denonBitMark denonBitMark denonOneSpace
    (decide (denonProtocolConstants.flags ≠ 0))
  have hdecode : decodePulseDistanceWidthDatav2 denonProtocolConstants.distanceWidthTimingInfo
      denonProtocolConstants.flags denonBits 1 p s =
      some (true, { s with decodedIRData.decodedRawData := data }) :=
    decodePulseDistanceWidthData_eq hdata
  refine ⟨data, ?_⟩
  simp only [decodeDenon, if_neg hframe, hdecode, show 2 * denonBits + 1 = 31 from rfl, ht, hg,
    Option.bind_eq_bind, Option.bind_some]
  cases matchMark t denonHeaderMark <;> rfl

theorem SameFrame.decodeDenon (h : SameFrame p q) : decodeDenon p s = decodeDenon q s := by
  have hrawlen := h.rawlen
  by_cases hframe : p.rawlen = 32
  · have hdata : ∀ s, decodePulseDistanceWidthDatav2
        denonProtocolConstants.distanceWidthTimingInfo
          denonProtocolConstants.flags denonBits 1 p s =
        decodePulseDistanceWidthDatav2 denonProtocolConstants.distanceWidthTimingInfo
          denonProtocolConstants.flags denonBits 1 q s :=
      fun s => h.decodePulseDistanceWidthData (.inl (by rw [hframe]; decide))
    have hstop : p.raw (2 * denonBits + 1) = q.raw (2 * denonBits + 1) :=
      h.raw _ (by rw [hframe]; decide)
    simp only [IrRemote.decodeDenon, h.rawlen, hdata, hstop, h.raw 0 (by omega)]
  · rw [decodeDenon_of_rawlen hframe, decodeDenon_of_rawlen (hrawlen ▸ hframe)]

theorem denonFields_protocol (gap : ℕ) (s : DecodeState) :
    (denonFields gap s).decodedIRData.protocol ∈ [DecodeType.denon, .sharp] := by
  unfold denonFields
  split_ifs <;> simp only <;> split_ifs <;> simp

/-- A refused frame may leave its data behind. -/
theorem decodeDenon_ensures : Attempt.Ensures
    (fun s' => s'.decodedIRData.protocol ∈ [DecodeType.denon, .sharp])
    (fun s' => ∃ data, s' = { s with decodedIRData.decodedRawData := data })
    (decodeDenon p s) := by
  unfold decodeDenon
  refine .ite (fun _ => .refuse ⟨_, rfl⟩) fun _ => .bind fun ⟨b, u⟩ hu => ?_
  obtain ⟨rfl, data, -, rfl⟩ := decodePulseDistanceWidthData_spec hu
  refine .ite (fun h => by simp at h) fun _ => .bind fun stop _ =>
    .ite (fun _ => .refuse ⟨data, rfl⟩) fun _ => .bind fun gap _ => ?_
  exact .accept (denonFields_protocol gap _)

end IrRemote
