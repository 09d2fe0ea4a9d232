import IrRemote.Mid.LongUnion
import IrRemote.Mid.Matching
import IrRemote.Mid.Transmit
import IrRemote.Protocol.Nec

/-!
# LG and LG2

`Ir_LG.c`: 28 bits most significant first, an address, a command and the sum of the
nibbles of the command. LG2 differs in its header and its special repeat.

## Main definitions

* `computeLGRawDataAndChecksum`, `sendLG`, `sendLG2` — the senders
* `decodeLG` — the decoder of both

## Main results

* `decodeLG_ensures` — the protocols it decodes, by the header
-/

set_option autoImplicit false

namespace IrRemote

/-! ## Constants -/

def lgKhz : ℕ := 38
def lgAddressBits : ℕ := 8
def lgCommandBits : ℕ := 16
def lgChecksumBits : ℕ := 4
def lgBits : ℕ := lgAddressBits + lgCommandBits + lgChecksumBits
def lgUnit : ℕ := 500
def lgHeaderMark : ℕ := 18 * lgUnit
def lgHeaderSpace : ℕ := 4200
def lg2HeaderMark : ℕ := 19 * lgUnit
def lg2HeaderSpace : ℕ := 6 * lgUnit
def lgBitMark : ℕ := lgUnit
def lgOneSpace : ℕ := 1580
def lgZeroSpace : ℕ := 550
def lgRepeatHeaderSpace : ℕ := 4 * lgUnit
def lgRepeatPeriod : ℕ := 110000

/-- `sendLG2SpecialRepeat`. -/
def sendLG2SpecialRepeat : List TxEvent :=
  [.enableIROut lgKhz, .mark lg2HeaderMark, .space lgRepeatHeaderSpace, .mark lgBitMark]

/-- `LGProtocolConstants`; LG uses the NEC repeat. -/
def lgProtocolConstants : PulseDistanceWidthProtocolConstants where
  protocolIndex := .lg
  frequencyKHz := lgKhz
  distanceWidthTimingInfo :=
    ⟨lgHeaderMark, lgHeaderSpace, lgBitMark, lgOneSpace, lgBitMark, lgZeroSpace⟩
  flags := protocolIsMsbFirst
  repeatPeriodMillis := lgRepeatPeriod / 1000
  specialSendRepeatFunction := some sendNECSpecialRepeat

/-- `LG2ProtocolConstants`. -/
def lg2ProtocolConstants : PulseDistanceWidthProtocolConstants where
  protocolIndex := .lg2
  frequencyKHz := lgKhz
  distanceWidthTimingInfo :=
    ⟨lg2HeaderMark, lg2HeaderSpace, lgBitMark, lgOneSpace, lgBitMark, lgZeroSpace⟩
  flags := protocolIsMsbFirst
  repeatPeriodMillis := lgRepeatPeriod / 1000
  specialSendRepeatFunction := some sendLG2SpecialRepeat

/-! ## Senders -/

/-- The sum of the 4 nibbles of the command, in 8 bits. -/
def lgChecksum (command : BitVec 16) : BitVec 8 :=
  (command &&& 0xF).setWidth 8 + ((command >>> 4) &&& 0xF).setWidth 8 +
    ((command >>> 8) &&& 0xF).setWidth 8 + ((command >>> 12) &&& 0xF).setWidth 8

/-- `computeLGRawDataAndChecksum`. -/
def computeLGRawDataAndChecksum (aAddress : BitVec 8) (aCommand : BitVec 16) : BitVec 32 :=
  (aAddress.setWidth 32 <<< (lgCommandBits + lgChecksumBits)) |||
    (aCommand.setWidth 32 <<< lgChecksumBits) ||| (lgChecksum aCommand &&& 0xF).setWidth 32

/-- `sendLG`. -/
def sendLG (aAddress : BitVec 8) (aCommand : BitVec 16) (aNumberOfRepeats : ℕ) : List TxEvent :=
  sendPulseDistanceWidthV1 lgProtocolConstants (computeLGRawDataAndChecksum aAddress aCommand)
    lgBits aNumberOfRepeats

/-- `sendLG2`. -/
def sendLG2 (aAddress : BitVec 8) (aCommand : BitVec 16) (aNumberOfRepeats : ℕ) : List TxEvent :=
  sendPulseDistanceWidthV1 lg2ProtocolConstants (computeLGRawDataAndChecksum aAddress aCommand)
    lgBits aNumberOfRepeats

/-! ## Decoder -/

/-- The protocol and the header space that belong to a header mark. -/
def lgProtocol (headerMark : ℕ) : Option (DecodeType × ℕ) :=
  if matchMark headerMark lgHeaderMark then some (.lg, lgHeaderSpace)
  else if matchMark headerMark lg2HeaderMark then some (.lg2, lg2HeaderSpace)
  else none

/-- The frame `decodeLG` reads off its data. -/
def lgFields (tProtocol : DecodeType) (d : IRData) : IRData :=
  let raw := d.decodedRawData
  let command : BitVec 16 := ((raw >>> lgChecksumBits) &&& 0xFFFF).setWidth 16
  { d with
    command := command
    -- first 8 bit
    address := (raw >>> (lgCommandBits + lgChecksumBits)).setWidth 16
    flags :=
      if (lgChecksum command &&& 0xF).setWidth 32 ≠ raw &&& 0xF then
        irdataFlagsIsMsbFirst ||| irdataFlagsParityFailed
      else irdataFlagsIsMsbFirst
    protocol := tProtocol
    numberOfBits := lgBits }

/-- `decodeLG`. -/
def decodeLG : Decoder := fun irparams s => do
  if irparams.rawlen ≠ 2 * lgBits + 4 ∧ irparams.rawlen ≠ 4 then
    return (false, s)
  match lgProtocol (← irparams.raw 1) with
  | none => return (false, s)
  | some (tProtocol, tHeaderSpace) =>
    -- another header space length for the repeat
    if irparams.rawlen = 4 then
      if matchSpace (← irparams.raw 2) lgRepeatHeaderSpace &&
          matchMark (← irparams.raw 3) lgBitMark then
        return (true, { s with
          decodedIRData.flags := irdataFlagsIsRepeat ||| irdataFlagsIsMsbFirst
          decodedIRData.address := s.lastDecodedAddress.setWidth 16
          decodedIRData.command := s.lastDecodedCommand.setWidth 16
          decodedIRData.protocol := s.lastDecodedProtocol })
      return (false, s)
    if !matchSpace (← irparams.raw 2) tHeaderSpace then
      return (false, s)
    let (decoded, s) ← decodePulseDistanceWidthDatav3 lgProtocolConstants.distanceWidthTimingInfo
      lgProtocolConstants.flags lgBits irparams s
    if !decoded then
      return (false, s)
    return (true, { s with decodedIRData := lgFields tProtocol s.decodedIRData })

/-! ## What the decoder does -/

variable {p q : IrParams} {s : DecodeState} {t : ℕ}

theorem decodeLG_of_rawlen (h : p.rawlen ≠ 60) (h' : p.rawlen ≠ 4) :
    decodeLG p s = some (false, s) := by
  unfold decodeLG
  exact if_pos ⟨h, h'⟩

theorem lgProtocol_mem {protocol : DecodeType} {space : ℕ}
    (h : lgProtocol t = some (protocol, space)) : protocol ∈ [DecodeType.lg, .lg2] := by
  unfold lgProtocol at h
  split_ifs at h <;> simp_all

/-- A frame of 28 bits with one of the two headers is decoded. -/
theorem decodeLG_frame {u space : ℕ} {protocol : DecodeType} {data : BitVec 32}
    (hlen : p.rawlen = 60) (ht : p.raw 1 = some t) (hu : p.raw 2 = some u)
    (hprotocol : lgProtocol t = some (protocol, space)) (hspace : matchSpace u space = true)
    (hbits : decodeBits (bitValue p lgBitMark lgBitMark lgOneSpace) true lgBits 3 0#32 1#32 =
      some data) :
    decodeLG p s = some (true, { s with
      decodedIRData := lgFields protocol { s.decodedIRData with decodedRawData := data } }) := by
  have hdata : decodePulseDistanceWidthDatav3 lgProtocolConstants.distanceWidthTimingInfo
      lgProtocolConstants.flags lgBits p s =
      some (true, { s with decodedIRData.decodedRawData := data }) :=
    decodePulseDistanceWidthData_eq hbits
  have hframe : ¬(p.rawlen ≠ 2 * lgBits + 4 ∧ p.rawlen ≠ 4) := fun h => h.1 hlen
  have hrepeat : ¬p.rawlen = 4 := by omega
  simp only [decodeLG, if_neg hframe, ht, hprotocol, if_neg hrepeat, hu, hspace, hdata,
    Option.bind_eq_bind, Option.bind_some, Bool.not_true, Bool.false_eq_true, if_false]
  rfl

theorem decodeLG_accepts {u space : ℕ} {protocol : DecodeType} (hlen : p.rawlen = 60)
    (ht : p.raw 1 = some t) (hu : p.raw 2 = some u)
    (hprotocol : lgProtocol t = some (protocol, space)) (hspace : matchSpace u space = true) :
    ∃ s', decodeLG p s = some (true, s') ∧ s'.decodedIRData.protocol = protocol := by
  obtain ⟨data, hbits⟩ := exists_decodeBits_bitValue p
    (show 3 + 2 * lgBits ≤ rawBufferLength by decide) lgBitMark lgBitMark lgOneSpace true
  exact ⟨_, decodeLG_frame hlen ht hu hprotocol hspace hbits, rfl⟩

theorem SameFrame.decodeLG (h : SameFrame p q) : decodeLG p s = decodeLG q s := by
  have hrawlen := h.rawlen
  by_cases hframe : p.rawlen = 60
  · have hdata : ∀ s, decodePulseDistanceWidthDatav3 lgProtocolConstants.distanceWidthTimingInfo
        lgProtocolConstants.flags lgBits p s = decodePulseDistanceWidthDatav3
        lgProtocolConstants.distanceWidthTimingInfo lgProtocolConstants.flags lgBits q s :=
      fun s => h.decodePulseDistanceWidthData (.inl (by rw [hframe]; decide))
    simp only [IrRemote.decodeLG, h.rawlen, h.raw 1 (by omega), h.raw 2 (by omega),
      h.raw 3 (by omega), hdata]
  · by_cases hrepeat : p.rawlen = 4
    · have hq : q.rawlen = 4 := hrawlen ▸ hrepeat
      simp only [IrRemote.decodeLG, hrepeat, hq, h.raw 1 (by omega), h.raw 2 (by omega),
        h.raw 3 (by omega), if_true]
    · rw [decodeLG_of_rawlen hframe hrepeat,
        decodeLG_of_rawlen (hrawlen ▸ hframe) (hrawlen ▸ hrepeat)]

/-- An accepted frame is a repeat of the last command or has the length, the header and
the protocol of LG or LG2. -/
theorem decodeLG_ensures : Attempt.Ensures
    (fun s' => p.rawlen = 4 ∧ RepeatAnswer s s' ∨ p.rawlen = 60 ∧ ∃ t u space,
      p.raw 1 = some t ∧ p.raw 2 = some u ∧
      lgProtocol t = some (s'.decodedIRData.protocol, space) ∧ matchSpace u space = true)
    (· = s) (decodeLG p s) := by
  unfold decodeLG
  refine .ite (fun _ => .refuse rfl) fun hlen => .bind fun t ht => ?_
  cases hprotocol : lgProtocol t with
  | none => exact .refuse rfl
  | some found =>
    refine .ite (fun hrepeat => ?repeated) fun hfull => ?full
    case repeated =>
      exact .bind fun _ _ => .bind fun _ _ =>
        .ite (fun _ => .accept (.inl ⟨hrepeat, isRepeat_msbFirst, rfl⟩)) fun _ => .refuse rfl
    case full =>
      refine .bind fun u hu => .ite (fun _ => .refuse rfl) fun hspace => .bind fun ⟨b, v⟩ hv => ?_
      obtain ⟨rfl, data, -, rfl⟩ := decodePulseDistanceWidthData_spec hv
      have hlen' : p.rawlen = 60 := by
        have hbits : 2 * lgBits + 4 = 60 := by decide
        omega
      exact .ite (fun h => by simp at h) fun _ =>
        .accept (.inr ⟨hlen', t, u, found.2, ht, hu, hprotocol, by simpa using hspace⟩)

end IrRemote
