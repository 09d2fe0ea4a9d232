import IrRemote.Library.BitWord
import IrRemote.Op.HeaderDefine

/-!
# Sending

The transmit functions of `Mid_IrRemote.c`. A transmission is the list of the
calls that act on the diode, in order: the carrier, the marks and spaces, and the
waits between frames.

The comparison `aNumberOfRepeats < 0` of the source is made on an unsigned byte, so
its branch is left out.

## Main definitions

* `TxEvent` — one call
* `PulseDistanceWidthProtocolConstants` — the constants of one protocol
* `sendPulseDistanceWidthV1`, `sendPulseDistanceWidthFromArray` — one command
* `sendBiphaseData` — one biphase frame

## Main results

* `sendPulseDistanceWidthDataV1_lsb`, `sendPulseDistanceWidthDataV1_msb` — the bits sent
-/

set_option autoImplicit false

namespace IrRemote

/-- A call of a transmission. -/
inductive TxEvent where
  | enableIROut (aFrequencyKHz : ℕ)
  | mark (aMarkMicros : ℕ)
  | space (aSpaceMicros : ℕ)
  /-- `nrf_delay_ms`. -/
  | delayMs (millis : ℕ)
  /-- The wait for what is left of the repeat period after the frame. -/
  | awaitPeriod (aRepeatPeriodMillis : ℕ)
  deriving DecidableEq, Repr

/-- `PulseDistanceWidthProtocolConstants`. The special repeat function is the
transmission it makes. -/
structure PulseDistanceWidthProtocolConstants where
  protocolIndex : DecodeType
  frequencyKHz : ℕ
  distanceWidthTimingInfo : DistanceWidthTimingInfo
  flags : BitVec 8
  repeatPeriodMillis : ℕ
  specialSendRepeatFunction : Option (List TxEvent)
  deriving DecidableEq

/-! ## Pulse distance and pulse width -/

/-- The mark and the space of one bit. -/
def sendBit (aOneMarkMicros aOneSpaceMicros aZeroMarkMicros aZeroSpaceMicros : ℕ) (bit : Bool) :
    List TxEvent :=
  if bit then [.mark aOneMarkMicros, .space aOneSpaceMicros]
  else [.mark aZeroMarkMicros, .space aZeroSpaceMicros]

/-- The loop of `sendPulseDistanceWidthDataV1`. -/
def sendDataBits (pulses : Bool → List TxEvent) (msbFirst : Bool) :
    ℕ → BitVec 32 → BitVec 32 → List TxEvent
  | 0, _, _ => []
  | i + 1, aData, tMask =>
    pulses (if msbFirst then aData &&& tMask ≠ 0 else aData &&& 1 ≠ 0) ++
      sendDataBits pulses msbFirst i
        (if msbFirst then aData else aData >>> 1) (if msbFirst then tMask >>> 1 else tMask)

/-- The stop bit, sent for all pulse distance protocols. -/
def stopMark (aOneMarkMicros aZeroMarkMicros : ℕ) (aFlags : BitVec 8) : List TxEvent :=
  if aFlags &&& suppressStopBitForThisData = 0 ∧ aOneMarkMicros = aZeroMarkMicros then
    [.mark aZeroMarkMicros]
  else []

/-- `sendPulseDistanceWidthDataV1`. With no bit to send the mask is never read. -/
def sendPulseDistanceWidthDataV1 (aOneMarkMicros aOneSpaceMicros aZeroMarkMicros
    aZeroSpaceMicros : ℕ) (aData : BitVec 32) (aNumberOfBits : ℕ) (aFlags : BitVec 8) :
    List TxEvent :=
  sendDataBits (sendBit aOneMarkMicros aOneSpaceMicros aZeroMarkMicros aZeroSpaceMicros)
      (aFlags &&& protocolIsMsbFirst ≠ 0) aNumberOfBits aData
      (BitVec.twoPow 32 (aNumberOfBits - 1)) ++
    stopMark aOneMarkMicros aZeroMarkMicros aFlags

/-- `sendPulseDistanceWidthDataV3`. -/
def sendPulseDistanceWidthDataV3 (aProtocolConstants : PulseDistanceWidthProtocolConstants)
    (aData : BitVec 32) (aNumberOfBits : ℕ) : List TxEvent :=
  let t := aProtocolConstants.distanceWidthTimingInfo
  sendPulseDistanceWidthDataV1 t.oneMarkMicros t.oneSpaceMicros t.zeroMarkMicros t.zeroSpaceMicros
    aData aNumberOfBits aProtocolConstants.flags

/-- Header and data of a regular frame. -/
def sendFrame (aProtocolConstants : PulseDistanceWidthProtocolConstants) (aData : BitVec 32)
    (aNumberOfBits : ℕ) : List TxEvent :=
  .mark aProtocolConstants.distanceWidthTimingInfo.headerMarkMicros ::
    .space aProtocolConstants.distanceWidthTimingInfo.headerSpaceMicros ::
      sendPulseDistanceWidthDataV3 aProtocolConstants aData aNumberOfBits

/-- The command loop of `sendPulseDistanceWidthV1`. -/
def sendFrameOrRepeat (aProtocolConstants : PulseDistanceWidthProtocolConstants)
    (frame : List TxEvent) (aNumberOfRepeats : ℕ) : ℕ → List TxEvent
  | 0 => []
  | tNumberOfCommands + 1 =>
    (match aProtocolConstants.specialSendRepeatFunction with
      | some specialRepeat =>
        if tNumberOfCommands + 1 < aNumberOfRepeats + 1 then specialRepeat else frame
      | none => frame) ++
    -- skip last delay!
    (if 0 < tNumberOfCommands then [.awaitPeriod aProtocolConstants.repeatPeriodMillis] else []) ++
      sendFrameOrRepeat aProtocolConstants frame aNumberOfRepeats tNumberOfCommands

/-- `sendPulseDistanceWidthV1`. -/
def sendPulseDistanceWidthV1 (aProtocolConstants : PulseDistanceWidthProtocolConstants)
    (aData : BitVec 32) (aNumberOfBits aNumberOfRepeats : ℕ) : List TxEvent :=
  .enableIROut aProtocolConstants.frequencyKHz ::
    sendFrameOrRepeat aProtocolConstants (sendFrame aProtocolConstants aData aNumberOfBits)
      aNumberOfRepeats (aNumberOfRepeats + 1)

/-! ## Data in an array -/

/-- The chunk loop of the array senders, with the number of chunks still to send. The
bit counter goes down by a whole chunk each time, in 16 bits; its last value is returned. -/
def sendChunks (aOneMarkMicros aOneSpaceMicros aZeroMarkMicros aZeroSpaceMicros : ℕ)
    (aDecodedRawDataArray : ℕ → BitVec 32) (aFlags : BitVec 8) :
    ℕ → ℕ → ℕ → List TxEvent × ℕ
  | 0, _, tNumberOfBits => ([], tNumberOfBits)
  | chunks + 1, i, tNumberOfBits =>
    let tNumberOfBitsForOneSend := if chunks = 0 then tNumberOfBits % 256 else bitsInRawDataType
    let tFlags := if chunks = 0 then aFlags else aFlags ||| suppressStopBitForThisData
    let rest := sendChunks aOneMarkMicros aOneSpaceMicros aZeroMarkMicros aZeroSpaceMicros
      aDecodedRawDataArray aFlags chunks (i + 1)
      ((tNumberOfBits + 65536 - bitsInRawDataType) % 65536)
    (sendPulseDistanceWidthDataV1 aOneMarkMicros aOneSpaceMicros aZeroMarkMicros aZeroSpaceMicros
      (aDecodedRawDataArray i) tNumberOfBitsForOneSend tFlags ++ rest.1, rest.2)

/-- `tNumberOf32Or64BitChunks`. -/
def numberOfChunks (aNumberOfBits : ℕ) : ℕ := ((aNumberOfBits - 1) / bitsInRawDataType + 1) % 256

/-- A frame sent `tNumberOfCommands` times with a pause between two frames. -/
def sendCommands (frame pause : List TxEvent) : ℕ → List TxEvent
  | 0 => []
  | tNumberOfCommands + 1 =>
    frame ++ (if 0 < tNumberOfCommands then pause else []) ++
      sendCommands frame pause tNumberOfCommands

/-- `sendPulseDistanceWidthFromArray`; the command counter is a byte. -/
def sendPulseDistanceWidthFromArray (aProtocolConstants : PulseDistanceWidthProtocolConstants)
    (aDecodedRawDataArray : ℕ → BitVec 32) (aNumberOfBits aNumberOfRepeats : ℕ) : List TxEvent :=
  let t := aProtocolConstants.distanceWidthTimingInfo
  .enableIROut aProtocolConstants.frequencyKHz ::
    sendCommands
      (.mark t.headerMarkMicros :: .space t.headerSpaceMicros ::
        (sendChunks t.oneMarkMicros t.oneSpaceMicros t.zeroMarkMicros t.zeroSpaceMicros
          aDecodedRawDataArray aProtocolConstants.flags (numberOfChunks aNumberOfBits) 0
          aNumberOfBits).1)
      [.awaitPeriod aProtocolConstants.repeatPeriodMillis] ((aNumberOfRepeats + 1) % 256)

/-- The command loop of `sendPulseDistanceWidthFromArrayV3`, which does not refresh
the bit counter for a repeat. -/
def sendFromArrayV3Loop (timingInfo : DistanceWidthTimingInfo)
    (aDecodedRawDataArray : ℕ → BitVec 32) (aFlags : BitVec 8) (aRepeatPeriodMillis chunks : ℕ) :
    ℕ → ℕ → List TxEvent
  | 0, _ => []
  | tNumberOfCommands + 1, aNumberOfBits =>
    let data := sendChunks timingInfo.oneMarkMicros timingInfo.oneSpaceMicros
      timingInfo.zeroMarkMicros timingInfo.zeroSpaceMicros aDecodedRawDataArray aFlags chunks 0
      aNumberOfBits
    .mark timingInfo.headerMarkMicros :: .space timingInfo.headerSpaceMicros :: data.1 ++
      (if 0 < tNumberOfCommands then [.awaitPeriod aRepeatPeriodMillis] else []) ++
      sendFromArrayV3Loop timingInfo aDecodedRawDataArray aFlags aRepeatPeriodMillis chunks
        tNumberOfCommands data.2

/-- `sendPulseDistanceWidthFromArrayV2` and the `V3` it calls. -/
def sendPulseDistanceWidthFromArrayV2 (aFrequencyKHz : ℕ)
    (aDistanceWidthTimingInfo : DistanceWidthTimingInfo) (aDecodedRawDataArray : ℕ → BitVec 32)
    (aNumberOfBits : ℕ) (aFlags : BitVec 8) (aRepeatPeriodMillis aNumberOfRepeats : ℕ) :
    List TxEvent :=
  .enableIROut aFrequencyKHz ::
    sendFromArrayV3Loop aDistanceWidthTimingInfo aDecodedRawDataArray aFlags aRepeatPeriodMillis
      (numberOfChunks aNumberOfBits) ((aNumberOfRepeats + 1) % 256) aNumberOfBits

/-- `sendPulseDistanceWidthFromArrayV3`. -/
def sendPulseDistanceWidthFromArrayV3 (aFrequencyKHz aHeaderMarkMicros aHeaderSpaceMicros
    aOneMarkMicros aOneSpaceMicros aZeroMarkMicros aZeroSpaceMicros : ℕ)
    (aDecodedRawDataArray : ℕ → BitVec 32) (aNumberOfBits : ℕ) (aFlags : BitVec 8)
    (aRepeatPeriodMillis aNumberOfRepeats : ℕ) : List TxEvent :=
  .enableIROut aFrequencyKHz ::
    sendFromArrayV3Loop
      { headerMarkMicros := aHeaderMarkMicros
        headerSpaceMicros := aHeaderSpaceMicros
        oneMarkMicros := aOneMarkMicros
        oneSpaceMicros := aOneSpaceMicros
        zeroMarkMicros := aZeroMarkMicros
        zeroSpaceMicros := aZeroSpaceMicros }
      aDecodedRawDataArray aFlags aRepeatPeriodMillis (numberOfChunks aNumberOfBits)
      ((aNumberOfRepeats + 1) % 256) aNumberOfBits

/-! ## Biphase -/

/-- The loop of `sendBiphaseData`. -/
def sendBiphaseBits (aBiphaseTimeUnit : ℕ) (aData : BitVec 32) :
    ℕ → BitVec 32 → Bool → Bool → List TxEvent
  | 0, _, _, _ => []
  | i + 1, tMask, tLastBitValue, tCurrentBitIsOne =>
    let tMask := tMask >>> 1
    -- true for the last bit, to avoid an extension of its mark
    let tNextBitIsOne : Bool := aData &&& tMask ≠ 0 ∨ i = 0
    if tCurrentBitIsOne then
      [.space aBiphaseTimeUnit,
        .mark (if tNextBitIsOne then aBiphaseTimeUnit else 2 * aBiphaseTimeUnit)] ++
      sendBiphaseBits aBiphaseTimeUnit aData i tMask true tNextBitIsOne
    else
      (if tLastBitValue then [] else [.mark aBiphaseTimeUnit]) ++
      [.space aBiphaseTimeUnit] ++
      sendBiphaseBits aBiphaseTimeUnit aData i tMask false tNextBitIsOne

/-- `sendBiphaseData`: the start bit, which is a one, and the data, most significant bit first. -/
def sendBiphaseData (aBiphaseTimeUnit : ℕ) (aData : BitVec 32) (aNumberOfBits : ℕ) :
    List TxEvent :=
  sendBiphaseBits aBiphaseTimeUnit aData (aNumberOfBits + 1)
    (BitVec.twoPow 32 aNumberOfBits) true true

/-! ## The bits sent -/

variable {pulses : Bool → List TxEvent} {n : ℕ} {data : BitVec 32}

theorem sendDataBits_lsb (mask : BitVec 32) :
    sendDataBits pulses false n data mask = (BitWord.lsbBits n data).flatMap pulses := by
  induction n generalizing data mask with
  | zero => rfl
  | succ n ih =>
    rw [sendDataBits, BitWord.lsbBits_succ, List.flatMap_cons, if_neg Bool.false_ne_true,
      if_neg Bool.false_ne_true, ih]
    congr 2
    rw [Bool.eq_iff_iff, decide_eq_true_eq]
    exact BitWord.and_one_ne_zero (by decide)

theorem sendDataBits_msb (hn : n < 32) :
    sendDataBits pulses true (n + 1) data (BitVec.twoPow 32 n) =
      (BitWord.msbBits (n + 1) data).flatMap pulses := by
  induction n with
  | zero =>
    rw [sendDataBits, BitWord.msbBits_succ, List.flatMap_cons]
    congr 2
    rw [Bool.eq_iff_iff]
    simpa using BitWord.and_twoPow_ne_zero hn
  | succ n ih =>
    rw [sendDataBits, BitWord.msbBits_succ, List.flatMap_cons]
    simp only [if_true]
    rw [BitWord.twoPow_ushiftRight_one hn, ih (by omega)]
    congr 2
    rw [Bool.eq_iff_iff, decide_eq_true_eq]
    exact BitWord.and_twoPow_ne_zero hn

variable {oneMark oneSpace zeroMark zeroSpace : ℕ} {flags : BitVec 8}

theorem sendPulseDistanceWidthDataV1_lsb (hflags : flags &&& protocolIsMsbFirst = 0) :
    sendPulseDistanceWidthDataV1 oneMark oneSpace zeroMark zeroSpace data n flags =
      (BitWord.lsbBits n data).flatMap (sendBit oneMark oneSpace zeroMark zeroSpace) ++
        stopMark oneMark zeroMark flags := by
  rw [sendPulseDistanceWidthDataV1, hflags]
  exact congrArg (· ++ _) (sendDataBits_lsb _)

theorem sendPulseDistanceWidthDataV1_msb (hflags : flags &&& protocolIsMsbFirst ≠ 0)
    (hn : n < 32) :
    sendPulseDistanceWidthDataV1 oneMark oneSpace zeroMark zeroSpace data (n + 1) flags =
      (BitWord.msbBits (n + 1) data).flatMap (sendBit oneMark oneSpace zeroMark zeroSpace) ++
        stopMark oneMark zeroMark flags := by
  rw [sendPulseDistanceWidthDataV1, decide_eq_true hflags]
  exact congrArg (· ++ _) (sendDataBits_msb hn)

/-- With no repeats a command is its regular frame. -/
theorem sendPulseDistanceWidthV1_zero (c : PulseDistanceWidthProtocolConstants) :
    sendPulseDistanceWidthV1 c data n 0 = .enableIROut c.frequencyKHz :: sendFrame c data n := by
  cases h : c.specialSendRepeatFunction <;> simp [sendPulseDistanceWidthV1, sendFrameOrRepeat, h]

/-- Bits that are sent with different spaces can be read off their transmission. -/
theorem flatMap_sendBit_inj (hne : oneSpace ≠ zeroSpace) {bits bits' : List Bool} :
    bits.flatMap (sendBit oneMark oneSpace zeroMark zeroSpace) =
      bits'.flatMap (sendBit oneMark oneSpace zeroMark zeroSpace) ↔ bits = bits' := by
  refine ⟨fun h => ?_, congrArg _⟩
  induction bits generalizing bits' with
  | nil => cases bits' with
    | nil => rfl
    | cons b bits' => cases b <;> cases h
  | cons b bits ih => cases bits' with
    | nil => cases b <;> cases h
    | cons b' bits' =>
      rw [List.flatMap_cons, List.flatMap_cons] at h
      obtain ⟨hbit, hrest⟩ := List.append_inj h (by cases b <;> cases b' <;> rfl)
      rw [ih hrest]
      cases b <;> cases b' <;> simp_all [sendBit]

/-- Words that are sent least significant bit first can be read off their frame. -/
theorem sendPulseDistanceWidthV1_lsb_inj {c : PulseDistanceWidthProtocolConstants}
    {data' : BitVec 32} (hflags : c.flags &&& protocolIsMsbFirst = 0)
    (hne : c.distanceWidthTimingInfo.oneSpaceMicros ≠ c.distanceWidthTimingInfo.zeroSpaceMicros) :
    sendPulseDistanceWidthV1 c data n 0 = sendPulseDistanceWidthV1 c data' n 0 ↔
      BitWord.lsbBits n data = BitWord.lsbBits n data' := by
  simp only [sendPulseDistanceWidthV1_zero, sendFrame, sendPulseDistanceWidthDataV3,
    sendPulseDistanceWidthDataV1_lsb hflags, List.cons.injEq, true_and, List.append_left_inj,
    flatMap_sendBit_inj hne]

/-- Words that are sent most significant bit first can be read off their frame. -/
theorem sendPulseDistanceWidthV1_msb_inj {c : PulseDistanceWidthProtocolConstants}
    {data' : BitVec 32} (hflags : c.flags &&& protocolIsMsbFirst ≠ 0) (hn : n < 32)
    (hne : c.distanceWidthTimingInfo.oneSpaceMicros ≠ c.distanceWidthTimingInfo.zeroSpaceMicros) :
    sendPulseDistanceWidthV1 c data (n + 1) 0 = sendPulseDistanceWidthV1 c data' (n + 1) 0 ↔
      BitWord.msbBits (n + 1) data = BitWord.msbBits (n + 1) data' := by
  simp only [sendPulseDistanceWidthV1_zero, sendFrame, sendPulseDistanceWidthDataV3,
    sendPulseDistanceWidthDataV1_msb hflags hn, List.cons.injEq, true_and, List.append_left_inj,
    flatMap_sendBit_inj hne]

/-! ## Transmissions that light the diode -/

/-- Some call of the transmission lights the diode. -/
def EmitsMark (tx : List TxEvent) : Prop := ∃ us, TxEvent.mark us ∈ tx

theorem not_emitsMark_nil : ¬EmitsMark [] := by simp [EmitsMark]

/-- The first command is always a regular frame. -/
theorem emitsMark_sendPulseDistanceWidthV1 (c : PulseDistanceWidthProtocolConstants)
    (repeats : ℕ) : EmitsMark (sendPulseDistanceWidthV1 c data n repeats) := by
  refine ⟨c.distanceWidthTimingInfo.headerMarkMicros, ?_⟩
  cases h : c.specialSendRepeatFunction <;>
    simp [sendPulseDistanceWidthV1, sendFrameOrRepeat, sendFrame, h]

theorem emitsMark_sendCommands {frame pause : List TxEvent} (h : EmitsMark frame) (hn : 0 < n) :
    EmitsMark (sendCommands frame pause n) := by
  obtain ⟨us, hus⟩ := h
  obtain ⟨k, rfl⟩ : ∃ k, n = k + 1 := ⟨n - 1, by omega⟩
  exact ⟨us, by simp [sendCommands, hus]⟩

theorem EmitsMark.append_left {tx : List TxEvent} (h : EmitsMark tx) (rest : List TxEvent) :
    EmitsMark (tx ++ rest) :=
  h.imp fun _ hus => List.mem_append_left rest hus

theorem emitsMark_sendBit (oneMark oneSpace zeroMark zeroSpace : ℕ) (bit : Bool) :
    EmitsMark (sendBit oneMark oneSpace zeroMark zeroSpace bit) := by
  cases bit
  · exact ⟨zeroMark, List.mem_cons_self ..⟩
  · exact ⟨oneMark, List.mem_cons_self ..⟩

theorem emitsMark_sendPulseDistanceWidthDataV3 (c : PulseDistanceWidthProtocolConstants) :
    EmitsMark (sendPulseDistanceWidthDataV3 c data (n + 1)) :=
  ((emitsMark_sendBit ..).append_left _).append_left _

/-- The start bit of a biphase transmission ends with a mark. -/
theorem emitsMark_sendBiphaseData (unit : ℕ) : EmitsMark (sendBiphaseData unit data n) :=
  ⟨_, List.mem_append_left _ (List.mem_cons_of_mem _ (List.mem_cons_self ..))⟩

theorem EmitsMark.cons {tx : List TxEvent} (h : EmitsMark tx) (e : TxEvent) :
    EmitsMark (e :: tx) := by
  obtain ⟨us, hus⟩ := h
  exact ⟨us, List.mem_cons_of_mem e hus⟩

theorem emitsMark_sendPulseDistanceWidthFromArray (c : PulseDistanceWidthProtocolConstants)
    (array : ℕ → BitVec 32) {repeats : ℕ} (h : repeats < 255) :
    EmitsMark (sendPulseDistanceWidthFromArray c array n repeats) :=
  (emitsMark_sendCommands ⟨_, List.mem_cons_self ..⟩ (by omega)).cons _

end IrRemote
