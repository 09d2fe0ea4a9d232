import Mathlib.Data.Int.Notation
import Mathlib.Data.Nat.Notation

/-!
# Shared definitions of the infrared module

The constants, enumerations and records of `Op_HeaderDefine.h` that the receiver,
the decoders and the senders share. Durations are microseconds and tick counts
are natural numbers; registers on which the code works bit by bit are bit vectors
of the width the header gives them.

The header tests `MICROS_PER_TICK` in a preprocessor condition before it defines
the macro, so the condition is false and the exact percentage form of
`TICKS_LOW` and `TICKS_HIGH` is the one that is compiled.

## Main definitions

* `IrParams` — the receiver record `irparams_struct`
* `IRData` — the decoded frame
* `DistanceWidthTimingInfo` — the durations of one protocol
* `matchTicks`, `matchMark`, `matchSpace` — the tolerance windows
-/

set_option autoImplicit false

namespace IrRemote

/-! ## Receiver buffer -/

/-- `RAW_BUFFER_LENGTH`. -/
def rawBufferLength : ℕ := 750

/-- `MICROS_PER_TICK`. -/
def microsPerTick : ℕ := 50

/-- `RECORD_GAP_TICKS`, from `RECORD_GAP_MICROS = 5000`. -/
def recordGapTicks : ℕ := 5000 / microsPerTick

/-- `UINT16_MAX_CUSTOM`. -/
def uint16MaxCustom : ℕ := 65535

/-- `INPUT_MARK`: the pin level of the demodulator during a mark. -/
def inputMark : ℕ := 0

/-- The receiver states `IR_REC_STATE_*`. -/
inductive RecState where
  | idle
  | mark
  | space
  | stop
  deriving DecidableEq, Repr

/-- `irparams_struct`. The receive pin number and the completion callback, which
the firmware never registers, are left out. -/
structure IrParams where
  stateForISR : RecState
  tickCounterForISR : ℕ
  overflowFlag : Bool
  rawlen : ℕ
  rawbuf : Vector ℕ rawBufferLength
  deriving DecidableEq

/-- The zero-initialised global `irparams`. -/
def IrParams.zero : IrParams where
  stateForISR := .idle
  tickCounterForISR := 0
  overflowFlag := false
  rawlen := 0
  rawbuf := Vector.replicate rawBufferLength 0

/-- A read of `rawbuf[i]`; `none` outside the array. -/
def IrParams.raw (irparams : IrParams) (i : ℕ) : Option ℕ := irparams.rawbuf[i]?

theorem IrParams.exists_raw (irparams : IrParams) {i : ℕ} (h : i < rawBufferLength) :
    ∃ ticks, irparams.raw i = some ticks :=
  ⟨irparams.rawbuf[i], Vector.getElem?_eq_getElem h⟩

theorem IrParams.lt_of_raw {irparams : IrParams} {i ticks : ℕ} (h : irparams.raw i = some ticks) :
    i < rawBufferLength :=
  (Vector.getElem?_eq_some_iff.mp h).1

/-! ## Decoded frames -/

/-- `decode_type_t`. -/
inductive DecodeType where
  | unknown
  | pulseWidth
  | pulseDistance
  | apple
  | denon
  | jvc
  | lg
  | lg2
  | nec
  | nec2
  | onkyo
  | panasonic
  | kaseikyo
  | kaseikyoDenon
  | kaseikyoSharp
  | kaseikyoJvc
  | kaseikyoMitsubishi
  | rc5
  | rc6
  | samsung
  | samsung48
  | samsungLg
  | sharp
  | sony
  | bangOlufsen
  | boseWave
  | legoPf
  | magiQuest
  | whynter
  | fast
  deriving DecidableEq, Repr

/-- `DistanceWidthTimingInfoStruct`. -/
structure DistanceWidthTimingInfo where
  headerMarkMicros : ℕ
  headerSpaceMicros : ℕ
  oneMarkMicros : ℕ
  oneSpaceMicros : ℕ
  zeroMarkMicros : ℕ
  zeroSpaceMicros : ℕ
  deriving DecidableEq, Repr

/-- `BITS_IN_RAW_DATA_TYPE`. -/
def bitsInRawDataType : ℕ := 32

/-- `RAW_DATA_ARRAY_SIZE`. -/
def rawDataArraySize : ℕ := ((rawBufferLength - 2) - 1) / (2 * bitsInRawDataType) + 1

/-- `IRDATA_FLAGS_EMPTY`. -/
def irdataFlagsEmpty : BitVec 8 := 0x00
/-- `IRDATA_FLAGS_IS_REPEAT`. -/
def irdataFlagsIsRepeat : BitVec 8 := 0x01
/-- `IRDATA_FLAGS_IS_AUTO_REPEAT`. -/
def irdataFlagsIsAutoRepeat : BitVec 8 := 0x02
/-- `IRDATA_FLAGS_PARITY_FAILED`. -/
def irdataFlagsParityFailed : BitVec 8 := 0x04
/-- `IRDATA_FLAGS_TOGGLE_BIT`. -/
def irdataFlagsToggleBit : BitVec 8 := 0x08
/-- `IRDATA_FLAGS_EXTRA_INFO`. -/
def irdataFlagsExtraInfo : BitVec 8 := 0x10
/-- `IRDATA_FLAGS_WAS_OVERFLOW`. -/
def irdataFlagsWasOverflow : BitVec 8 := 0x40
/-- `IRDATA_FLAGS_IS_MSB_FIRST`. -/
def irdataFlagsIsMsbFirst : BitVec 8 := 0x80
/-- `IRDATA_FLAGS_IS_LSB_FIRST`. -/
def irdataFlagsIsLsbFirst : BitVec 8 := 0x00

/-- `IRData`. The pointer `rawDataPtr` is left out: it always holds the address of
the global `irparams`, which the decoders receive as an argument. -/
structure IRData where
  protocol : DecodeType
  address : BitVec 16
  command : BitVec 16
  extra : BitVec 16
  decodedRawData : BitVec 32
  distanceWidthTimingInfo : DistanceWidthTimingInfo
  decodedRawDataArray : Vector (BitVec 32) rawDataArraySize
  numberOfBits : ℕ
  flags : BitVec 8
  deriving DecidableEq

/-- The zero-initialised global `decodedIRData`. -/
def IRData.zero : IRData where
  protocol := .unknown
  address := 0
  command := 0
  extra := 0
  decodedRawData := 0
  distanceWidthTimingInfo := ⟨0, 0, 0, 0, 0, 0⟩
  decodedRawDataArray := Vector.replicate rawDataArraySize 0
  numberOfBits := 0
  flags := irdataFlagsEmpty

/-! ## Protocol constants -/

/-- `SUPPRESS_STOP_BIT_FOR_THIS_DATA`. -/
def suppressStopBitForThisData : BitVec 8 := 0x20
/-- `PROTOCOL_IS_MSB_FIRST`. -/
def protocolIsMsbFirst : BitVec 8 := irdataFlagsIsMsbFirst
/-- `PROTOCOL_IS_LSB_FIRST`. -/
def protocolIsLsbFirst : BitVec 8 := irdataFlagsIsLsbFirst

/-! ## Tolerance windows -/

/-- `MARK_EXCESS_MICROS`. -/
def markExcessMicros : ℕ := 20

/-- `LTOL`, with the default tolerance of 25 percent. -/
def ltol : ℕ := 100 - 25

/-- `UTOL`, with the default tolerance of 25 percent. -/
def utol : ℕ := 100 + 25

/-- `TICKS_LOW(us)`; the macro computes in signed 32-bit arithmetic and narrows to 16 bits. -/
def ticksLow (us : ℤ) : ℕ :=
  ((us * ltol).tdiv (microsPerTick * 100) % 65536).toNat

/-- `TICKS_HIGH(us)`. -/
def ticksHigh (us : ℤ) : ℕ :=
  (((us * utol).tdiv (microsPerTick * 100) + 1) % 65536).toNat

/-- `matchTicks`: the measured ticks lie in the window around the expected duration. -/
def matchTicks (aMeasuredTicks aMatchValueMicros : ℕ) : Bool :=
  ticksLow aMatchValueMicros ≤ aMeasuredTicks && aMeasuredTicks ≤ ticksHigh aMatchValueMicros

/-- `matchMark`: compensates for marks exceeded by the demodulator hardware. -/
def matchMark (aMeasuredTicks aMatchValueMicros : ℕ) : Bool :=
  ticksLow (aMatchValueMicros + markExcessMicros) ≤ aMeasuredTicks &&
    aMeasuredTicks ≤ ticksHigh (aMatchValueMicros + markExcessMicros)

/-- `matchSpace`: compensates for spaces shortened by the demodulator hardware. -/
def matchSpace (aMeasuredTicks aMatchValueMicros : ℕ) : Bool :=
  ticksLow (aMatchValueMicros - markExcessMicros) ≤ aMeasuredTicks &&
    aMeasuredTicks ≤ ticksHigh (aMatchValueMicros - markExcessMicros)

section Windows

variable {t us lo hi : ℕ}

theorem matchTicks_iff (hlo : ticksLow us = lo) (hhi : ticksHigh us = hi) :
    matchTicks t us = true ↔ lo ≤ t ∧ t ≤ hi := by
  simp [matchTicks, hlo, hhi]

theorem matchMark_iff (hlo : ticksLow (us + markExcessMicros) = lo)
    (hhi : ticksHigh (us + markExcessMicros) = hi) : matchMark t us = true ↔ lo ≤ t ∧ t ≤ hi := by
  simp [matchMark, hlo, hhi]

theorem matchSpace_iff (hlo : ticksLow (us - markExcessMicros) = lo)
    (hhi : ticksHigh (us - markExcessMicros) = hi) : matchSpace t us = true ↔ lo ≤ t ∧ t ≤ hi := by
  simp [matchSpace, hlo, hhi]

end Windows

end IrRemote
