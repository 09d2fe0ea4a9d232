import IrRemote.Library.Attempt
import IrRemote.Library.BitWord
import IrRemote.Op.HeaderDefine
import Mathlib.Tactic.SplitIfs

/-!
# Decoding support

The state of the decoders and the matching functions of `Mid_IrRemote.c` they share.
A decoder reads the receiver record and updates the decoder state; its result is
`none` when it reads outside the buffer.

## Main definitions

* `DecodeState` — the globals the decoders read and write
* `irRemoteInitDecodedIRData` — the start of a decode
* `checkHeader`, `decodePulseDistanceWidthData` — pulse distance and pulse width
* `initBiphaselevel`, `getBiphaselevel` — biphase
* `decodeHash` — the last resort
* `SameFrame` — records that differ behind the frame only

## Main results

* `decodeBits_lsb`, `decodeBits_msb` — the bits received
* `SameFrame.decodePulseDistanceWidthData`, `SameFrame.getBiphaselevel` — what is read
-/

set_option autoImplicit false

namespace IrRemote

/-- The static variables of `getBiphaselevel`. -/
structure Biphase where
  /-- `sBiphaseDecodeRawbuffOffset`, a byte. -/
  decodeRawbuffOffset : ℕ
  /-- `sBiphaseCurrentTimingIntervals`. -/
  currentTimingIntervals : ℕ
  /-- `sBiphaseUsedTimingIntervals`, a byte. -/
  usedTimingIntervals : ℕ
  /-- `sBiphaseTimeUnit`. -/
  timeUnit : ℕ
  deriving DecidableEq, Repr

/-- The globals the decoders read and write. -/
structure DecodeState where
  decodedIRData : IRData
  lastDecodedProtocol : DecodeType
  lastDecodedCommand : BitVec 32
  lastDecodedAddress : BitVec 32
  repeatCount : BitVec 8
  biphase : Biphase
  deriving DecidableEq

/-- The state at power-up. -/
def DecodeState.zero : DecodeState where
  decodedIRData := .zero
  lastDecodedProtocol := .unknown
  lastDecodedCommand := 0
  lastDecodedAddress := 0
  repeatCount := 0
  biphase := ⟨0, 0, 0, 0⟩

/-- A decoder is an attempt on the decoder state, undefined when it reads outside the
buffer. -/
abbrev Decoder := IrParams → Attempt DecodeState

/-- `Ir_RemoteInitDecodedIRData`. -/
def irRemoteInitDecodedIRData (irparams : IrParams) (s : DecodeState) : DecodeState :=
  let s :=
    if irparams.overflowFlag then
      { s with decodedIRData.flags := irdataFlagsWasOverflow }
    else
      { s with
        decodedIRData.flags := irdataFlagsEmpty
        lastDecodedProtocol := s.decodedIRData.protocol
        lastDecodedCommand := s.decodedIRData.command.setWidth 32
        lastDecodedAddress := s.decodedIRData.address.setWidth 32 }
  { s with
    decodedIRData.protocol := .unknown
    decodedIRData.command := 0
    decodedIRData.address := 0
    decodedIRData.decodedRawData := 0
    decodedIRData.numberOfBits := 0 }

/-- `checkHeader`; the space is read only after a matching mark. -/
def checkHeader (timingInfo : DistanceWidthTimingInfo) (irparams : IrParams) : Option Bool := do
  if !matchMark (← irparams.raw 1) timingInfo.headerMarkMicros then
    return false
  return matchSpace (← irparams.raw 2) timingInfo.headerSpaceMicros

/-- `checkForRepeatSpaceTicksAndSetFlag`. -/
def checkForRepeatSpaceTicksAndSetFlag (aMaximumRepeatSpaceTicks : ℕ) (irparams : IrParams)
    (s : DecodeState) : Option DecodeState := do
  let gap ← irparams.raw 0
  return if gap < aMaximumRepeatSpaceTicks then
    { s with decodedIRData.flags := s.decodedIRData.flags ||| irdataFlagsIsRepeat }
  else s

/-! ## Pulse distance and pulse width -/

/-- The value of the bit whose mark stands at index `i`. A pulse distance protocol
has a constant mark and is decided by the space, a pulse width protocol by the mark. -/
def bitValue (irparams : IrParams) (aOneMarkMicros aZeroMarkMicros aOneSpaceMicros i : ℕ) :
    Option Bool :=
  if aOneMarkMicros = aZeroMarkMicros then
    (irparams.raw (i + 1)).map fun tSpaceTicks => matchSpace tSpaceTicks aOneSpaceMicros
  else
    (irparams.raw i).map fun tMarkTicks => matchMark tMarkTicks aOneMarkMicros

/-- The loop of `decodePulseDistanceWidthData`, over the bits still to decode. -/
def decodeBits (bit : ℕ → Option Bool) (aMSBfirst : Bool) :
    ℕ → ℕ → BitVec 32 → BitVec 32 → Option (BitVec 32)
  | 0, _, tDecodedData, _ => some tDecodedData
  | i + 1, tRawBufPointer, tDecodedData, tMask => do
    let tBitValue ← bit tRawBufPointer
    let tDecodedData := if aMSBfirst then tDecodedData <<< 1 else tDecodedData
    let tDecodedData :=
      if tBitValue then tDecodedData ||| (if aMSBfirst then 1 else tMask) else tDecodedData
    decodeBits bit aMSBfirst i (tRawBufPointer + 2) tDecodedData (tMask <<< 1)

/-- `decodePulseDistanceWidthData`. The space of a zero is only checked by the strict
checks, which are compiled out, so without them the decode cannot fail. -/
def decodePulseDistanceWidthData (aNumberOfBits aStartOffset aOneMarkMicros aZeroMarkMicros
    aOneSpaceMicros : ℕ) (aMSBfirst : Bool) : Decoder := fun irparams s => do
  let tDecodedData ←
    decodeBits (bitValue irparams aOneMarkMicros aZeroMarkMicros aOneSpaceMicros) aMSBfirst
      aNumberOfBits aStartOffset 0#32 1#32
  return (true, { s with decodedIRData.decodedRawData := tDecodedData })

/-- `decodePulseDistanceWidthDatav2`. -/
def decodePulseDistanceWidthDatav2 (timingInfo : DistanceWidthTimingInfo) (flags : BitVec 8)
    (aNumberOfBits aStartOffset : ℕ) : Decoder :=
  decodePulseDistanceWidthData aNumberOfBits aStartOffset timingInfo.oneMarkMicros
    timingInfo.zeroMarkMicros timingInfo.oneSpaceMicros (flags ≠ 0)

/-- `decodePulseDistanceWidthDatav3`, which starts behind the header. -/
def decodePulseDistanceWidthDatav3 (timingInfo : DistanceWidthTimingInfo) (flags : BitVec 8)
    (aNumberOfBits : ℕ) : Decoder :=
  decodePulseDistanceWidthDatav2 timingInfo flags aNumberOfBits 3

/-! ## Biphase -/

/-- The levels `MARK` and `SPACE` and the error result of `getBiphaselevel`. -/
inductive BiphaseLevel where
  | space
  | mark
  | error
  deriving DecidableEq, Repr

/-- `initBiphaselevel`; the number of intervals keeps its old value. -/
def initBiphaselevel (aRCDecodeRawbuffOffset aBiphaseTimeUnit : ℕ) (b : Biphase) : Biphase :=
  { b with
    decodeRawbuffOffset := aRCDecodeRawbuffOffset
    timeUnit := aBiphaseTimeUnit
    usedTimingIntervals := 0 }

/-- The number of intervals of a timing, `none` when no multiple of the unit matches.
The correction is added in 16 bits, so that of a space subtracts. -/
def timingIntervals (timeUnit : ℕ) (isMark : Bool) (ticks : ℕ) : Option ℕ :=
  let tMarkExcessCorrection := if isMark then markExcessMicros else 65536 - markExcessMicros
  if matchTicks ticks ((timeUnit + tMarkExcessCorrection) % 65536) then some 1
  else if matchTicks ticks ((2 * timeUnit + tMarkExcessCorrection) % 65536) then some 2
  else if matchTicks ticks ((3 * timeUnit + tMarkExcessCorrection) % 65536) then some 3
  else none

/-- Use one interval of the current timing. -/
def Biphase.useInterval (b : Biphase) : Biphase :=
  let b := { b with usedTimingIntervals := (b.usedTimingIntervals + 1) % 256 }
  if b.currentTimingIntervals ≤ b.usedTimingIntervals then
    { b with usedTimingIntervals := 0, decodeRawbuffOffset := (b.decodeRawbuffOffset + 1) % 256 }
  else b

/-- `getBiphaselevel`. -/
def getBiphaselevel (irparams : IrParams) (b : Biphase) : Option (BiphaseLevel × Biphase) :=
  -- after the end of the recorded buffer, assume space
  if irparams.rawlen ≤ b.decodeRawbuffOffset then some (.space, b)
  else
    -- on odd offsets we have mark timings
    let isMark : Bool := b.decodeRawbuffOffset % 2 = 1
    let level : BiphaseLevel := if isMark then .mark else .space
    if b.usedTimingIntervals = 0 then do
      match timingIntervals b.timeUnit isMark (← irparams.raw b.decodeRawbuffOffset) with
      | some n => some (level, { b with currentTimingIntervals := n }.useInterval)
      | none => some (.error, b)
    else some (level, b.useInterval)

/-! ## Hash -/

/-- `compare`. -/
def compareTicks (oldval newval : ℕ) : BitVec 32 :=
  if newval * 10 < oldval * 8 then 0
  else if oldval * 10 < newval * 8 then 2
  else 1

/-- The loop of `decodeHash`, over the entries still to hash. -/
def hashTicks (irparams : IrParams) : ℕ → ℕ → BitVec 32 → Option (BitVec 32)
  | 0, _, hash => some hash
  | n + 1, i, hash => do
    let value := compareTicks (← irparams.raw i) (← irparams.raw (i + 2))
    hashTicks irparams n (i + 1) ((hash * 16777619) ^^^ value)

/-- `decodeHash`. -/
def decodeHash : Decoder := fun irparams s => do
  -- require at least 6 samples to prevent triggering on noise
  if irparams.rawlen < 6 then
    return (false, s)
  let hash ← hashTicks irparams (irparams.rawlen - 3) 1 2166136261
  return (true, { s with
    decodedIRData.decodedRawData := hash
    decodedIRData.numberOfBits := 32
    decodedIRData.protocol := .unknown })

/-- A hashed frame is of no known protocol, and only a very short one is refused. -/
theorem decodeHash_ensures {p : IrParams} {s : DecodeState} : Attempt.Ensures
    (fun s' => s'.decodedIRData.protocol = .unknown) (fun s' => s' = s ∧ p.rawlen < 6)
    (decodeHash p s) := by
  unfold decodeHash
  exact .ite (fun h => .refuse ⟨rfl, h⟩) fun _ => .bind fun _ _ => .accept rfl

/-- The hash of a frame reads nothing behind it. -/
theorem exists_hashTicks (p : IrParams) {n i : ℕ} (hash : BitVec 32)
    (h : i + n + 2 ≤ rawBufferLength) : ∃ hash', hashTicks p n i hash = some hash' := by
  induction n generalizing i hash with
  | zero => exact ⟨hash, rfl⟩
  | succ n ih =>
    obtain ⟨t, ht⟩ := p.exists_raw (show i < rawBufferLength by omega)
    obtain ⟨u, hu⟩ := p.exists_raw (show i + 2 < rawBufferLength by omega)
    rw [hashTicks, ht, hu, Option.bind_eq_bind, Option.bind_some, Option.bind_some]
    exact ih _ (by omega)

theorem exists_decodeHash {p : IrParams} (s : DecodeState) (hlen : 6 ≤ p.rawlen)
    (hbuf : p.rawlen ≤ rawBufferLength) :
    ∃ s', decodeHash p s = some (true, s') ∧ s'.decodedIRData.protocol = .unknown := by
  obtain ⟨hash, hhash⟩ := exists_hashTicks p (i := 1) (n := p.rawlen - 3) 2166136261 (by omega)
  have hdecode : decodeHash p s = some (true, { s with
      decodedIRData.decodedRawData := hash
      decodedIRData.numberOfBits := 32
      decodedIRData.protocol := .unknown }) := by
    rw [decodeHash, if_neg (Nat.not_lt.mpr hlen), hhash]
    rfl
  exact ⟨_, hdecode, rfl⟩

/-! ## The bits received -/

variable {bit bit' : ℕ → Option Bool} {bits : List Bool} {start n : ℕ} {data mask : BitVec 32}

theorem decodeBits_lsb (h : ∀ j (hj : j < bits.length), bit (start + 2 * j) = some bits[j]) :
    decodeBits bit false bits.length start data mask =
      some (BitWord.collectLsb bits mask data) := by
  induction bits generalizing start data mask with
  | nil => rfl
  | cons b bits ih =>
    have hfirst : bit start = some b := h 0 (by simp)
    have hrest : ∀ j (hj : j < bits.length), bit (start + 2 + 2 * j) = some bits[j] := by
        intro j hj
        rw [Nat.add_assoc, Nat.add_comm 2, ← Nat.mul_succ]
        exact h (j + 1) (by simpa using hj)
    simp only [List.length_cons, decodeBits, hfirst, Option.bind_eq_bind, Option.bind_some]
    exact ih hrest

theorem decodeBits_msb (h : ∀ j (hj : j < bits.length), bit (start + 2 * j) = some bits[j]) :
    decodeBits bit true bits.length start data mask = some (BitWord.collectMsb bits data) := by
  induction bits generalizing start data mask with
  | nil => rfl
  | cons b bits ih =>
    have hfirst : bit start = some b := h 0 (by simp)
    have hrest : ∀ j (hj : j < bits.length), bit (start + 2 + 2 * j) = some bits[j] := by
        intro j hj
        rw [Nat.add_assoc, Nat.add_comm 2, ← Nat.mul_succ]
        exact h (j + 1) (by simpa using hj)
    simp only [List.length_cons, decodeBits, hfirst, Option.bind_eq_bind, Option.bind_some]
    exact ih hrest

/-- The decoded data depend on the bits read and on nothing else. -/
theorem decodeBits_congr {msb : Bool} (h : ∀ j < n, bit (start + 2 * j) = bit' (start + 2 * j)) :
    decodeBits bit msb n start data mask = decodeBits bit' msb n start data mask := by
  induction n generalizing start data mask with
  | zero => rfl
  | succ n ih =>
    simp only [decodeBits, show bit start = bit' start from h 0 (by omega), Option.bind_eq_bind]
    refine Option.bind_congr fun b _ => ih fun j hj => ?_
    rw [Nat.add_assoc, Nat.add_comm 2, ← Nat.mul_succ]
    exact h (j + 1) (by omega)

theorem decodePulseDistanceWidthData_eq {p : IrParams} {s : DecodeState}
    {oneMark zeroMark oneSpace : ℕ} {msb : Bool}
    (h : decodeBits (bitValue p oneMark zeroMark oneSpace) msb n start 0#32 1#32 = some data) :
    decodePulseDistanceWidthData n start oneMark zeroMark oneSpace msb p s =
      some (true, { s with decodedIRData.decodedRawData := data }) := by
  simp [decodePulseDistanceWidthData, h]

theorem decodePulseDistanceWidthData_spec {p : IrParams} {s s' : DecodeState} {b : Bool}
    {oneMark zeroMark oneSpace : ℕ} {msb : Bool}
    (h : decodePulseDistanceWidthData n start oneMark zeroMark oneSpace msb p s = some (b, s')) :
    b = true ∧ ∃ data,
      decodeBits (bitValue p oneMark zeroMark oneSpace) msb n start 0#32 1#32 = some data ∧
        s' = { s with decodedIRData.decodedRawData := data } := by
  obtain ⟨data, hbits, hdata⟩ := Option.bind_eq_some_iff.mp h
  obtain ⟨rfl, rfl⟩ := Prod.mk.inj (Option.some.inj hdata)
  exact ⟨rfl, data, hbits, rfl⟩

theorem checkForRepeatSpaceTicksAndSetFlag_spec {p : IrParams} {s s' : DecodeState} {ticks : ℕ}
    (h : checkForRepeatSpaceTicksAndSetFlag ticks p s = some s') :
    ∃ flags, s' = { s with decodedIRData.flags := flags } := by
  unfold checkForRepeatSpaceTicksAndSetFlag at h
  obtain ⟨gap, -, hs⟩ := Option.bind_eq_some_iff.mp h
  obtain rfl := Option.some.inj hs
  split_ifs
  · exact ⟨_, rfl⟩
  · exact ⟨s.decodedIRData.flags, rfl⟩

theorem exists_decodeBits {msb : Bool} (h : ∀ j < n, ∃ b, bit (start + 2 * j) = some b) :
    ∃ data', decodeBits bit msb n start data mask = some data' := by
  induction n generalizing start data mask with
  | zero => exact ⟨data, rfl⟩
  | succ n ih =>
    obtain ⟨b, hb⟩ := h 0 (Nat.succ_pos n)
    have hrest : ∀ j < n, ∃ b, bit (start + 2 + 2 * j) = some b := by
      intro j hj
      rw [Nat.add_assoc, Nat.add_comm 2, ← Nat.mul_succ]
      exact h (j + 1) (by omega)
    rw [decodeBits, show bit start = some b from hb, Option.bind_eq_bind, Option.bind_some]
    exact ih hrest

/-- Bits inside the buffer are decoded, even behind the frame. -/
theorem exists_decodeBits_bitValue (p : IrParams) (h : start + 2 * n ≤ rawBufferLength)
    (oneMark zeroMark oneSpace : ℕ) (msb : Bool) :
    ∃ data, decodeBits (bitValue p oneMark zeroMark oneSpace) msb n start 0#32 1#32 =
      some data := by
  apply exists_decodeBits
  intro j hj
  obtain ⟨t, ht⟩ := p.exists_raw (show start + 2 * j < rawBufferLength by omega)
  obtain ⟨u, hu⟩ := p.exists_raw (show start + 2 * j + 1 < rawBufferLength by omega)
  unfold bitValue
  split_ifs
  · exact ⟨_, by rw [hu, Option.map_some]⟩
  · exact ⟨_, by rw [ht, Option.map_some]⟩

theorem checkForRepeatSpaceTicksAndSetFlag_eq {p : IrParams} {g : ℕ} (h : p.raw 0 = some g)
    (ticks : ℕ) (s : DecodeState) : checkForRepeatSpaceTicksAndSetFlag ticks p s = some
      { s with decodedIRData.flags :=
          if g < ticks then s.decodedIRData.flags ||| irdataFlagsIsRepeat
          else s.decodedIRData.flags } := by
  simp only [checkForRepeatSpaceTicksAndSetFlag, h, Option.bind_eq_bind, Option.bind_some]
  split_ifs <;> rfl

/-- A frame that follows a gap of so many ticks. -/
def IRData.afterGap (d : IRData) (gap aMaximumRepeatSpaceTicks : ℕ) : IRData :=
  { d with
    flags := if gap < aMaximumRepeatSpaceTicks then d.flags ||| irdataFlagsIsRepeat else d.flags }

/-- The other flags do not depend on the gap. -/
theorem IRData.afterGap_and {mask : BitVec 8} (hmask : irdataFlagsIsRepeat &&& mask = 0)
    (d : IRData) (gap ticks : ℕ) :
    (d.afterGap gap ticks).flags &&& mask = d.flags &&& mask := by
  unfold IRData.afterGap
  split_ifs
  · rw [BitVec.and_or_distrib_right, hmask]
    exact BitVec.or_zero
  · rfl

theorem IRData.afterGap_toggleBit (d : IRData) (gap ticks : ℕ) :
    (d.afterGap gap ticks).flags &&& irdataFlagsToggleBit = d.flags &&& irdataFlagsToggleBit :=
  d.afterGap_and (by decide) gap ticks

theorem exists_checkForRepeatSpaceTicksAndSetFlag (ticks : ℕ) (p : IrParams) (s : DecodeState) :
    ∃ s', checkForRepeatSpaceTicksAndSetFlag ticks p s = some s' := by
  obtain ⟨g, hg⟩ := p.exists_raw (show 0 < rawBufferLength by decide)
  exact ⟨_, checkForRepeatSpaceTicksAndSetFlag_eq hg ticks s⟩

/-- The header lies inside the buffer, whatever the length of the frame. -/
theorem exists_checkHeader (timingInfo : DistanceWidthTimingInfo) (p : IrParams) :
    ∃ b, checkHeader timingInfo p = some b := by
  obtain ⟨t, ht⟩ := p.exists_raw (show 1 < rawBufferLength by decide)
  obtain ⟨u, hu⟩ := p.exists_raw (show 2 < rawBufferLength by decide)
  cases hmark : matchMark t timingInfo.headerMarkMicros <;> simp [checkHeader, ht, hu, hmark]

theorem checkHeader_of_space {timingInfo : DistanceWidthTimingInfo} {p : IrParams} {t u : ℕ}
    (h₁ : p.raw 1 = some t) (h₂ : p.raw 2 = some u)
    (hu : matchSpace u timingInfo.headerSpaceMicros = false) :
    checkHeader timingInfo p = some false := by
  simp [checkHeader, h₁, h₂, hu]

theorem checkHeader_eq {timingInfo : DistanceWidthTimingInfo} {p : IrParams} {t u : ℕ}
    (h₁ : p.raw 1 = some t) (h₂ : p.raw 2 = some u) :
    checkHeader timingInfo p =
      some (matchMark t timingInfo.headerMarkMicros &&
        matchSpace u timingInfo.headerSpaceMicros) := by
  cases hmark : matchMark t timingInfo.headerMarkMicros <;> simp [checkHeader, h₁, h₂, hmark]

/-- The answer to a special repeat frame: the repeat flag is set and no bits are counted. -/
structure RepeatAnswer (s s' : DecodeState) : Prop where
  flag : s'.decodedIRData.flags &&& irdataFlagsIsRepeat ≠ 0
  numberOfBits : s'.decodedIRData.numberOfBits = s.decodedIRData.numberOfBits

theorem isRepeat_lsbFirst :
    (irdataFlagsIsRepeat ||| irdataFlagsIsLsbFirst) &&& irdataFlagsIsRepeat ≠ 0 := by decide

theorem isRepeat_msbFirst :
    (irdataFlagsIsRepeat ||| irdataFlagsIsMsbFirst) &&& irdataFlagsIsRepeat ≠ 0 := by decide

/-! ## Equal frames -/

/-- Two receiver records that differ at most in the buffer behind the frame. -/
structure SameFrame (p q : IrParams) : Prop where
  stateForISR : p.stateForISR = q.stateForISR
  overflowFlag : p.overflowFlag = q.overflowFlag
  rawlen : p.rawlen = q.rawlen
  raw : ∀ i < p.rawlen, p.raw i = q.raw i

variable {p q : IrParams} {s : DecodeState}

theorem SameFrame.irRemoteInitDecodedIRData (h : SameFrame p q) :
    irRemoteInitDecodedIRData p s = irRemoteInitDecodedIRData q s := by
  simp only [IrRemote.irRemoteInitDecodedIRData, h.overflowFlag]

theorem SameFrame.checkHeader (h : SameFrame p q) (hlen : 3 ≤ p.rawlen)
    (timingInfo : DistanceWidthTimingInfo) :
    checkHeader timingInfo p = checkHeader timingInfo q := by
  simp only [IrRemote.checkHeader, h.raw 1 (by omega), h.raw 2 (by omega)]

theorem SameFrame.checkForRepeatSpaceTicksAndSetFlag (h : SameFrame p q) (hlen : 1 ≤ p.rawlen)
    (ticks : ℕ) :
    checkForRepeatSpaceTicksAndSetFlag ticks p s =
      checkForRepeatSpaceTicksAndSetFlag ticks q s := by
  simp only [IrRemote.checkForRepeatSpaceTicksAndSetFlag, h.raw 0 (by omega)]

/-- A pulse distance decode reads up to the last space, a pulse width decode up to the
last mark. -/
theorem SameFrame.decodePulseDistanceWidthData (h : SameFrame p q) {oneMark zeroMark oneSpace : ℕ}
    {msb : Bool} (hlen : start + 2 * n ≤ p.rawlen ∨
      oneMark ≠ zeroMark ∧ start + 2 * n ≤ p.rawlen + 1) :
    decodePulseDistanceWidthData n start oneMark zeroMark oneSpace msb p s =
      decodePulseDistanceWidthData n start oneMark zeroMark oneSpace msb q s := by
  simp only [IrRemote.decodePulseDistanceWidthData]
  rw [decodeBits_congr fun j hj => ?_]
  unfold bitValue
  rcases hlen with hlen | ⟨hne, hlen⟩
  · rw [h.raw (start + 2 * j) (by omega), h.raw (start + 2 * j + 1) (by omega)]
  · rw [if_neg hne, if_neg hne, h.raw (start + 2 * j) (by omega)]

theorem SameFrame.getBiphaselevel (h : SameFrame p q) (b : Biphase) :
    getBiphaselevel p b = getBiphaselevel q b := by
  unfold IrRemote.getBiphaselevel
  rw [← h.rawlen]
  split_ifs with hend
  · rfl
  · rw [h.raw b.decodeRawbuffOffset (by omega)]
  · rfl

theorem SameFrame.hashTicks (h : SameFrame p q) {i : ℕ} (hlen : i + n + 2 ≤ p.rawlen)
    (hash : BitVec 32) : hashTicks p n i hash = hashTicks q n i hash := by
  induction n generalizing i hash with
  | zero => rfl
  | succ n ih =>
    simp only [IrRemote.hashTicks, h.raw i (by omega), h.raw (i + 2) (by omega)]
    congr 1
    funext t
    congr 1
    funext u
    exact ih (by omega) _

theorem SameFrame.decodeHash (h : SameFrame p q) : decodeHash p s = decodeHash q s := by
  simp only [IrRemote.decodeHash, ← h.rawlen]
  split_ifs with hshort
  · rfl
  · rw [h.hashTicks (by omega)]

end IrRemote
