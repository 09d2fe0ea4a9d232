import IrRemote.Mid.LongUnion
import IrRemote.Mid.Matching
import IrRemote.Mid.Transmit

/-!
# RC5 and RC6

`Ir_RC5_RC6.c`: the two biphase protocols, most significant bit first. Every bit is
a transition between two half bits; RC5 starts with a space for a one, RC6 with a
mark, and the toggle bit of RC6 has double width.

Both senders keep the toggle state of the last command, which is passed through. The
decoder loops run until the buffer offset, a byte, reaches the end of the frame; they
are given a bound on their rounds, and their result is `none` when it is used up.

## Main definitions

* `sendRC5`, `sendRC6` — the senders
* `rc5Bits`, `rc6Bits` — the loops of the decoders
* `decodeRC5`, `decodeRC6` — the decoders

## Main results

* `decodeRC5_ensures`, `decodeRC6_ensures` — what they decode
* `SameFrame.decodeRC5`, `SameFrame.decodeRC6` — what they read
-/

set_option autoImplicit false

namespace IrRemote

/-! ## Constants -/

def rc5Rc6Khz : ℕ := 36
def rc5AddressBits : ℕ := 5
def rc5CommandBits : ℕ := 6
def rc5CommandFieldBit : ℕ := 1
def rc5ToggleBit : ℕ := 1
def rc5Bits : ℕ := rc5CommandFieldBit + rc5ToggleBit + rc5AddressBits + rc5CommandBits
def rc5Unit : ℕ := 889
def rc5Duration : ℕ := 15 * rc5Unit
def rc5RepeatPeriod : ℕ := 128 * rc5Unit
def rc5RepeatDistance : ℕ := rc5RepeatPeriod - rc5Duration
def rc5MaximumRepeatDistance : ℕ := rc5RepeatDistance + rc5RepeatDistance / 4

def rc6LeadingBit : ℕ := 1
def rc6ModeBits : ℕ := 3
def rc6ToggleBit : ℕ := 1
def rc6ToggleBitIndex : ℕ := rc6ModeBits
def rc6AddressBits : ℕ := 8
def rc6CommandBits : ℕ := 8
def rc6Bits : ℕ := rc6LeadingBit + rc6ModeBits + rc6ToggleBit + rc6AddressBits + rc6CommandBits
def rc6Unit : ℕ := 444
def rc6HeaderMark : ℕ := 6 * rc6Unit
def rc6HeaderSpace : ℕ := 2 * rc6Unit
def minRc6Marks : ℕ := 4 + (rc6AddressBits + rc6CommandBits) / 2
def rc6RepeatDistance : ℕ := 107000
def rc6MaximumRepeatDistance : ℕ := rc6RepeatDistance + rc6RepeatDistance / 4

/-! ## Senders -/

/-- `sLastSendToggleValue` at power-up: the first command has toggle 0. -/
def initialSendToggleValue : BitVec 8 := 1

/-- The automatic toggle: the bit to send and the new state. -/
def nextToggle (aEnableAutomaticToggle : Bool) (sLastSendToggleValue : BitVec 8) :
    Bool × BitVec 8 :=
  if aEnableAutomaticToggle then
    if sLastSendToggleValue = 0 then (true, 1) else (false, 0)
  else (false, sLastSendToggleValue)

/-- The data word of `sendRC5`; commands above 63 clear the field bit (RC5X). -/
def rc5RawData (aAddress aCommand : BitVec 8) (toggle : Bool) : BitVec 16 :=
  let tIRData : BitVec 16 := (aAddress &&& 0x1F).setWidth 16 <<< rc5CommandBits
  let tIRData :=
    if aCommand < 0x40 then
      tIRData ||| (1 <<< (rc5ToggleBit + rc5AddressBits + rc5CommandBits)) ||| aCommand.setWidth 16
    else tIRData ||| (aCommand &&& 0x3F).setWidth 16
  if toggle then tIRData ||| (1 <<< (rc5AddressBits + rc5CommandBits)) else tIRData

/-- `sendRC5`. -/
def sendRC5 (aAddress aCommand : BitVec 8) (aNumberOfRepeats : ℕ) (aEnableAutomaticToggle : Bool)
    (sLastSendToggleValue : BitVec 8) : List TxEvent × BitVec 8 :=
  let (toggle, state) := nextToggle aEnableAutomaticToggle sLastSendToggleValue
  let tIRData := rc5RawData aAddress aCommand toggle
  (.enableIROut rc5Rc6Khz ::
    sendCommands (sendBiphaseData rc5Unit (tIRData.setWidth 32) rc5Bits)
      [.delayMs (rc5RepeatDistance / 1000)] (aNumberOfRepeats + 1), state)

/-- The loop of `sendRC6RawWith32Bit`, over the bits still to send. The index counts from
1, and the fourth bit is the double width toggle bit. -/
def sendRC6Bits (aRawData : BitVec 32) : ℕ → ℕ → BitVec 32 → List TxEvent
  | 0, _, _ => []
  | n + 1, i, mask =>
    let t := if i = rc6ToggleBitIndex + 1 then rc6Unit * 2 else rc6Unit
    (if aRawData &&& mask ≠ 0 then [.mark t, .space t] else [.space t, .mark t]) ++
      sendRC6Bits aRawData n (i + 1) (mask >>> 1)

/-- `sendRC6RawWith32Bit`; the mask is shifted out after `aNumberOfBitsToSend` rounds. -/
def sendRC6RawWith32Bit (aRawData : BitVec 32) (aNumberOfBitsToSend : ℕ) : List TxEvent :=
  [.enableIROut rc5Rc6Khz, .mark rc6HeaderMark, .space rc6HeaderSpace, .mark rc6Unit,
    .space rc6Unit] ++
  sendRC6Bits aRawData aNumberOfBitsToSend 1 (BitVec.twoPow 32 (aNumberOfBitsToSend - 1))

/-- The data word of `sendRC6`; the 3 mode bits are 0. -/
def rc6RawData (aAddress aCommand : BitVec 8) (toggle : Bool) : LongUnion where
  lowByte := aCommand
  midLowByte := aAddress
  midHighByte := if toggle then 1 else 0
  highByte := 0

/-- `sendRC6`; the leading bit is sent by `sendRC6RawWith32Bit`. -/
def sendRC6 (aAddress aCommand : BitVec 8) (aNumberOfRepeats : ℕ) (aEnableAutomaticToggle : Bool)
    (sLastSendToggleValue : BitVec 8) : List TxEvent × BitVec 8 :=
  let (toggle, state) := nextToggle aEnableAutomaticToggle sLastSendToggleValue
  (sendCommands (sendRC6RawWith32Bit (rc6RawData aAddress aCommand toggle).uLong (rc6Bits - 1))
    [.delayMs (rc6RepeatDistance / 1000)] (aNumberOfRepeats + 1), state)

/-! ## Decoders -/

/-- Enough rounds for every frame: an offset below 256 has at most 3 intervals. -/
def biphaseRounds : ℕ := 3 * 256

/-- The loop of `decodeRC5`. A finished loop gives the number of bits, a byte, and the
data; a missing transition gives no data. -/
def rc5Loop (irparams : IrParams) :
    ℕ → ℕ → BitVec 32 → Biphase → Option (Option (ℕ × BitVec 32) × Biphase)
  | 0, _, _, _ => none
  | rounds + 1, tBitIndex, tDecodedRawData, b =>
    if b.decodeRawbuffOffset < irparams.rawlen then do
      let (tStartLevel, b) ← getBiphaselevel irparams b
      let (tEndLevel, b) ← getBiphaselevel irparams b
      if tStartLevel = .space ∧ tEndLevel = .mark then
        rc5Loop irparams rounds ((tBitIndex + 1) % 256) (tDecodedRawData <<< 1 ||| 1) b
      else if tStartLevel = .mark ∧ tEndLevel = .space then
        rc5Loop irparams rounds ((tBitIndex + 1) % 256) (tDecodedRawData <<< 1) b
      else return (none, b)
    else some (some (tBitIndex, tDecodedRawData), b)

/-- The frame `decodeRC5` reads off its data. -/
def rc5Fields (tBitIndex : ℕ) (tDecodedRawData : BitVec 32) (d : IRData) : IRData :=
  let tValue := LongUnion.ofULong tDecodedRawData
  let command : BitVec 16 := (tValue.lowByte &&& 0x3F).setWidth 16
  { d with
    numberOfBits := tBitIndex
    decodedRawData := tDecodedRawData
    -- the inverted 7. command bit for RC5X, always 1 for RC5
    command :=
      if tValue.lowWord &&& (1 <<< (rc5ToggleBit + rc5AddressBits + rc5CommandBits)) = 0 then
        command + 0x40
      else command
    address := (tValue.lowWord >>> rc5CommandBits) &&& 0x1F
    flags :=
      if tValue.midLowByte &&& 0x8 ≠ 0 then irdataFlagsToggleBit ||| irdataFlagsIsMsbFirst
      else irdataFlagsIsMsbFirst
    protocol := .rc5 }

/-- `decodeRC5`. -/
def decodeRC5 : Decoder := fun irparams s => do
  -- skip gap space
  let b := initBiphaselevel 1 rc5Unit s.biphase
  -- no length satisfies both comparisons
  if irparams.rawlen < (rc5Bits + 1) / 2 + 2 ∧ rc5Bits + 2 < irparams.rawlen then
    return (false, { s with biphase := b })
  -- check start bit, the first space is included in the gap
  let (level, b) ← getBiphaselevel irparams b
  if level ≠ .mark then
    return (false, { s with biphase := b })
  let (result, b) ← rc5Loop irparams biphaseRounds 0 0 b
  match result with
  | none => return (false, { s with biphase := b })
  | some (tBitIndex, tDecodedRawData) =>
    let s ← checkForRepeatSpaceTicksAndSetFlag (rc5MaximumRepeatDistance / microsPerTick) irparams
      { s with
        biphase := b
        decodedIRData := rc5Fields tBitIndex tDecodedRawData s.decodedIRData }
    return (true, s)

/-- The loop of `decodeRC6`. The two halves of the toggle bit are double wide. -/
def rc6Loop (irparams : IrParams) :
    ℕ → ℕ → BitVec 32 → Biphase → Option (Option (ℕ × BitVec 32) × Biphase)
  | 0, _, _, _ => none
  | rounds + 1, tBitIndex, tDecodedRawData, b =>
    if b.decodeRawbuffOffset < irparams.rawlen then do
      let (tStartLevel, b) ← getBiphaselevel irparams b
      let (tStartLevel', b) ←
        if tBitIndex = rc6ToggleBitIndex then getBiphaselevel irparams b
        else some (tStartLevel, b)
      if tStartLevel ≠ tStartLevel' then
        return (none, b)
      let (tEndLevel, b) ← getBiphaselevel irparams b
      let (tEndLevel', b) ←
        if tBitIndex = rc6ToggleBitIndex then getBiphaselevel irparams b
        else some (tEndLevel, b)
      if tEndLevel ≠ tEndLevel' then
        return (none, b)
      if tStartLevel = .mark ∧ tEndLevel = .space then
        rc6Loop irparams rounds ((tBitIndex + 1) % 256) (tDecodedRawData <<< 1 ||| 1) b
      else if tStartLevel = .space ∧ tEndLevel = .mark then
        rc6Loop irparams rounds ((tBitIndex + 1) % 256) (tDecodedRawData <<< 1) b
      else return (none, b)
    else some (some (tBitIndex, tDecodedRawData), b)

/-- The frame `decodeRC6` reads off its data: RC6 below 36 bits, RC6A from there on. -/
def rc6Fields (tBitIndex : ℕ) (tDecodedRawData : BitVec 32) (d : IRData) : IRData :=
  let tValue := LongUnion.ofULong tDecodedRawData
  let toggle : Bool :=
    if tBitIndex < 36 then tValue.midHighByte &&& 1 ≠ 0 else tValue.midLowByte &&& 0x80 ≠ 0
  let flags :=
    if toggle then irdataFlagsToggleBit ||| irdataFlagsIsMsbFirst else irdataFlagsIsMsbFirst
  { d with
    numberOfBits := tBitIndex
    decodedRawData := tDecodedRawData
    flags := if 20 < tBitIndex ∧ tBitIndex < 36 then flags ||| irdataFlagsExtraInfo else flags
    command := tValue.lowByte.setWidth 16
    -- mask toggle bit
    address :=
      (if tBitIndex < 36 then tValue.midLowByte else tValue.midLowByte &&& 0x7F).setWidth 16 }

/-- `decodeRC6`; the header is read before any length check takes effect. -/
def decodeRC6 : Decoder := fun irparams s => do
  -- no length satisfies both comparisons
  if irparams.rawlen < minRc6Marks + 3 ∧ rc6Bits + 3 < irparams.rawlen then
    return (false, s)
  if !matchMark (← irparams.raw 1) rc6HeaderMark ||
      !matchSpace (← irparams.raw 2) rc6HeaderSpace then
    return (false, s)
  -- skip gap space and header
  let b := initBiphaselevel 3 rc6Unit s.biphase
  -- process first bit, which is known to be a 1 (mark->space)
  let (level, b) ← getBiphaselevel irparams b
  if level ≠ .mark then
    return (false, { s with biphase := b })
  let (level, b) ← getBiphaselevel irparams b
  if level ≠ .space then
    return (false, { s with biphase := b })
  let (result, b) ← rc6Loop irparams biphaseRounds 0 0 b
  match result with
  | none => return (false, { s with biphase := b })
  | some (tBitIndex, tDecodedRawData) =>
    let s ← checkForRepeatSpaceTicksAndSetFlag (rc6MaximumRepeatDistance / microsPerTick) irparams
      { s with
        biphase := b
        decodedIRData := rc6Fields tBitIndex tDecodedRawData s.decodedIRData }
    return (true, { s with decodedIRData.protocol := .rc6 })

/-! ## What the decoders do -/

variable {p q : IrParams} {s : DecodeState} {t u : ℕ}

theorem SameFrame.rc5Loop (h : SameFrame p q) (rounds tBitIndex : ℕ) (data : BitVec 32)
    (b : Biphase) : rc5Loop p rounds tBitIndex data b = rc5Loop q rounds tBitIndex data b := by
  induction rounds generalizing tBitIndex data b with
  | zero => rfl
  | succ rounds ih => simp only [IrRemote.rc5Loop, h.rawlen, h.getBiphaselevel, ih]

theorem SameFrame.rc6Loop (h : SameFrame p q) (rounds tBitIndex : ℕ) (data : BitVec 32)
    (b : Biphase) : rc6Loop p rounds tBitIndex data b = rc6Loop q rounds tBitIndex data b := by
  induction rounds generalizing tBitIndex data b with
  | zero => rfl
  | succ rounds ih => simp only [IrRemote.rc6Loop, h.rawlen, h.getBiphaselevel, ih]

theorem SameFrame.decodeRC5 (h : SameFrame p q) (hlen : 1 ≤ p.rawlen) :
    decodeRC5 p s = decodeRC5 q s := by
  simp only [IrRemote.decodeRC5, h.rawlen, h.getBiphaselevel, h.rc5Loop,
    h.checkForRepeatSpaceTicksAndSetFlag hlen]

theorem SameFrame.decodeRC6 (h : SameFrame p q) (hlen : 3 ≤ p.rawlen) :
    decodeRC6 p s = decodeRC6 q s := by
  simp only [IrRemote.decodeRC6, h.rawlen, h.raw 1 (by omega), h.raw 2 (by omega),
    h.getBiphaselevel, h.rc6Loop, h.checkForRepeatSpaceTicksAndSetFlag (by omega)]

/-- A refusal changes nothing but the static variables of `getBiphaselevel`. -/
theorem decodeRC5_ensures : Attempt.Ensures (fun s' => s'.decodedIRData.protocol = .rc5)
    (fun s' => ∃ b, s' = { s with biphase := b }) (decodeRC5 p s) := by
  unfold decodeRC5
  refine .ite (fun _ => .refuse ⟨_, rfl⟩) fun _ => .bind fun ⟨level, b⟩ _ =>
    .ite (fun _ => .refuse ⟨b, rfl⟩) fun _ => .bind fun ⟨result, b⟩ _ => ?_
  cases result with
  | none => exact .refuse ⟨b, rfl⟩
  | some data =>
    refine .bind fun u hu => ?_
    obtain ⟨flags, rfl⟩ := checkForRepeatSpaceTicksAndSetFlag_spec hu
    exact .accept rfl

theorem decodeRC6_ensures : Attempt.Ensures (fun s' => s'.decodedIRData.protocol = .rc6)
    (fun s' => ∃ b, s' = { s with biphase := b }) (decodeRC6 p s) := by
  unfold decodeRC6
  refine .ite (fun _ => .refuse ⟨s.biphase, rfl⟩) fun _ => .bind fun _ _ => .bind fun _ _ =>
    .ite (fun _ => .refuse ⟨s.biphase, rfl⟩) fun _ => .bind fun ⟨level, b⟩ _ =>
    .ite (fun _ => .refuse ⟨b, rfl⟩) fun _ => .bind fun ⟨level, b⟩ _ =>
    .ite (fun _ => .refuse ⟨b, rfl⟩) fun _ => .bind fun ⟨result, b⟩ _ => ?_
  cases result with
  | none => exact .refuse ⟨b, rfl⟩
  | some data =>
    refine .bind fun u hu => ?_
    obtain ⟨flags, rfl⟩ := checkForRepeatSpaceTicksAndSetFlag_spec hu
    exact .accept rfl

theorem decodeRC6_of_mark (h : p.raw 1 = some t) (ht : matchMark t rc6HeaderMark = false) :
    decodeRC6 p s = some (false, s) := by
  obtain ⟨u, hu⟩ := p.exists_raw (show 2 < rawBufferLength by decide)
  simp [decodeRC6, h, hu, ht]

theorem decodeRC6_of_space (h : p.raw 2 = some u) (hu : matchSpace u rc6HeaderSpace = false) :
    decodeRC6 p s = some (false, s) := by
  obtain ⟨t, ht⟩ := p.exists_raw (show 1 < rawBufferLength by decide)
  simp [decodeRC6, h, ht, hu]

/-- A first mark that is no multiple of the unit is no RC5 frame. -/
theorem decodeRC5_of_mark (h : p.raw 1 = some t) (hlen : 1 < p.rawlen)
    (ht : timingIntervals rc5Unit true t = none) :
    decodeRC5 p s = some (false, { s with biphase := initBiphaselevel 1 rc5Unit s.biphase }) := by
  have hlevel : getBiphaselevel p (initBiphaselevel 1 rc5Unit s.biphase) =
      some (.error, initBiphaselevel 1 rc5Unit s.biphase) := by
    simp [getBiphaselevel, initBiphaselevel, h, ht, Nat.not_le.mpr hlen]
  simp [decodeRC5, hlevel]

theorem timingIntervals_rc5Unit_eq_none (ht : 69 ≤ t) : timingIntervals rc5Unit true t = none := by
  have hone : matchTicks t 909 = true ↔ 13 ≤ t ∧ t ≤ 23 := matchTicks_iff rfl rfl
  have htwo : matchTicks t 1798 = true ↔ 26 ≤ t ∧ t ≤ 45 := matchTicks_iff rfl rfl
  have hthree : matchTicks t 2687 = true ↔ 40 ≤ t ∧ t ≤ 68 := matchTicks_iff rfl rfl
  simp only [timingIntervals, rc5Unit, markExcessMicros, if_true, Nat.reduceMul, Nat.reduceAdd,
    Nat.reduceMod, hone, htwo, hthree]
  rw [if_neg (by omega), if_neg (by omega), if_neg (by omega)]

/-- A first mark that is longer than three units is no RC5 frame. -/
theorem decodeRC5_of_long_mark (h : p.raw 1 = some t) (hlen : 1 < p.rawlen) (ht : 69 ≤ t) :
    decodeRC5 p s = some (false, { s with biphase := initBiphaselevel 1 rc5Unit s.biphase }) :=
  decodeRC5_of_mark h hlen (timingIntervals_rc5Unit_eq_none ht)

theorem decodeRC6_of_long_mark (h : p.raw 1 = some t) (ht : 69 ≤ t) :
    decodeRC6 p s = some (false, s) := by
  have hwindow : matchMark t rc6HeaderMark = true ↔ 40 ≤ t ∧ t ≤ 68 := matchMark_iff rfl rfl
  apply decodeRC6_of_mark h
  rw [Bool.eq_false_iff, Ne, hwindow]
  omega

/-- The loop ends at a bit without a transition. -/
theorem rc5Loop_of_no_transition {rounds n : ℕ} {data : BitVec 32} {b b₁ b₂ : Biphase}
    {level : BiphaseLevel} (hlt : b.decodeRawbuffOffset < p.rawlen)
    (hstart : getBiphaselevel p b = some (level, b₁))
    (hend : getBiphaselevel p b₁ = some (level, b₂)) :
    rc5Loop p (rounds + 1) n data b = some (none, b₂) := by
  cases level <;> simp [rc5Loop, hlt, hstart, hend]

/-- A first mark of three units has no transition in the bit behind the start bit. -/
theorem decodeRC5_of_three_units (h : p.raw 1 = some t) (hlen : 1 < p.rawlen)
    (ht : timingIntervals rc5Unit true t = some 3) :
    decodeRC5 p s = some (false, { s with biphase := ⟨2, 3, 0, rc5Unit⟩ }) := by
  have hin : ¬p.rawlen ≤ 1 := Nat.not_le.mpr hlen
  have hfirst : getBiphaselevel p (initBiphaselevel 1 rc5Unit s.biphase) =
      some (.mark, ⟨1, 3, 1, rc5Unit⟩) := by
    simp [getBiphaselevel, initBiphaselevel, Biphase.useInterval, hin, h, ht]
  have hsecond : getBiphaselevel p ⟨1, 3, 1, rc5Unit⟩ = some (.mark, ⟨1, 3, 2, rc5Unit⟩) := by
    simp [getBiphaselevel, Biphase.useInterval, hin]
  have hthird : getBiphaselevel p ⟨1, 3, 2, rc5Unit⟩ = some (.mark, ⟨2, 3, 0, rc5Unit⟩) := by
    simp [getBiphaselevel, Biphase.useInterval, hin]
  have hloop : rc5Loop p biphaseRounds 0 0#32 ⟨1, 3, 1, rc5Unit⟩ =
      some (none, ⟨2, 3, 0, rc5Unit⟩) :=
    rc5Loop_of_no_transition hlen hsecond hthird
  have hbits : ¬(p.rawlen < (rc5Bits + 1) / 2 + 2 ∧ rc5Bits + 2 < p.rawlen) := by
    have hrc5 : rc5Bits = 13 := rfl
    omega
  simp [decodeRC5, hbits, hfirst, hloop]

end IrRemote
