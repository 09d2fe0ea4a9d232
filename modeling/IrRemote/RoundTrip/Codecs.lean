import IrRemote.Link.ArraySenders
import IrRemote.Link.BitEntries
import IrRemote.RoundTrip.Rc5

/-!
# The codecs of the protocols

The round trip of a protocol rests on one of two codecs, for any timing that the receiver can
tell apart. A pulse distance or pulse width word stands in the buffer from some index on, and its
bits are decoded in the order they were sent in. A biphase word is read back unit by unit.

## Main definitions

* `CapturedAt` — the entries of a transmission in the buffer
* `DistanceWidthTimingInfo.BitsTold` — a one is told from a zero
* `nextLevels` — successive calls of `getBiphaselevel`

## Main results

* `pulse_codec` — what is decoded of a word with up to 32 bits
* `biphase_codec` — what is read of a word with up to 31 bits
-/

set_option autoImplicit false

namespace IrRemote

open LineSignal

/-! ## Pulse distance and pulse width -/

/-- The runs of a transmission stand in the buffer, from an index on. -/
def CapturedAt (p : IrParams) (start : ℕ) (tx : List TxEvent) : Prop :=
  ∀ i (h : i < (lineRuns tx).length),
    ∃ t ∈ roundings (lineRuns tx)[i].duration, p.raw (start + i) = some t

/-- The space tells a one from a zero when the marks are equal, else the mark does. -/
def DistanceWidthTimingInfo.BitsTold (t : DistanceWidthTimingInfo) : Prop :=
  if t.oneMarkMicros = t.zeroMarkMicros then SpacesTold t.bitSpace t.oneSpaceMicros
  else MarksTold t.bitMark t.oneMarkMicros

instance (t : DistanceWidthTimingInfo) : Decidable t.BitsTold :=
  inferInstanceAs (Decidable (if t.oneMarkMicros = t.zeroMarkMicros then _ else _))

/-- The flags of a bit order. -/
def orderFlags (aMSBFirst : Bool) : BitVec 8 :=
  if aMSBFirst then protocolIsMsbFirst else protocolIsLsbFirst

variable {p : IrParams} {tx : List TxEvent} {t : DistanceWidthTimingInfo} {start mark n : ℕ}
  {space : Bool → ℕ} {bits : List Bool} {msbFirst : Bool} {x : BitVec 32}

/-- A frame on its own starts behind the gap. -/
theorem IdealCapture.capturedAt (h : IdealCapture p tx) : CapturedAt p 1 tx := by
  intro i hi
  rw [Nat.add_comm]
  exact h.entry i hi

theorem CapturedAt.entry_of_getElem? (h : CapturedAt p start tx) {i : ℕ} {a : Pulse Bool}
    (hi : (lineRuns tx)[i]? = some a) :
    ∃ t ∈ roundings a.duration, p.raw (start + i) = some t := by
  obtain ⟨hlt, rfl⟩ := List.getElem?_eq_some_iff.mp hi
  exact h i hlt

/-- The spaces of the bits, which end with a stop mark. -/
theorem CapturedAt.spaces (h : CapturedAt p start tx)
    (hpulses : tx.filterMap TxEvent.pulse? = dataRuns mark space bits) :
    BitsAt p (start + 1) space bits := by
  intro j hj
  have hget : (lineRuns tx)[2 * j + 1]? = some ⟨false, space bits[j]⟩ := by
    rw [lineRuns_dataRuns hpulses]
    exact dataRuns_space hj
  have hindex : start + 1 + 2 * j = start + (2 * j + 1) := by omega
  rw [hindex]
  exact h.entry_of_getElem? hget

/-- The marks of the bits, which end with the space of the last one. -/
theorem CapturedAt.marks (h : CapturedAt p start tx)
    (hpulses : tx.filterMap TxEvent.pulse? = pairRuns (bits.map t.bitPair)) :
    BitsAt p start t.bitMark bits := by
  intro j hj
  have hmap : j < (bits.map t.bitPair).length := by rwa [List.length_map]
  have hget : (lineRuns tx)[2 * j]? = some ⟨true, t.bitMark bits[j]⟩ := by
    rw [lineRuns_pairRuns hpulses, List.getElem?_dropLast, if_pos (by rw [pairRuns_length]; omega),
      pairRuns_mark hmap, List.getElem_map]
    rfl
  exact h.entry_of_getElem? hget

theorem orderFlags_and_msbFirst (msbFirst : Bool) :
    decide (orderFlags msbFirst &&& protocolIsMsbFirst ≠ 0) = msbFirst := by
  cases msbFirst <;> decide

theorem orderFlags_and_suppress (msbFirst : Bool) :
    orderFlags msbFirst &&& suppressStopBitForThisData = 0 := by
  cases msbFirst <;> decide

/-- Every bit of the word is decoded at its place. -/
theorem CapturedAt.bitValue (hn : 0 < n) (hn' : n ≤ 32) (htold : t.BitsTold)
    (h : CapturedAt p start (sendPulseDistanceWidthDataV1 t.oneMarkMicros t.oneSpaceMicros
      t.zeroMarkMicros t.zeroSpaceMicros x n (orderFlags msbFirst)))
    {j : ℕ} (hj : j < (wordBits msbFirst n x).length) :
    bitValue p t.oneMarkMicros t.zeroMarkMicros t.oneSpaceMicros (start + 2 * j) =
      some (wordBits msbFirst n x)[j] := by
  rw [sendPulseDistanceWidthDataV1_eq hn hn', orderFlags_and_msbFirst] at h
  unfold DistanceWidthTimingInfo.BitsTold at htold
  split_ifs at htold with hmark
  · -- the space of the last bit is recorded, because of the stop mark
    rw [stopMark, if_pos ⟨orderFlags_and_suppress msbFirst, hmark⟩, hmark] at h
    rw [hmark]
    exact (h.spaces (filterMap_pulse?_data ..)).bitValue_space htold hj
  · rw [stopMark, if_neg fun hstop => hmark hstop.2, List.append_nil] at h
    exact (h.marks (filterMap_pulse?_pairs ..)).bitValue_mark htold hmark hj

/-- A word of up to 32 bits is decoded to its remainder, in either order of the bits and wherever
it stands in the buffer. -/
theorem pulse_codec (hn : 0 < n) (hn' : n ≤ 32) (htold : t.BitsTold)
    (h : CapturedAt p start (sendPulseDistanceWidthDataV1 t.oneMarkMicros t.oneSpaceMicros
      t.zeroMarkMicros t.zeroSpaceMicros x n (orderFlags msbFirst)))
    (s : DecodeState) :
    decodePulseDistanceWidthData n start t.oneMarkMicros t.zeroMarkMicros t.oneSpaceMicros
        msbFirst p s =
      some (true, { s with
        decodedIRData.decodedRawData := BitVec.ofNat 32 (x.toNat % 2 ^ n) }) := by
  apply decodePulseDistanceWidthData_eq
  have hbits : ∀ j (hj : j < (wordBits msbFirst n x).length),
      IrRemote.bitValue p t.oneMarkMicros t.zeroMarkMicros t.oneSpaceMicros (start + 2 * j) =
        some (wordBits msbFirst n x)[j] := fun _ => h.bitValue hn hn' htold
  rw [← length_wordBits msbFirst n x]
  cases msbFirst with
  | false =>
    rw [decodeBits_lsb hbits, wordBits, if_neg Bool.false_ne_true,
      BitWord.collectLsb_lsbBits_mod hn', BitWord.lsbBits_length]
  | true =>
    rw [decodeBits_msb hbits, wordBits, if_pos rfl, BitWord.collectMsb_msbBits_mod hn',
      BitWord.msbBits_length]

/-- The low byte of a longer word, sent with the bits of NEC and found behind the gap. -/
theorem pulse_codec_necByte : ∃ p,
    CapturedAt p 1 (sendPulseDistanceWidthDataV1 560 1690 560 560 0x35A 8 (orderFlags true)) ∧
      decodePulseDistanceWidthData 8 1 560 560 1690 true p .zero =
        some (true, { DecodeState.zero with decodedIRData.decodedRawData := 0x5A }) := by
  let t : DistanceWidthTimingInfo := ⟨9000, 4500, 560, 1690, 560, 560⟩
  have htold : t.BitsTold := by decide
  obtain ⟨p, hp, -⟩ : ∃ p, IdealCapture p (sendPulseDistanceWidthDataV1 560 1690 560 560 0x35A 8
      (orderFlags true)) ∧ _ :=
    exists_idealCapture (show recordGapTicks < 2000 by decide) (by decide)
  exact ⟨p, hp.capturedAt, pulse_codec (by decide) (by decide) htold hp.capturedAt .zero⟩

/-! ## Biphase -/

/-- The levels that so many successive calls of `getBiphaselevel` return. -/
def nextLevels (irparams : IrParams) : ℕ → Biphase → Option (List BiphaseLevel)
  | 0, _ => some []
  | calls + 1, b => do
    let (level, b') ← getBiphaselevel irparams b
    return level :: (← nextLevels irparams calls b')

/-- The levels of a bit: a one is a space and a mark. -/
def bitLevels (bit : Bool) : List BiphaseLevel :=
  if bit then [.space, .mark] else [.mark, .space]

variable {b : Biphase} {levels : List Bool} {unit : ℕ}

theorem Reads.nextLevels (h : Reads p b levels) :
    IrRemote.nextLevels p levels.length b = some (levels.map .ofBool) := by
  induction levels generalizing b with
  | nil => rfl
  | cons l levels ih =>
    obtain ⟨b', hlevel, hrest⟩ := h.next
    rw [List.length_cons, IrRemote.nextLevels, hlevel]
    simp only [Option.bind_eq_bind, Option.bind_some, ih hrest]
    rfl

theorem map_rc5Levels (bits : List Bool) :
    (rc5Levels bits).map BiphaseLevel.ofBool = bits.flatMap bitLevels := by
  rw [rc5Levels, List.map_flatMap]
  congr 1
  funext bit
  cases bit <;> rfl

theorem length_rc5Levels (bits : List Bool) : (rc5Levels bits).length = 2 * bits.length := by
  induction bits with
  | nil => rfl
  | cons bit bits ih =>
    rw [rc5Levels_cons, List.length_cons, List.length_cons, List.length_cons, ih]
    omega

/-- No duration is both one and two units of nothing. -/
theorem IntervalsTold.unit_pos (h : IntervalsTold unit 2) : 0 < unit := by
  rcases Nat.eq_zero_or_pos unit with rfl | hpos
  · have hone := h 0 (by decide) true 0 (by decide)
    have htwo := h 1 (by decide) true 0 (by decide)
    rw [hone] at htwo
    exact absurd htwo (by decide)
  · exact hpos

/-- A word of up to 31 bits is read behind the mark of the start bit, half by half. The runs are
too few to fill the buffer or to wrap the offset. -/
theorem biphase_codec (hn : 0 < n) (hn' : n ≤ 31) (htold : IntervalsTold unit 2)
    (h : IdealCapture p (sendBiphaseData unit x n)) (b : Biphase) :
    nextLevels p (2 * n + 1) (initBiphaselevel 1 unit b) =
      some (.mark :: (BitWord.msbBits n x).flatMap bitLevels) := by
  obtain ⟨signal, hpulses, hunits, hsignal, hlength⟩ :=
    exists_signal_sendBiphaseData x htold.unit_pos (Nat.lt_succ_of_le hn')
  have hruns : lineRuns (sendBiphaseData unit x n) = merge (trim false signal) := by
    rw [lineRuns, hpulses]
    exact congrArg merge (trim_cons_of_eq rfl)
  have hfew : (merge (trim false signal)).length < 2 * (n + 1) :=
    ((length_merge_le _).trans (length_trim_le _)).trans_lt hlength
  have hreads : Reads p (initBiphaselevel 1 unit b) (true :: rc5Levels (BitWord.msbBits n x)) := by
    rw [← hunits]
    exact hsignal.reads_of_capture h hruns htold (by decide) htold.unit_pos (by omega)
  have hcount : (true :: rc5Levels (BitWord.msbBits n x)).length = 2 * n + 1 := by
    rw [List.length_cons, length_rc5Levels, BitWord.msbBits_length]
  rw [← hcount, hreads.nextLevels, List.map_cons, map_rc5Levels]
  rfl

/-- Four bits with the unit of RC5. The mark of the second one goes on in the zero behind it, and
the last half is silence. -/
theorem biphase_codec_four : ∃ p,
    IdealCapture p (sendBiphaseData rc5Unit 0xC 4) ∧
      nextLevels p 9 (initBiphaselevel 1 rc5Unit ⟨0, 0, 0, 0⟩) =
        some [.mark, .space, .mark, .space, .mark, .mark, .space, .mark, .space] := by
  obtain ⟨p, hp, -⟩ : ∃ p, IdealCapture p (sendBiphaseData rc5Unit 0xC 4) ∧ _ :=
    exists_idealCapture (show recordGapTicks < 2000 by decide) (by decide)
  exact ⟨p, hp, biphase_codec (by decide) (by decide) (by decide) hp _⟩

end IrRemote
