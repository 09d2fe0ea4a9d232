import IrRemote.Library.LineSignal
import IrRemote.Mid.Matching
import IrRemote.Mid.Transmit

/-!
# Ideal captures

What the receiver records of a transmission when the air adds nothing: the runs of the
line, without the silence before the first and after the last mark, each as a number of
ticks that is rounded down or up. The link between the senders and the decoders.

## Main definitions

* `lineRuns` — the runs of a transmission
* `roundings` — the tick counts a duration can be recorded as
* `IdealCapture` — a receiver record that holds one frame
* `PulseDistanceCapture` — the same, field by field, for a pulse distance frame

## Main results

* `IdealCapture.lsbFirst`, `IdealCapture.msbFirst` — the captures of pulse distance frames
* `PulseDistanceCapture.decodeBits_lsb`, `PulseDistanceCapture.decodeBits_msb` — its bits are
  decoded
* `exists_idealCapture` — every transmission that fits the buffer has one
-/

set_option autoImplicit false

namespace IrRemote

open LineSignal

/-! ## Captures of a transmission -/

/-- The pulse of an event; `true` is the level of a mark. -/
def TxEvent.pulse? : TxEvent → Option (Pulse Bool)
  | .mark aMarkMicros => some ⟨true, aMarkMicros⟩
  | .space aSpaceMicros => some ⟨false, aSpaceMicros⟩
  | _ => none

/-- The runs of one frame: the level is the same on both sides of the silence. -/
def lineRuns (tx : List TxEvent) : List (Pulse Bool) :=
  merge (trim false (tx.filterMap TxEvent.pulse?))

/-- The numbers of ticks a duration is recorded as. -/
def roundings (us : ℕ) : List ℕ :=
  [us / microsPerTick, (us + (microsPerTick - 1)) / microsPerTick]

/-- The receiver has stopped with the runs of a frame in its buffer, after a gap. -/
structure IdealCapture (p : IrParams) (tx : List TxEvent) : Prop where
  stopped : p.stateForISR = .stop
  overflowFlag : p.overflowFlag = false
  rawlen : p.rawlen = (lineRuns tx).length + 1
  gap : ∃ g, p.raw 0 = some g ∧ recordGapTicks < g
  entry : ∀ i (h : i < (lineRuns tx).length),
    ∃ t ∈ roundings (lineRuns tx)[i].duration, p.raw (i + 1) = some t

/-! ## Pulse distance frames -/

/-- The runs of the bits of a frame and of its stop mark. -/
def dataRuns (mark : ℕ) (space : Bool → ℕ) : List Bool → List (Pulse Bool)
  | [] => [⟨true, mark⟩]
  | b :: bits => ⟨true, mark⟩ :: ⟨false, space b⟩ :: dataRuns mark space bits

/-- The runs of a frame with a header. -/
def frameRuns (headerMark headerSpace mark : ℕ) (space : Bool → ℕ) (bits : List Bool) :
    List (Pulse Bool) :=
  ⟨true, headerMark⟩ :: ⟨false, headerSpace⟩ :: dataRuns mark space bits

variable {p : IrParams} {tx : List TxEvent} {headerMark headerSpace mark j : ℕ}
  {space : Bool → ℕ} {bits : List Bool}

theorem dataRuns_length : (dataRuns mark space bits).length = 2 * bits.length + 1 := by
  induction bits with
  | nil => rfl
  | cons b bits ih =>
    simp only [dataRuns, List.length_cons, ih]
    omega

theorem alternates_space_dataRuns (d : ℕ) :
    Alternates (⟨false, d⟩ :: dataRuns mark space bits) := by
  induction bits generalizing d with
  | nil => exact List.isChain_cons_cons.mpr ⟨by simp, List.isChain_singleton _⟩
  | cons b bits ih =>
    exact List.isChain_cons_cons.mpr ⟨by simp, List.isChain_cons_cons.mpr ⟨by simp, ih _⟩⟩

theorem alternates_frameRuns :
    Alternates (frameRuns headerMark headerSpace mark space bits) :=
  List.isChain_cons_cons.mpr ⟨by simp, alternates_space_dataRuns headerSpace⟩

theorem dataRuns_mark (hj : j ≤ bits.length) :
    (dataRuns mark space bits)[2 * j]? = some ⟨true, mark⟩ := by
  induction bits generalizing j with
  | nil =>
    obtain rfl : j = 0 := by simpa using hj
    rfl
  | cons b bits ih =>
    cases j with
    | zero => rfl
    | succ j => exact ih (by simpa using hj)

theorem dataRuns_space (hj : j < bits.length) :
    (dataRuns mark space bits)[2 * j + 1]? = some ⟨false, space bits[j]⟩ := by
  induction bits generalizing j with
  | nil => simp at hj
  | cons b bits ih =>
    cases j with
    | zero => rfl
    | succ j => exact ih (by simpa using hj)

/-- The runs end with the stop mark. -/
theorem exists_dataRuns_eq_append (mark : ℕ) (space : Bool → ℕ) (bits : List Bool) :
    ∃ l, dataRuns mark space bits = l ++ [⟨true, mark⟩] := by
  induction bits with
  | nil => exact ⟨[], rfl⟩
  | cons b bits ih =>
    obtain ⟨l, hl⟩ := ih
    exact ⟨⟨true, mark⟩ :: ⟨false, space b⟩ :: l, by rw [dataRuns, hl]; rfl⟩

/-- The bits can be read off the runs. -/
theorem dataRuns_inj (hspace : Function.Injective space) {bits' : List Bool} :
    dataRuns mark space bits = dataRuns mark space bits' ↔ bits = bits' := by
  refine ⟨fun h => ?_, congrArg _⟩
  induction bits generalizing bits' with
  | nil =>
    cases bits' with
    | nil => rfl
    | cons b bits' => simp [dataRuns] at h
  | cons b bits ih =>
    cases bits' with
    | nil => simp [dataRuns] at h
    | cons b' bits' =>
      simp only [dataRuns, List.cons.injEq, Pulse.mk.injEq, true_and] at h
      rw [hspace h.1, ih h.2]

theorem frameRuns_inj (hspace : Function.Injective space) {bits' : List Bool} :
    frameRuns headerMark headerSpace mark space bits =
      frameRuns headerMark headerSpace mark space bits' ↔ bits = bits' := by
  simp only [frameRuns, List.cons.injEq, true_and, dataRuns_inj hspace]

theorem lineRuns_of_pulses
    (h : tx.filterMap TxEvent.pulse? = frameRuns headerMark headerSpace mark space bits) :
    lineRuns tx = frameRuns headerMark headerSpace mark space bits := by
  have htrim : trim false (frameRuns headerMark headerSpace mark space bits) =
      frameRuns headerMark headerSpace mark space bits := by
    obtain ⟨l, hl⟩ := exists_dataRuns_eq_append mark space bits
    rw [frameRuns, hl, ← List.cons_append, ← List.cons_append]
    exact trim_of_ne (by simp) (by simp)
  rw [lineRuns, h, htrim, merge_of_alternates alternates_frameRuns]

/-- A pulse distance frame in the buffer. -/
structure PulseDistanceCapture (p : IrParams) (headerMark headerSpace mark : ℕ)
    (space : Bool → ℕ) (bits : List Bool) : Prop where
  stopped : p.stateForISR = .stop
  overflowFlag : p.overflowFlag = false
  rawlen : p.rawlen = 2 * bits.length + 4
  gap : ∃ g, p.raw 0 = some g ∧ recordGapTicks < g
  headerMark : ∃ t ∈ roundings headerMark, p.raw 1 = some t
  headerSpace : ∃ t ∈ roundings headerSpace, p.raw 2 = some t
  mark : ∀ j ≤ bits.length, ∃ t ∈ roundings mark, p.raw (3 + 2 * j) = some t
  space : ∀ j (h : j < bits.length), ∃ t ∈ roundings (space bits[j]), p.raw (3 + 2 * j + 1) = some t

theorem IdealCapture.entry_of_getElem? (h : IdealCapture p tx) {i : ℕ} {a : Pulse Bool}
    (hi : (lineRuns tx)[i]? = some a) : ∃ t ∈ roundings a.duration, p.raw (i + 1) = some t := by
  obtain ⟨hlt, rfl⟩ := List.getElem?_eq_some_iff.mp hi
  exact h.entry i hlt

theorem IdealCapture.pulseDistanceCapture (h : IdealCapture p tx)
    (hpulses : tx.filterMap TxEvent.pulse? = frameRuns headerMark headerSpace mark space bits) :
    PulseDistanceCapture p headerMark headerSpace mark space bits where
  stopped := h.stopped
  overflowFlag := h.overflowFlag
  rawlen := by
    rw [h.rawlen, lineRuns_of_pulses hpulses, frameRuns, List.length_cons, List.length_cons,
      dataRuns_length]
  gap := h.gap
  headerMark := by
    have hget : (lineRuns tx)[0]? = some ⟨true, headerMark⟩ := by
      rw [lineRuns_of_pulses hpulses]
      rfl
    exact h.entry_of_getElem? hget
  headerSpace := by
    have hget : (lineRuns tx)[1]? = some ⟨false, headerSpace⟩ := by
      rw [lineRuns_of_pulses hpulses]
      rfl
    exact h.entry_of_getElem? hget
  mark j hj := by
    have hget : (lineRuns tx)[2 * j + 2]? = some ⟨true, mark⟩ := by
      rw [lineRuns_of_pulses hpulses]
      exact dataRuns_mark hj
    rw [Nat.add_comm]
    exact h.entry_of_getElem? hget
  space j hj := by
    have hget : (lineRuns tx)[2 * j + 1 + 2]? = some ⟨false, space bits[j]⟩ := by
      rw [lineRuns_of_pulses hpulses]
      exact dataRuns_space hj
    rw [show 3 + 2 * j + 1 = 2 * j + 1 + 2 + 1 by omega]
    exact h.entry_of_getElem? hget

/-! ## Senders of pulse distance frames -/

/-- The space that carries a bit. -/
def DistanceWidthTimingInfo.bitSpace (timingInfo : DistanceWidthTimingInfo) (b : Bool) : ℕ :=
  if b then timingInfo.oneSpaceMicros else timingInfo.zeroSpaceMicros

/-- The two spaces are different ones. -/
theorem bitSpace_injective {timingInfo : DistanceWidthTimingInfo}
    (hne : timingInfo.oneSpaceMicros ≠ timingInfo.zeroSpaceMicros) :
    Function.Injective timingInfo.bitSpace := by
  intro b b' h
  cases b <;> cases b'
  · rfl
  · exact absurd h.symm hne
  · exact absurd h hne
  · rfl

/-- Protocols whose bits differ in the space only, and whose frames end with a stop mark. -/
structure IsPulseDistance (c : PulseDistanceWidthProtocolConstants) : Prop where
  mark : c.distanceWidthTimingInfo.oneMarkMicros = c.distanceWidthTimingInfo.zeroMarkMicros
  stop : c.flags &&& suppressStopBitForThisData = 0

theorem filterMap_pulse?_data (mark oneSpace zeroSpace : ℕ) (bits : List Bool) :
    (bits.flatMap (sendBit mark oneSpace mark zeroSpace) ++ [TxEvent.mark mark]).filterMap
      TxEvent.pulse? = dataRuns mark (fun b => if b then oneSpace else zeroSpace) bits := by
  induction bits with
  | nil => rfl
  | cons b bits ih =>
    rw [List.flatMap_cons, List.append_assoc, List.filterMap_append, ih]
    cases b <;> rfl

variable {c : PulseDistanceWidthProtocolConstants} {n : ℕ} {data : BitVec 32}

theorem filterMap_pulse?_sendFrame (hc : IsPulseDistance c)
    (hdata : sendPulseDistanceWidthDataV3 c data n =
      bits.flatMap (sendBit c.distanceWidthTimingInfo.oneMarkMicros
        c.distanceWidthTimingInfo.oneSpaceMicros c.distanceWidthTimingInfo.zeroMarkMicros
        c.distanceWidthTimingInfo.zeroSpaceMicros) ++
      stopMark c.distanceWidthTimingInfo.oneMarkMicros c.distanceWidthTimingInfo.zeroMarkMicros
        c.flags) :
    (sendFrame c data n).filterMap TxEvent.pulse? =
      frameRuns c.distanceWidthTimingInfo.headerMarkMicros
        c.distanceWidthTimingInfo.headerSpaceMicros c.distanceWidthTimingInfo.zeroMarkMicros
        c.distanceWidthTimingInfo.bitSpace bits := by
  have hstop : stopMark c.distanceWidthTimingInfo.oneMarkMicros
      c.distanceWidthTimingInfo.zeroMarkMicros c.flags =
      [.mark c.distanceWidthTimingInfo.zeroMarkMicros] := if_pos ⟨hc.stop, hc.mark⟩
  have hpulses := filterMap_pulse?_data c.distanceWidthTimingInfo.zeroMarkMicros
    c.distanceWidthTimingInfo.oneSpaceMicros c.distanceWidthTimingInfo.zeroSpaceMicros bits
  rw [sendFrame, hdata, hstop, hc.mark]
  simp only [List.filterMap_cons, TxEvent.pulse?, hpulses]
  rfl

theorem filterMap_pulse?_lsbFirst (hc : IsPulseDistance c)
    (hflags : c.flags &&& protocolIsMsbFirst = 0) :
    (sendPulseDistanceWidthV1 c data n 0).filterMap TxEvent.pulse? =
      frameRuns c.distanceWidthTimingInfo.headerMarkMicros
        c.distanceWidthTimingInfo.headerSpaceMicros c.distanceWidthTimingInfo.zeroMarkMicros
        c.distanceWidthTimingInfo.bitSpace (BitWord.lsbBits n data) := by
  rw [sendPulseDistanceWidthV1_zero, List.filterMap_cons_none rfl]
  exact filterMap_pulse?_sendFrame hc (sendPulseDistanceWidthDataV1_lsb hflags)

theorem filterMap_pulse?_msbFirst (hc : IsPulseDistance c)
    (hflags : c.flags &&& protocolIsMsbFirst ≠ 0) (hn : n < 32) :
    (sendPulseDistanceWidthV1 c data (n + 1) 0).filterMap TxEvent.pulse? =
      frameRuns c.distanceWidthTimingInfo.headerMarkMicros
        c.distanceWidthTimingInfo.headerSpaceMicros c.distanceWidthTimingInfo.zeroMarkMicros
        c.distanceWidthTimingInfo.bitSpace (BitWord.msbBits (n + 1) data) := by
  rw [sendPulseDistanceWidthV1_zero, List.filterMap_cons_none rfl]
  exact filterMap_pulse?_sendFrame hc (sendPulseDistanceWidthDataV1_msb hflags hn)

/-- The capture of a frame that is sent least significant bit first. -/
theorem IdealCapture.lsbFirst (hc : IsPulseDistance c)
    (hflags : c.flags &&& protocolIsMsbFirst = 0)
    (h : IdealCapture p (sendPulseDistanceWidthV1 c data n 0)) :
    PulseDistanceCapture p c.distanceWidthTimingInfo.headerMarkMicros
      c.distanceWidthTimingInfo.headerSpaceMicros c.distanceWidthTimingInfo.zeroMarkMicros
      c.distanceWidthTimingInfo.bitSpace (BitWord.lsbBits n data) :=
  h.pulseDistanceCapture (filterMap_pulse?_lsbFirst hc hflags)

/-- The capture of a frame that is sent most significant bit first. -/
theorem IdealCapture.msbFirst (hc : IsPulseDistance c)
    (hflags : c.flags &&& protocolIsMsbFirst ≠ 0) (hn : n < 32)
    (h : IdealCapture p (sendPulseDistanceWidthV1 c data (n + 1) 0)) :
    PulseDistanceCapture p c.distanceWidthTimingInfo.headerMarkMicros
      c.distanceWidthTimingInfo.headerSpaceMicros c.distanceWidthTimingInfo.zeroMarkMicros
      c.distanceWidthTimingInfo.bitSpace (BitWord.msbBits (n + 1) data) :=
  h.pulseDistanceCapture (filterMap_pulse?_msbFirst hc hflags hn)

theorem length_lineRuns_lsbFirst (hc : IsPulseDistance c)
    (hflags : c.flags &&& protocolIsMsbFirst = 0) :
    (lineRuns (sendPulseDistanceWidthV1 c data n 0)).length = 2 * n + 3 := by
  rw [lineRuns_of_pulses (filterMap_pulse?_lsbFirst hc hflags), frameRuns, List.length_cons,
    List.length_cons, dataRuns_length, BitWord.lsbBits_length]

theorem length_lineRuns_msbFirst (hc : IsPulseDistance c)
    (hflags : c.flags &&& protocolIsMsbFirst ≠ 0) (hn : n < 32) :
    (lineRuns (sendPulseDistanceWidthV1 c data (n + 1) 0)).length = 2 * (n + 1) + 3 := by
  rw [lineRuns_of_pulses (filterMap_pulse?_msbFirst hc hflags hn), frameRuns, List.length_cons,
    List.length_cons, dataRuns_length, BitWord.msbBits_length]

/-! ## The bits of a frame -/

/-- The space of every bit is told from the others at either rounding. -/
def SpacesTold (space : Bool → ℕ) (oneSpace : ℕ) : Prop :=
  ∀ b, ∀ t ∈ roundings (space b), matchSpace t oneSpace = b

instance (space : Bool → ℕ) (oneSpace : ℕ) : Decidable (SpacesTold space oneSpace) :=
  inferInstanceAs (Decidable (∀ b, ∀ t ∈ roundings (space b), matchSpace t oneSpace = b))

theorem PulseDistanceCapture.bitValue
    (h : PulseDistanceCapture p headerMark headerSpace mark space bits) {oneSpace m : ℕ}
    (htold : SpacesTold space oneSpace) (hj : j < bits.length) :
    bitValue p m m oneSpace (3 + 2 * j) = some bits[j] := by
  obtain ⟨t, ht, hraw⟩ := h.space j hj
  rw [IrRemote.bitValue, if_pos rfl, hraw, Option.map_some, htold _ t ht]

theorem PulseDistanceCapture.decodeBits_lsb
    (h : PulseDistanceCapture p headerMark headerSpace mark space bits) {oneSpace : ℕ}
    (htold : SpacesTold space oneSpace) (m : ℕ) :
    decodeBits (IrRemote.bitValue p m m oneSpace) false bits.length 3 0#32 1#32 =
      some (BitWord.collectLsb bits 1#32 0#32) :=
  IrRemote.decodeBits_lsb fun _ => h.bitValue htold

theorem PulseDistanceCapture.decodeBits_msb
    (h : PulseDistanceCapture p headerMark headerSpace mark space bits) {oneSpace : ℕ}
    (htold : SpacesTold space oneSpace) (m : ℕ) :
    decodeBits (IrRemote.bitValue p m m oneSpace) true bits.length 3 0#32 1#32 =
      some (BitWord.collectMsb bits 0#32) :=
  IrRemote.decodeBits_msb fun _ => h.bitValue htold

theorem PulseDistanceCapture.checkHeader
    (h : PulseDistanceCapture p headerMark headerSpace mark space bits)
    {timingInfo : DistanceWidthTimingInfo} {b : Bool}
    (hheader : ∀ t ∈ roundings headerMark, ∀ u ∈ roundings headerSpace,
      (matchMark t timingInfo.headerMarkMicros && matchSpace u timingInfo.headerSpaceMicros) = b) :
    checkHeader timingInfo p = some b := by
  obtain ⟨t, ht, hmark⟩ := h.headerMark
  obtain ⟨u, hu, hspace⟩ := h.headerSpace
  rw [checkHeader_eq hmark hspace, hheader t ht u hu]

/-! ## Every transmission has a capture -/

/-- The record of a stopped receiver with a gap and some entries in its buffer. -/
def recordOf (gap : ℕ) (entries : List ℕ) : IrParams where
  stateForISR := .stop
  tickCounterForISR := 0
  overflowFlag := false
  rawlen := entries.length + 1
  rawbuf := Vector.ofFn fun i => (gap :: entries).getD i 0

theorem raw_recordOf (gap : ℕ) (entries : List ℕ) {i : ℕ} (hi : i < rawBufferLength) :
    (recordOf gap entries).raw i = some ((gap :: entries).getD i 0) := by
  simp [IrParams.raw, recordOf, hi]

/-- Rounding every duration down gives a capture, after any gap. -/
theorem exists_idealCapture {g : ℕ} (hgap : recordGapTicks < g)
    (hlen : (lineRuns tx).length < rawBufferLength) :
    ∃ p, IdealCapture p tx ∧ p.raw 0 = some g ∧
      ∀ i (h : i < (lineRuns tx).length),
        p.raw (i + 1) = some ((lineRuns tx)[i].duration / microsPerTick) := by
  let entries := (lineRuns tx).map fun a => a.duration / microsPerTick
  have hzero : (recordOf g entries).raw 0 = some g := raw_recordOf g entries (by decide)
  have hentry : ∀ i (h : i < (lineRuns tx).length), (recordOf g entries).raw (i + 1) =
      some ((lineRuns tx)[i].duration / microsPerTick) := by
    intro i hi
    rw [raw_recordOf g entries (by omega)]
    simp [entries, hi]
  have hrawlen : (recordOf g entries).rawlen = (lineRuns tx).length + 1 := by
    rw [recordOf, List.length_map]
  exact ⟨recordOf g entries, ⟨rfl, rfl, hrawlen, ⟨g, hzero, hgap⟩,
    fun i hi => ⟨_, List.mem_cons_self .., hentry i hi⟩⟩, hzero, hentry⟩

end IrRemote
