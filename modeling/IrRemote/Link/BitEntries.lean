import IrRemote.Link.IdealCapture

/-!
# Bits in the buffer

The decoders read the bits of a frame in pieces, from any index of the buffer, and the
senders send them in pieces too. Which entries carry the bits is stated here for a piece.
Pulse width frames have no stop mark, and the space of their last bit is part of the gap.

## Main definitions

* `BitsAt` — every other entry is the duration of a bit
* `MarksTold` — the marks of the bits are told from each other
* `HeaderlessCapture`, `PairsCapture` — captures of frames without a header, and of frames
  without a stop mark

## Main results

* `BitsAt.append` — a piece and the rest
* `BitsAt.decodeSpaces`, `BitsAt.decodeMarks` — the bits of a piece are decoded
* `IdealCapture.headerless`, `IdealCapture.twoWords`, `IdealCapture.pairsCapture` — what an
  ideal capture is of
-/

set_option autoImplicit false

namespace IrRemote

open LineSignal

/-! ## Pieces of a frame -/

/-- Every other entry from an index on is the duration of a bit. -/
def BitsAt (p : IrParams) (start : ℕ) (duration : Bool → ℕ) (bits : List Bool) : Prop :=
  ∀ j (h : j < bits.length), ∃ t ∈ roundings (duration bits[j]), p.raw (start + 2 * j) = some t

/-- The mark of every bit is told from the others at either rounding. -/
def MarksTold (mark : Bool → ℕ) (oneMark : ℕ) : Prop :=
  ∀ b, ∀ t ∈ roundings (mark b), matchMark t oneMark = b

instance (mark : Bool → ℕ) (oneMark : ℕ) : Decidable (MarksTold mark oneMark) :=
  inferInstanceAs (Decidable (∀ b, ∀ t ∈ roundings (mark b), matchMark t oneMark = b))

variable {p : IrParams} {tx : List TxEvent} {start headerMark headerSpace mark j n : ℕ}
  {duration space markOf : Bool → ℕ} {bits bits' : List Bool} {s : DecodeState}

theorem BitsAt.append : BitsAt p start duration (bits ++ bits') ↔
    BitsAt p start duration bits ∧ BitsAt p (start + 2 * bits.length) duration bits' := by
  constructor
  · intro h
    constructor
    · intro j hj
      have hentry := h j (by simp; omega)
      rwa [List.getElem_append_left hj] at hentry
    · intro j hj
      have hentry := h (bits.length + j) (by simp; omega)
      rw [List.getElem_append_right (Nat.le_add_right _ _)] at hentry
      simpa [Nat.mul_add, Nat.add_assoc] using hentry
  · rintro ⟨hleft, hright⟩ j hj
    by_cases hlt : j < bits.length
    · rw [List.getElem_append_left hlt]
      exact hleft j hlt
    · obtain ⟨k, rfl⟩ := Nat.exists_eq_add_of_le (Nat.le_of_not_lt hlt)
      rw [List.length_append] at hj
      have hentry := hright k (by omega)
      rw [List.getElem_append_right (Nat.le_add_right _ _)]
      simpa [Nat.mul_add, Nat.add_assoc] using hentry

/-- The value of a bit of a pulse distance frame. -/
theorem BitsAt.bitValue_space (h : BitsAt p (start + 1) space bits) {oneSpace m : ℕ}
    (htold : SpacesTold space oneSpace) (hj : j < bits.length) :
    bitValue p m m oneSpace (start + 2 * j) = some bits[j] := by
  obtain ⟨t, ht, hraw⟩ := h j hj
  have hindex : start + 2 * j + 1 = start + 1 + 2 * j := by omega
  rw [bitValue, if_pos rfl, hindex, hraw, Option.map_some, htold _ t ht]

/-- The value of a bit of a pulse width frame. -/
theorem BitsAt.bitValue_mark (h : BitsAt p start markOf bits) {oneMark zeroMark oneSpace : ℕ}
    (htold : MarksTold markOf oneMark) (hne : oneMark ≠ zeroMark) (hj : j < bits.length) :
    bitValue p oneMark zeroMark oneSpace (start + 2 * j) = some bits[j] := by
  obtain ⟨t, ht, hraw⟩ := h j hj
  rw [bitValue, if_neg hne, hraw, Option.map_some, htold _ t ht]

/-- The word a decoder collects from some bits, in the order its flags give. -/
def collected (flags : BitVec 8) (bits : List Bool) : BitVec 32 :=
  if flags = 0 then BitWord.collectLsb bits 1#32 0#32 else BitWord.collectMsb bits 0#32

theorem decodePulseDistanceWidthDatav2_of_bitValue {timingInfo : DistanceWidthTimingInfo}
    (flags : BitVec 8) (s : DecodeState)
    (h : ∀ j (hj : j < bits.length), bitValue p timingInfo.oneMarkMicros timingInfo.zeroMarkMicros
      timingInfo.oneSpaceMicros (start + 2 * j) = some bits[j]) :
    decodePulseDistanceWidthDatav2 timingInfo flags bits.length start p s =
      some (true, { s with decodedIRData.decodedRawData := collected flags bits }) := by
  apply decodePulseDistanceWidthData_eq
  unfold collected
  split_ifs with hflags
  · rw [hflags]
    exact decodeBits_lsb h
  · rw [decide_eq_true hflags]
    exact decodeBits_msb h

/-- The bits of a piece of a pulse distance frame are decoded. -/
theorem BitsAt.decodeSpaces (h : BitsAt p (start + 1) space bits)
    {timingInfo : DistanceWidthTimingInfo}
    (htold : SpacesTold space timingInfo.oneSpaceMicros)
    (hmark : timingInfo.oneMarkMicros = timingInfo.zeroMarkMicros) (flags : BitVec 8)
    (s : DecodeState) :
    decodePulseDistanceWidthDatav2 timingInfo flags bits.length start p s =
      some (true, { s with decodedIRData.decodedRawData := collected flags bits }) := by
  apply decodePulseDistanceWidthDatav2_of_bitValue
  intro j hj
  rw [hmark]
  exact h.bitValue_space htold hj

/-- The bits of a piece of a pulse width frame are decoded. -/
theorem BitsAt.decodeMarks (h : BitsAt p start markOf bits) {timingInfo : DistanceWidthTimingInfo}
    (htold : MarksTold markOf timingInfo.oneMarkMicros)
    (hne : timingInfo.oneMarkMicros ≠ timingInfo.zeroMarkMicros) (flags : BitVec 8)
    (s : DecodeState) :
    decodePulseDistanceWidthDatav2 timingInfo flags bits.length start p s =
      some (true, { s with decodedIRData.decodedRawData := collected flags bits }) :=
  decodePulseDistanceWidthDatav2_of_bitValue flags s fun _ => h.bitValue_mark htold hne

/-! ## Pulse distance frames -/

/-- The spaces of a pulse distance frame. -/
theorem PulseDistanceCapture.bitsAt
    (h : PulseDistanceCapture p headerMark headerSpace mark space bits) :
    BitsAt p 4 space bits := by
  intro j hj
  have hindex : 4 + 2 * j = 3 + 2 * j + 1 := by omega
  rw [hindex]
  exact h.space j hj

/-- A frame without a header: the bits follow the gap. -/
structure HeaderlessCapture (p : IrParams) (mark : ℕ) (space : Bool → ℕ) (bits : List Bool) :
    Prop where
  stopped : p.stateForISR = .stop
  overflowFlag : p.overflowFlag = false
  rawlen : p.rawlen = 2 * bits.length + 2
  mark : ∀ j ≤ bits.length, ∃ t ∈ roundings mark, p.raw (2 * j + 1) = some t
  bitsAt : BitsAt p 2 space bits

theorem lineRuns_of_alternates {l : List (Pulse Bool)} (hpulses : tx.filterMap TxEvent.pulse? = l)
    (halternates : Alternates l) (hhead : ∀ a ∈ l.head?, a.level = true)
    (hlast : ∀ a ∈ l.getLast?, a.level = true) : lineRuns tx = l := by
  have htrim : trim false l = l := by
    apply trim_eq_self
    · intro a ha
      simp [hhead a ha]
    · intro a ha
      simp [hlast a ha]
  rw [lineRuns, hpulses, htrim, merge_of_alternates halternates]

theorem lineRuns_dataRuns (hpulses : tx.filterMap TxEvent.pulse? = dataRuns mark space bits) :
    lineRuns tx = dataRuns mark space bits := by
  apply lineRuns_of_alternates hpulses (alternates_space_dataRuns 0).tail
  · intro a ha
    cases bits <;> simp [dataRuns] at ha <;> rw [← ha]
  · intro a ha
    obtain ⟨l, hl⟩ := exists_dataRuns_eq_append mark space bits
    rw [hl, List.getLast?_concat, Option.mem_some_iff] at ha
    rw [← ha]

theorem IdealCapture.headerless (h : IdealCapture p tx)
    (hpulses : tx.filterMap TxEvent.pulse? = dataRuns mark space bits) :
    HeaderlessCapture p mark space bits where
  stopped := h.stopped
  overflowFlag := h.overflowFlag
  rawlen := by rw [h.rawlen, lineRuns_dataRuns hpulses, dataRuns_length]
  mark j hj := by
    have hget : (lineRuns tx)[2 * j]? = some ⟨true, mark⟩ := by
      rw [lineRuns_dataRuns hpulses]
      exact dataRuns_mark hj
    exact h.entry_of_getElem? hget
  bitsAt := by
    intro j hj
    have hget : (lineRuns tx)[2 * j + 1]? = some ⟨false, space bits[j]⟩ := by
      rw [lineRuns_dataRuns hpulses]
      exact dataRuns_space hj
    have hindex : 2 + 2 * j = 2 * j + 1 + 1 := by omega
    rw [hindex]
    exact h.entry_of_getElem? hget

/-- The carrier is not recorded. -/
theorem IdealCapture.tail {kHz : ℕ} (h : IdealCapture p (.enableIROut kHz :: tx)) :
    IdealCapture p tx :=
  ⟨h.stopped, h.overflowFlag, h.rawlen, h.gap, h.entry⟩

theorem IdealCapture.cons (h : IdealCapture p tx) (kHz : ℕ) :
    IdealCapture p (.enableIROut kHz :: tx) :=
  ⟨h.stopped, h.overflowFlag, h.rawlen, h.gap, h.entry⟩

/-! ## Frames of more than one word -/

variable {c : PulseDistanceWidthProtocolConstants} {array : ℕ → BitVec 32}

/-- The first word is sent without a stop mark, and the rest of the bits with one. -/
theorem filterMap_pulse?_twoWords (hc : IsPulseDistance c) (hflags : c.flags = protocolIsLsbFirst)
    (hpos : 0 < n) (hn : n ≤ 32) :
    (sendPulseDistanceWidthFromArray c array (32 + n) 0).filterMap TxEvent.pulse? =
      frameRuns c.distanceWidthTimingInfo.headerMarkMicros
        c.distanceWidthTimingInfo.headerSpaceMicros c.distanceWidthTimingInfo.zeroMarkMicros
        c.distanceWidthTimingInfo.bitSpace
        (BitWord.lsbBits 32 (array 0) ++ BitWord.lsbBits n (array 1)) := by
  have hchunks : numberOfChunks (32 + n) = 2 := by
    simp only [numberOfChunks, bitsInRawDataType]
    omega
  have hrest : (32 + n + 65536 - bitsInRawDataType) % 65536 % 256 = n := by
    simp only [bitsInRawDataType]
    omega
  -- the stop mark is suppressed behind the first word
  have hfirst : stopMark c.distanceWidthTimingInfo.zeroMarkMicros
      c.distanceWidthTimingInfo.zeroMarkMicros (protocolIsLsbFirst ||| suppressStopBitForThisData) =
      [] := if_neg fun h => absurd h.1 (by decide)
  have hlast : stopMark c.distanceWidthTimingInfo.zeroMarkMicros
      c.distanceWidthTimingInfo.zeroMarkMicros protocolIsLsbFirst =
      [.mark c.distanceWidthTimingInfo.zeroMarkMicros] := if_pos ⟨rfl, rfl⟩
  have hpulses := filterMap_pulse?_data c.distanceWidthTimingInfo.zeroMarkMicros
    c.distanceWidthTimingInfo.oneSpaceMicros c.distanceWidthTimingInfo.zeroSpaceMicros
    (BitWord.lsbBits 32 (array 0) ++ BitWord.lsbBits n (array 1))
  rw [List.flatMap_append, List.append_assoc] at hpulses
  simp only [sendPulseDistanceWidthFromArray, sendCommands, hchunks, sendChunks, hrest, hflags,
    hc.mark, if_true, if_false, Nat.reduceAdd, Nat.one_ne_zero,
    sendPulseDistanceWidthDataV1_lsb (show (protocolIsLsbFirst ||| suppressStopBitForThisData) &&&
      protocolIsMsbFirst = 0 by decide),
    sendPulseDistanceWidthDataV1_lsb (show protocolIsLsbFirst &&& protocolIsMsbFirst = 0 by decide),
    hfirst, hlast, List.append_nil, Nat.lt_irrefl, List.filterMap_cons, TxEvent.pulse?, frameRuns]
  rw [show bitsInRawDataType = 32 from rfl, hpulses]
  rfl

/-- The capture of a frame of a word and up to 32 more bits. -/
theorem IdealCapture.twoWords (hc : IsPulseDistance c) (hflags : c.flags = protocolIsLsbFirst)
    (hpos : 0 < n) (hn : n ≤ 32)
    (h : IdealCapture p (sendPulseDistanceWidthFromArray c array (32 + n) 0)) :
    PulseDistanceCapture p c.distanceWidthTimingInfo.headerMarkMicros
      c.distanceWidthTimingInfo.headerSpaceMicros c.distanceWidthTimingInfo.zeroMarkMicros
      c.distanceWidthTimingInfo.bitSpace
      (BitWord.lsbBits 32 (array 0) ++ BitWord.lsbBits n (array 1)) :=
  h.pulseDistanceCapture (filterMap_pulse?_twoWords hc hflags hpos hn)

theorem length_lineRuns_twoWords (hc : IsPulseDistance c) (hflags : c.flags = protocolIsLsbFirst)
    (hpos : 0 < n) (hn : n ≤ 32) :
    (lineRuns (sendPulseDistanceWidthFromArray c array (32 + n) 0)).length = 2 * (32 + n) + 3 := by
  rw [lineRuns_of_pulses (filterMap_pulse?_twoWords hc hflags hpos hn), frameRuns,
    List.length_cons, List.length_cons, dataRuns_length, List.length_append,
    BitWord.lsbBits_length, BitWord.lsbBits_length]

/-! ## Pulse width frames -/

/-- The runs of marks that are each followed by a space. -/
def pairRuns (l : List (ℕ × ℕ)) : List (Pulse Bool) :=
  l.flatMap fun a => [⟨true, a.1⟩, ⟨false, a.2⟩]

variable {l : List (ℕ × ℕ)}

theorem pairRuns_length : (pairRuns l).length = 2 * l.length := by
  induction l with
  | nil => rfl
  | cons a l ih =>
    have hcons : pairRuns (a :: l) = ⟨true, a.1⟩ :: ⟨false, a.2⟩ :: pairRuns l := rfl
    rw [hcons, List.length_cons, List.length_cons, List.length_cons, ih]
    omega

theorem pairRuns_mark (hj : j < l.length) : (pairRuns l)[2 * j]? = some ⟨true, l[j].1⟩ := by
  induction l generalizing j with
  | nil => simp at hj
  | cons a l ih =>
    cases j with
    | zero => rfl
    | succ j => exact ih (by simpa using hj)

theorem pairRuns_space (hj : j < l.length) :
    (pairRuns l)[2 * j + 1]? = some ⟨false, l[j].2⟩ := by
  induction l generalizing j with
  | nil => simp at hj
  | cons a l ih =>
    cases j with
    | zero => rfl
    | succ j => exact ih (by simpa using hj)

theorem alternates_pairRuns (d : ℕ) : Alternates (⟨false, d⟩ :: pairRuns l) := by
  induction l generalizing d with
  | nil => exact List.isChain_singleton _
  | cons a l ih =>
    exact List.isChain_cons_cons.mpr ⟨by simp, List.isChain_cons_cons.mpr ⟨by simp, ih _⟩⟩

/-- The receiver does not record the last space. -/
theorem lineRuns_pairRuns (hpulses : tx.filterMap TxEvent.pulse? = pairRuns l) :
    lineRuns tx = (pairRuns l).dropLast := by
  rcases List.eq_nil_or_concat l with rfl | ⟨front, a, rfl⟩
  · rw [lineRuns, hpulses]
    rfl
  · have hsplit : pairRuns (front ++ [a]) =
        (pairRuns front ++ [⟨true, a.1⟩]) ++ [⟨false, a.2⟩] := by
      simp [pairRuns]
    have halternates : Alternates (pairRuns front ++ [⟨true, a.1⟩]) := by
      have hall := (@alternates_pairRuns (front ++ [a]) 0).tail
      rw [List.tail_cons, hsplit] at hall
      exact hall.left_of_append
    have htrim : trim false ((pairRuns front ++ [⟨true, a.1⟩]) ++ [⟨false, a.2⟩]) =
        pairRuns front ++ [⟨true, a.1⟩] := by
      rw [trim_concat_of_eq (by rfl)]
      apply trim_eq_self
      · intro b hb
        cases front <;> simp [pairRuns] at hb <;> simp [← hb]
      · intro b hb
        rw [List.getLast?_concat, Option.mem_some_iff] at hb
        simp [← hb]
    rw [List.concat_eq_append] at hpulses ⊢
    rw [lineRuns, hpulses, hsplit, htrim, merge_of_alternates halternates, List.dropLast_concat]

/-- A frame of marks and spaces; the last space is part of the gap. -/
structure PairsCapture (p : IrParams) (l : List (ℕ × ℕ)) : Prop where
  stopped : p.stateForISR = .stop
  overflowFlag : p.overflowFlag = false
  rawlen : p.rawlen = 2 * l.length
  gap : ∃ g, p.raw 0 = some g ∧ recordGapTicks < g
  mark : ∀ j (h : j < l.length), ∃ t ∈ roundings l[j].1, p.raw (2 * j + 1) = some t
  space : ∀ j (h : j + 1 < l.length), ∃ t ∈ roundings l[j].2, p.raw (2 * j + 2) = some t

theorem IdealCapture.pairsCapture (h : IdealCapture p tx)
    (hpulses : tx.filterMap TxEvent.pulse? = pairRuns l) (hne : l ≠ []) : PairsCapture p l where
  stopped := h.stopped
  overflowFlag := h.overflowFlag
  rawlen := by
    have hpos := List.length_pos_of_ne_nil hne
    rw [h.rawlen, lineRuns_pairRuns hpulses, List.length_dropLast, pairRuns_length]
    omega
  gap := h.gap
  mark j hj := by
    have hget : (lineRuns tx)[2 * j]? = some ⟨true, l[j].1⟩ := by
      -- only the last space is no run of the line
      rw [lineRuns_pairRuns hpulses, List.getElem?_dropLast,
        if_pos (by rw [pairRuns_length]; omega)]
      exact pairRuns_mark hj
    exact h.entry_of_getElem? hget
  space j hj := by
    have hget : (lineRuns tx)[2 * j + 1]? = some ⟨false, l[j].2⟩ := by
      rw [lineRuns_pairRuns hpulses, List.getElem?_dropLast,
        if_pos (by rw [pairRuns_length]; omega)]
      exact pairRuns_space (Nat.lt_of_succ_lt hj)
    exact h.entry_of_getElem? hget

/-- The mark and the space of a bit. -/
def DistanceWidthTimingInfo.bitPair (timingInfo : DistanceWidthTimingInfo) (b : Bool) : ℕ × ℕ :=
  if b then (timingInfo.oneMarkMicros, timingInfo.oneSpaceMicros)
  else (timingInfo.zeroMarkMicros, timingInfo.zeroSpaceMicros)

/-- The bits can be read off their runs. -/
theorem pairRuns_map_inj {timingInfo : DistanceWidthTimingInfo}
    (hne : timingInfo.oneMarkMicros ≠ timingInfo.zeroMarkMicros) :
    pairRuns (bits.map timingInfo.bitPair) = pairRuns (bits'.map timingInfo.bitPair) ↔
      bits = bits' := by
  refine ⟨fun h => ?_, fun h => by rw [h]⟩
  induction bits generalizing bits' with
  | nil =>
    cases bits' with
    | nil => rfl
    | cons b' bits' => cases h
  | cons b bits ih =>
    cases bits' with
    | nil => cases h
    | cons b' bits' =>
      obtain ⟨hmark, hrest⟩ := List.cons.inj h
      have hbit : b = b' := by
        cases b <;> cases b'
        · rfl
        · exact absurd (Pulse.mk.inj hmark).2.symm hne
        · exact absurd (Pulse.mk.inj hmark).2 hne
        · rfl
      rw [hbit, ih (List.cons.inj hrest).2]

/-- The mark of a bit. -/
def DistanceWidthTimingInfo.bitMark (timingInfo : DistanceWidthTimingInfo) (b : Bool) : ℕ :=
  (timingInfo.bitPair b).1

theorem filterMap_pulse?_pairs (timingInfo : DistanceWidthTimingInfo) (bits : List Bool) :
    (bits.flatMap (sendBit timingInfo.oneMarkMicros timingInfo.oneSpaceMicros
      timingInfo.zeroMarkMicros timingInfo.zeroSpaceMicros)).filterMap TxEvent.pulse? =
      pairRuns (bits.map timingInfo.bitPair) := by
  induction bits with
  | nil => rfl
  | cons b bits ih =>
    rw [List.flatMap_cons, List.filterMap_append, ih]
    cases b <;> rfl

/-- The marks of the bits, behind some other pairs. -/
theorem PairsCapture.bitsAt {timingInfo : DistanceWidthTimingInfo}
    (h : PairsCapture p (l ++ bits.map timingInfo.bitPair)) :
    BitsAt p (2 * l.length + 1) timingInfo.bitMark bits := by
  intro j hj
  have hentry := h.mark (l.length + j) (by simp; omega)
  rw [List.getElem_append_right (Nat.le_add_right _ _)] at hentry
  have hindex : 2 * l.length + 1 + 2 * j = 2 * (l.length + j) + 1 := by omega
  rw [hindex]
  simpa [DistanceWidthTimingInfo.bitMark] using hentry

end IrRemote
