import IrRemote.Link.Histogram
import IrRemote.Mid.IrRemoteDecode
import IrRemote.Mid.IrSend
import IrRemote.Receiver.Capture

/-!
# Frames of the universal decoder

A pulse distance frame that no other decoder knows is replayed with the durations that
occur in it. The last space is not counted, so both bit values must occur in front of it.
The start index of a chunk is a byte, so the bits from 128 on are read at the front of the
frame again, and the number of bits to send is a byte.

## Main definitions

* `FrameTicks` — the durations of a pulse distance frame, in ticks
* `PulseDistanceTicks` — such a frame in the buffer
* `bitsRead` — the bits the decoder reads

## Main results

* `decodeChunks_eq`, `sendChunks_eq` — the bits, chunk by chunk
* `universal_replay` — the frames that are sent again as they were received
-/

set_option autoImplicit false

namespace IrRemote

/-! ## Chunks -/

variable {p : IrParams} {s : DecodeState} {l : List Bool} {k m : ℕ}

/-- The bits of a chunk. -/
def chunk (k : ℕ) (l : List Bool) : List Bool := (l.drop (32 * k)).take 32

theorem chunk_length : (chunk k l).length = min 32 (l.length - 32 * k) := by
  rw [chunk, List.length_take, List.length_drop]

theorem chunk_getElem {j : ℕ} (hj : j < (chunk k l).length) (h : 32 * k + j < l.length) :
    (chunk k l)[j] = l[32 * k + j] := by
  simp [chunk]

theorem chunk_append (k : ℕ) (l : List Bool) :
    chunk k l ++ l.drop (32 * (k + 1)) = l.drop (32 * k) := by
  rw [chunk, Nat.mul_succ, ← List.drop_drop]
  exact List.take_append_drop 32 _

/-- The word of a chunk. -/
def chunkWord (k : ℕ) (l : List Bool) : BitVec 32 := BitWord.collectLsb (chunk k l) 1#32 0#32

theorem lsbBits_chunkWord : BitWord.lsbBits (chunk k l).length (chunkWord k l) = chunk k l :=
  BitWord.lsbBits_collectLsb (by rw [chunk_length]; omega)

/-- One round of the chunk loop stores the word of a chunk. -/
theorem decodeChunks_succ (timing : ChunkTiming) {start bits : ℕ}
    (hread : ∀ j (h : j < l.length), bitValue p timing.oneMarkMicros timing.zeroMarkMicros
      timing.oneSpaceMicros (3 + 2 * (j % 128)) = some l[j])
    (hlen : l.length < 256) (hstart : start = (3 + 64 * k) % 256)
    (hbits : 32 * k + bits = l.length) (hk : k < rawDataArraySize) :
    decodeChunks timing p (m + 1) k start bits s =
      decodeChunks timing p m (k + 1) ((start + 2 * bitsInRawDataType) % 256)
        ((bits + 65536 - bitsInRawDataType) % 65536) { s with
          decodedIRData.protocol := timing.protocol
          decodedIRData.decodedRawData := chunkWord k l
          decodedIRData.decodedRawDataArray :=
            s.decodedIRData.decodedRawDataArray.set k (chunkWord k l) hk } := by
  have hnumber : numberOfBitsForOneDecode bits = (chunk k l).length := by
    have hmod : bits % 256 = bits := Nat.mod_eq_of_lt (by omega)
    rw [chunk_length, numberOfBitsForOneDecode, bitsInRawDataType, hmod]
    by_cases hfull : 32 < bits
    · rw [if_pos hfull]
      omega
    · rw [if_neg hfull]
      omega
  have hchunk : decodeBits (bitValue p timing.oneMarkMicros timing.zeroMarkMicros
      timing.oneSpaceMicros) false (chunk k l).length start 0#32 1#32 =
      some (chunkWord k l) := by
    apply decodeBits_lsb
    intro j hj
    have hj' : j < 32 ∧ 32 * k + j < l.length := by
      rw [chunk_length] at hj
      omega
    -- the start index is a byte, so the entries are those of the bits modulo 128
    have hindex : start + 2 * j = 3 + 2 * ((32 * k + j) % 128) := by omega
    rw [chunk_getElem hj hj'.2, hindex]
    exact hread _ hj'.2
  have hdata := decodePulseDistanceWidthData_eq
    (s := { s with decodedIRData.protocol := timing.protocol }) hchunk
  rw [decodeChunks, hnumber, hdata, Option.bind_eq_bind, Option.bind_some]
  simp only [Bool.not_true, Bool.false_eq_true, if_false, storeChunk, dif_pos hk]
  rfl

/-- The chunks from an index on are stored in the array. -/
theorem decodeChunks_eq (timing : ChunkTiming) {start bits : ℕ}
    (hread : ∀ j (h : j < l.length), bitValue p timing.oneMarkMicros timing.zeroMarkMicros
      timing.oneSpaceMicros (3 + 2 * (j % 128)) = some l[j])
    (hlen : l.length < 256) (hstart : start = (3 + 64 * k) % 256)
    (hbits : 32 * k + bits = l.length) (hm : 32 * m < bits + 32)
    (hsize : k + m ≤ rawDataArraySize) :
    ∃ s', decodeChunks timing p m k start bits s = some (true, s') ∧
      s'.decodedIRData.numberOfBits = s.decodedIRData.numberOfBits ∧
      (∀ j < k, s'.decodedIRData.decodedRawDataArray[j]? =
        s.decodedIRData.decodedRawDataArray[j]?) ∧
      ∀ j, k ≤ j → j < k + m →
        s'.decodedIRData.decodedRawDataArray[j]? = some (chunkWord j l) := by
  induction m generalizing k start bits s with
  | zero => exact ⟨s, rfl, rfl, fun _ _ => rfl, fun j hj hlt => by omega⟩
  | succ m ih =>
    have hk : k < rawDataArraySize := by omega
    have hget : ∀ j, (s.decodedIRData.decodedRawDataArray.set k (chunkWord k l) hk)[j]? =
        if k = j then some (chunkWord k l) else s.decodedIRData.decodedRawDataArray[j]? := by
      intro j
      simp only [Vector.getElem?_set]
    rw [decodeChunks_succ timing hread hlen hstart hbits hk]
    -- the last chunk may be short, and the number of bits left wraps behind it
    rcases Nat.eq_zero_or_pos m with rfl | hpos
    · refine ⟨_, rfl, rfl, fun j hj => ?_, fun j hj hlt => ?_⟩
      · rw [hget, if_neg (by omega)]
      · obtain rfl : j = k := by omega
        rw [hget, if_pos rfl]
    · obtain ⟨s', hs', hnum, hbelow, habove⟩ := @ih { s with
          decodedIRData.protocol := timing.protocol
          decodedIRData.decodedRawData := chunkWord k l
          decodedIRData.decodedRawDataArray :=
            s.decodedIRData.decodedRawDataArray.set k (chunkWord k l) hk } (k + 1)
        ((start + 2 * bitsInRawDataType) % 256) ((bits + 65536 - bitsInRawDataType) % 65536)
        (by simp only [bitsInRawDataType]; omega) (by simp only [bitsInRawDataType]; omega)
        (by simp only [bitsInRawDataType]; omega) (by omega)
      refine ⟨s', hs', hnum, fun j hj => ?_, fun j hj hlt => ?_⟩
      · rw [hbelow j (by omega), hget, if_neg (by omega)]
      · rcases Nat.eq_or_lt_of_le hj with rfl | hgt
        · rw [hbelow _ (Nat.lt_succ_self _), hget, if_pos rfl]
        · exact habove j hgt (by omega)

variable {oneMark oneSpace zeroMark zeroSpace : ℕ} {array : ℕ → BitVec 32}

/-- No stop mark follows the chunks in front of the last. -/
theorem stopMark_suppress :
    stopMark oneMark zeroMark (protocolIsLsbFirst ||| suppressStopBitForThisData) = [] :=
  if_neg fun h => absurd h.1 (by decide)

/-- The words of the chunks are sent as the bits they were made of. Only the last chunk has
a stop mark. -/
theorem sendChunks_eq (oneMark oneSpace zeroMark zeroSpace : ℕ) (hlen : l.length < 256)
    (hm : 32 * (k + m) < l.length)
    (hlast : l.length ≤ 32 * (k + m + 1))
    (harray : ∀ j, k ≤ j → j ≤ k + m → array j = chunkWord j l) :
    (sendChunks oneMark oneSpace zeroMark zeroSpace array protocolIsLsbFirst (m + 1) k
      (l.length - 32 * k)).1 =
      (l.drop (32 * k)).flatMap (sendBit oneMark oneSpace zeroMark zeroSpace) ++
        stopMark oneMark zeroMark protocolIsLsbFirst := by
  induction m generalizing k with
  | zero =>
    -- the last chunk holds the rest of the bits
    have hchunk : chunk k l = l.drop (32 * k) := by
      rw [chunk, List.take_of_length_le]
      rw [List.length_drop]
      omega
    have hbits : (l.length - 32 * k) % 256 = (chunk k l).length := by
      rw [hchunk, List.length_drop, Nat.mod_eq_of_lt (by omega)]
    rw [sendChunks, sendChunks, if_pos rfl, if_pos rfl, List.append_nil, hbits,
      harray k le_rfl (by omega), sendPulseDistanceWidthDataV1_lsb (by decide), lsbBits_chunkWord,
      hchunk]
  | succ m ih =>
    have hbits : bitsInRawDataType = (chunk k l).length := by
      rw [chunk_length, bitsInRawDataType]
      omega
    -- the count of the bits that are left is 16 bits wide and does not wrap around
    have hrest : (l.length - 32 * k + 65536 - bitsInRawDataType) % 65536 =
        l.length - 32 * (k + 1) := by
      simp only [bitsInRawDataType]
      omega
    rw [sendChunks, if_neg (by omega), if_neg (by omega), hrest,
      ih (k := k + 1) (by omega) (by omega) fun j hj hle => harray j (by omega) (by omega),
      harray k le_rfl (by omega), hbits, sendPulseDistanceWidthDataV1_lsb (by decide),
      lsbBits_chunkWord, stopMark_suppress, List.append_nil, ← chunk_append k l,
      List.flatMap_append, List.append_assoc]

theorem length_flatMap_sendBit (bits : List Bool) :
    (bits.flatMap (sendBit oneMark oneSpace zeroMark zeroSpace)).length = 2 * bits.length := by
  induction bits with
  | nil => rfl
  | cons b bits ih =>
    rw [List.flatMap_cons, List.length_append, ih, List.length_cons]
    cases b <;> simp only [sendBit, Bool.false_eq_true, if_false, if_true, List.length_cons,
      List.length_nil] <;> omega

theorem length_sendPulseDistanceWidthDataV1 {flags : BitVec 8} {data : BitVec 32} {n : ℕ}
    (hflags : flags &&& protocolIsMsbFirst = 0) :
    (sendPulseDistanceWidthDataV1 oneMark oneSpace zeroMark zeroSpace data n flags).length =
      2 * n + (stopMark oneMark zeroMark flags).length := by
  rw [sendPulseDistanceWidthDataV1_lsb hflags, List.length_append, length_flatMap_sendBit,
    BitWord.lsbBits_length]

theorem length_stopMark_le (flags : BitVec 8) : (stopMark oneMark zeroMark flags).length ≤ 1 := by
  unfold stopMark
  split_ifs
  · exact le_rfl
  · exact Nat.zero_le 1

/-- No more than the number of bits is sent. -/
theorem length_sendChunks_le (oneMark oneSpace zeroMark zeroSpace : ℕ)
    (array : ℕ → BitVec 32) {bits : ℕ} (hm : 32 * m ≤ bits) (hbits : bits < 256) :
    (sendChunks oneMark oneSpace zeroMark zeroSpace array protocolIsLsbFirst (m + 1) k
      bits).1.length ≤ 2 * bits + 1 := by
  induction m generalizing k bits with
  | zero =>
    have hstop : (stopMark oneMark zeroMark protocolIsLsbFirst).length ≤ 1 := length_stopMark_le _
    rw [sendChunks, sendChunks, if_pos rfl, if_pos rfl, List.append_nil,
      length_sendPulseDistanceWidthDataV1 (by decide), Nat.mod_eq_of_lt hbits]
    omega
  | succ m ih =>
    have hrest : (bits + 65536 - bitsInRawDataType) % 65536 = bits - 32 := by
      simp only [bitsInRawDataType]
      omega
    have hle := @ih (k + 1) (bits - 32) (by omega) (by omega)
    rw [sendChunks, if_neg (Nat.succ_ne_zero m), if_neg (Nat.succ_ne_zero m), hrest,
      List.length_append, length_sendPulseDistanceWidthDataV1 (by decide), stopMark_suppress,
      List.length_nil]
    simp only [bitsInRawDataType]
    omega

/-- At least one bit is sent. -/
theorem two_le_length_sendChunks (oneMark oneSpace zeroMark zeroSpace : ℕ)
    (array : ℕ → BitVec 32) {bits : ℕ} (hpos : 0 < bits) (hbits : bits < 256) :
    2 ≤ (sendChunks oneMark oneSpace zeroMark zeroSpace array protocolIsLsbFirst (m + 1) k
      bits).1.length := by
  have hflags : (if m = 0 then protocolIsLsbFirst
      else protocolIsLsbFirst ||| suppressStopBitForThisData) &&& protocolIsMsbFirst = 0 := by
    split_ifs <;> decide
  have hnumber : 1 ≤ if m = 0 then bits % 256 else bitsInRawDataType := by
    rw [Nat.mod_eq_of_lt hbits]
    split_ifs
    · exact hpos
    · decide
  rw [sendChunks, List.length_append, length_sendPulseDistanceWidthDataV1 hflags]
  omega

/-! ## Frames -/

/-- The durations of a pulse distance frame, in ticks. The universal decoder tells the
spaces apart. -/
structure FrameTicks where
  headerMark : ℕ
  headerSpace : ℕ
  mark : ℕ
  short : ℕ
  long : ℕ
  headerMark_le : headerMark ≤ 100
  headerSpace_le : headerSpace ≤ 100
  mark_lt : mark < durationArraySize
  short_pos : 1 ≤ short
  two_mul_short_le : 2 * short ≤ long
  le_long : 8 ≤ long
  long_lt : long < durationArraySize

/-- The space of a bit. -/
def FrameTicks.space (t : FrameTicks) (b : Bool) : ℕ := if b then t.long else t.short

/-- The transmission of a frame with these durations. -/
def FrameTicks.transmission (t : FrameTicks) (bits : List Bool) : List TxEvent :=
  .enableIROut 38 :: .mark (microsPerTick * t.headerMark) ::
    .space (microsPerTick * t.headerSpace) ::
    (bits.flatMap fun b =>
      [.mark (microsPerTick * t.mark), .space (microsPerTick * t.space b)]) ++
    [.mark (microsPerTick * t.mark)]

/-- The receiver has stopped with a pulse distance frame in its buffer. -/
structure PulseDistanceTicks (p : IrParams) (t : FrameTicks) (bits : List Bool) : Prop where
  stopped : p.stateForISR = .stop
  overflowFlag : p.overflowFlag = false
  rawlen : p.rawlen = 2 * bits.length + 4
  headerMark : p.raw 1 = some t.headerMark
  headerSpace : p.raw 2 = some t.headerSpace
  mark : ∀ j ≤ bits.length, p.raw (3 + 2 * j) = some t.mark
  space : ∀ j (h : j < bits.length), p.raw (3 + 2 * j + 1) = some (t.space bits[j])

variable {t : FrameTicks} {bits : List Bool}

/-- Bits that are sent with these durations. -/
theorem FrameTicks.transmission_eq (t : FrameTicks) (bits : List Bool) :
    t.transmission bits = .enableIROut 38 :: .mark (t.headerMark * microsPerTick) ::
      .space (t.headerSpace * microsPerTick) ::
      (bits.flatMap (sendBit (t.mark * microsPerTick) (t.long * microsPerTick)
        (t.mark * microsPerTick) (t.short * microsPerTick)) ++
      [.mark (t.mark * microsPerTick)]) := by
  have hbit : (fun b => [TxEvent.mark (microsPerTick * t.mark),
      TxEvent.space (microsPerTick * t.space b)]) =
      sendBit (t.mark * microsPerTick) (t.long * microsPerTick) (t.mark * microsPerTick)
        (t.short * microsPerTick) := by
    funext b
    rw [Nat.mul_comm _ t.mark, Nat.mul_comm _ (t.space b)]
    cases b <;> rfl
  rw [transmission, hbit, Nat.mul_comm _ t.mark, Nat.mul_comm _ t.headerMark,
    Nat.mul_comm _ t.headerSpace]
  rfl

theorem FrameTicks.transmission_inj {bits' : List Bool} :
    t.transmission bits = t.transmission bits' ↔ bits = bits' := by
  have hne : t.long * microsPerTick ≠ t.short * microsPerTick := by
    have hlt := t.two_mul_short_le
    have hpos := t.short_pos
    unfold microsPerTick
    omega
  simp only [t.transmission_eq, List.cons.injEq, true_and, List.append_left_inj,
    flatMap_sendBit_inj hne]

theorem FrameTicks.length_transmission (t : FrameTicks) (bits : List Bool) :
    (t.transmission bits).length = 2 * bits.length + 4 := by
  rw [t.transmission_eq, List.length_cons, List.length_cons, List.length_cons, List.length_append,
    length_flatMap_sendBit, List.length_singleton]

/-! ### The durations of the frame -/

theorem PulseDistanceTicks.marks (h : PulseDistanceTicks p t bits) (hlen : bits.length < 256)
    (hpos : 0 < bits.length) : durations p 3 = some (some (t.mark, 0)) := by
  apply durations_single (l := List.replicate bits.length t.mark)
  · rwa [List.length_replicate]
  · rw [List.length_replicate, h.rawlen]
    omega
  · intro j hj
    rw [List.length_replicate] at hj
    rw [List.getElem_replicate]
    exact h.mark j (Nat.le_of_lt hj)
  · exact t.mark_lt
  · exact List.mem_replicate.mpr ⟨Nat.ne_of_gt hpos, rfl⟩
  · exact fun u hu => List.eq_of_mem_replicate hu

/-- The last space is not counted. -/
theorem PulseDistanceTicks.spaces_length (h : PulseDistanceTicks p t bits) :
    (p.rawlen - 2 - 4 + 1) / 2 = (bits.dropLast.map t.space).length := by
  rw [h.rawlen, List.length_map, List.length_dropLast]
  omega

theorem PulseDistanceTicks.spaces_read (h : PulseDistanceTicks p t bits) (j : ℕ)
    (hj : j < (bits.dropLast.map t.space).length) :
    p.raw (4 + 2 * j) = some (bits.dropLast.map t.space)[j] := by
  rw [List.length_map, List.length_dropLast] at hj
  rw [List.getElem_map, List.getElem_dropLast, Nat.add_right_comm 3 1]
  exact h.space j (by omega)

theorem PulseDistanceTicks.spaces (h : PulseDistanceTicks p t bits) (hlen : bits.length < 256)
    (hone : true ∈ bits.dropLast) (hzero : false ∈ bits.dropLast) :
    durations p 4 = some (some (t.short, t.long)) := by
  have hshort := t.short_pos
  have hlong := t.le_long
  have hle := t.two_mul_short_le
  apply durations_pair _ h.spaces_length h.spaces_read t.long_lt hshort (by omega)
  · exact List.mem_map.mpr ⟨false, hzero, rfl⟩
  · exact List.mem_map.mpr ⟨true, hone, rfl⟩
  · intro u hu
    obtain ⟨b, -, rfl⟩ := List.mem_map.mp hu
    cases b
    · exact .inl rfl
    · exact .inr rfl
  · rw [List.length_map, List.length_dropLast]
    omega

/-- Without the last space only one duration may be left. -/
theorem PulseDistanceTicks.spaces_single (h : PulseDistanceTicks p t bits)
    (hlen : bits.length < 256) (hmin : 2 ≤ bits.length)
    (hboth : ¬(true ∈ bits.dropLast ∧ false ∈ bits.dropLast)) :
    ∃ b, durations p 4 = some (some (t.space b, 0)) := by
  have hlong := t.long_lt
  have hle := t.two_mul_short_le
  obtain ⟨b, hb⟩ : ∃ b, b ∈ bits.dropLast := by
    apply List.exists_mem_of_length_pos
    rw [List.length_dropLast]
    omega
  have hall : ∀ c ∈ bits.dropLast, c = b := by
    intro c hc
    by_contra hne
    apply hboth
    cases b <;> cases c <;> simp_all
  refine ⟨b, durations_single ?_ h.spaces_length h.spaces_read ?_
    (List.mem_map.mpr ⟨b, hb, rfl⟩) ?_⟩
  · rw [List.length_map, List.length_dropLast]
    omega
  · unfold FrameTicks.space
    split_ifs <;> omega
  · intro u hu
    obtain ⟨c, hc, rfl⟩ := List.mem_map.mp hu
    rw [hall c hc]

/-! ### The bits that are read -/

/-- The bits the decoder reads: behind the first 128 it starts at the front again. -/
def bitsRead (bits : List Bool) : List Bool :=
  (List.range bits.length).map fun j => bits.getD (j % 128) false

theorem bitsRead_length : (bitsRead bits).length = bits.length := by
  rw [bitsRead, List.length_map, List.length_range]

theorem bitsRead_getElem? {j : ℕ} (hj : j < bits.length) :
    (bitsRead bits)[j]? = bits[j % 128]? := by
  have hmod : j % 128 < bits.length := (Nat.mod_le j 128).trans_lt hj
  rw [bitsRead, List.getElem?_map, List.getElem?_range hj, Option.map_some,
    List.getD_eq_getElem?_getD, List.getElem?_eq_getElem hmod, Option.getD_some]

/-- The bits are read as they were sent when those behind the first 128 repeat them. -/
theorem bitsRead_eq_iff (hlen : bits.length < 256) :
    bitsRead bits = bits ↔ ∀ j, 128 ≤ j → j < bits.length → bits[j]? = bits[j - 128]? := by
  constructor
  · intro h j hle hj
    have hread := bitsRead_getElem? hj
    have hmod : j % 128 = j - 128 := by omega
    rw [h, hmod] at hread
    exact hread
  · intro h
    apply List.ext_getElem?
    intro j
    by_cases hj : j < bits.length
    · rw [bitsRead_getElem? hj]
      by_cases hle : 128 ≤ j
      · have hmod : j % 128 = j - 128 := by omega
        rw [hmod, h j hle hj]
      · rw [Nat.mod_eq_of_lt (by omega)]
    · have hle := Nat.le_of_not_lt hj
      rw [List.getElem?_eq_none (bitsRead_length.trans_le hle), List.getElem?_eq_none hle]

/-- The long space is told from the short one. -/
theorem FrameTicks.matchSpace_space (t : FrameTicks) (b : Bool) :
    matchSpace (t.space b) (t.long * microsPerTick) = b := by
  have hlong := t.le_long
  have hlt := t.two_mul_short_le
  have hwindow : ∀ L < durationArraySize, 8 ≤ L → matchSpace L (L * microsPerTick) = true ∧
      ∀ S < L, 2 * S ≤ L → matchSpace S (L * microsPerTick) = false := by decide
  obtain ⟨hone, hzero⟩ := hwindow t.long t.long_lt hlong
  cases b
  · exact hzero t.short (by omega) hlt
  · exact hone

theorem PulseDistanceTicks.bitValue (h : PulseDistanceTicks p t bits) {j : ℕ}
    (hj : j < (bitsRead bits).length) (m : ℕ) :
    bitValue p m m (t.long * microsPerTick) (3 + 2 * (j % 128)) = some (bitsRead bits)[j] := by
  rw [bitsRead_length] at hj
  have hmod : j % 128 < bits.length := (Nat.mod_le j 128).trans_lt hj
  have hread := bitsRead_getElem? hj
  rw [List.getElem?_eq_getElem hmod] at hread
  rw [IrRemote.bitValue, if_pos rfl, h.space _ hmod, Option.map_some, t.matchSpace_space, ← hread]
  exact List.getElem?_eq_getElem _

/-! ### The decoder on the frame -/

/-- The timing of the frame. -/
def FrameTicks.timingInfo (t : FrameTicks) : DistanceWidthTimingInfo where
  headerMarkMicros := t.headerMark * microsPerTick
  headerSpaceMicros := t.headerSpace * microsPerTick
  oneMarkMicros := t.mark * microsPerTick
  oneSpaceMicros := t.long * microsPerTick
  zeroMarkMicros := t.mark * microsPerTick
  zeroSpaceMicros := t.short * microsPerTick

theorem FrameTicks.replayTiming_eq (t : FrameTicks) :
    replayTiming t.headerMark t.headerSpace (t.mark, 0) (t.short, t.long) = t.timingInfo := by
  have hmark : t.headerMark * microsPerTick < 65536 :=
    (Nat.mul_le_mul_right _ t.headerMark_le).trans_lt (by decide)
  have hspace : t.headerSpace * microsPerTick < 65536 :=
    (Nat.mul_le_mul_right _ t.headerSpace_le).trans_lt (by decide)
  simp [replayTiming, timingInfo, Nat.mod_eq_of_lt hmark, Nat.mod_eq_of_lt hspace]

/-- What the decoder leaves of a frame whose durations it has told apart. -/
structure DecodedTicks (t : FrameTicks) (bits : List Bool) (d : IRData) : Prop where
  protocol : d.protocol = .pulseDistance
  numberOfBits : d.numberOfBits = bits.length
  timingInfo : d.distanceWidthTimingInfo = t.timingInfo
  array : ∀ j ≤ (bits.length - 1) / 32,
    d.decodedRawDataArray[j]? = some (chunkWord j (bitsRead bits))

theorem PulseDistanceTicks.decodeDistanceWidth (h : PulseDistanceTicks p t bits)
    (hmin : 8 ≤ bits.length) (hlen : bits.length < 256) (hone : true ∈ bits.dropLast)
    (hzero : false ∈ bits.dropLast) :
    ∃ s', decodeDistanceWidth p s = some (true, s') ∧ DecodedTicks t bits s'.decodedIRData := by
  have hrawlen := h.rawlen
  have hlong : 0 < t.long := Nat.lt_of_lt_of_le (by decide) t.le_long
  have hnumber : distanceWidthBits p.rawlen (t.mark, 0) (t.short, t.long) = bits.length := by
    rw [distanceWidthBits, if_pos ⟨hlong, rfl⟩]
    omega
  have hcount : (bits.length - 1) / bitsInRawDataType % 256 = (bits.length - 1) / 32 := by
    simp only [bitsInRawDataType]
    omega
  have hsize : 0 + ((bits.length - 1) / 32 + 1) ≤ rawDataArraySize := by
    have hrows : rawDataArraySize = 12 := by decide
    omega
  -- the chunks hold the bits that are read
  have hread := fun j (hj : j < (bitsRead bits).length) => h.bitValue hj (t.mark * microsPerTick)
  have hbits : 32 * 0 + bits.length = (bitsRead bits).length := by rw [bitsRead_length]; omega
  obtain ⟨s₁, hdecode, hnumber₁, -, harray⟩ := decodeChunks_eq
    (s := { s with decodedIRData.numberOfBits := bits.length })
    (chunkTiming (t.mark, 0) (t.short, t.long)) hread (bitsRead_length.trans_lt hlen)
    rfl hbits (by omega) hsize
  obtain ⟨-, hprotocol, -⟩ := decodeChunks_spec (.inl (Nat.succ_pos _)) hdecode
  obtain ⟨flags, hs'⟩ := decodeDistanceWidth_frame (s := s) (by omega) (h.marks hlen (by omega))
    (h.spaces hlen hone hzero) (fun h => hlong.ne' h.2) (by rw [hnumber, hcount]; exact hdecode)
    h.headerMark h.headerSpace
  refine ⟨_, hs', hprotocol, hnumber₁, t.replayTiming_eq, fun j hj => ?_⟩
  exact harray j (Nat.zero_le j) (by omega)

/-! ### The sender on the frame -/

variable {d : IRData} {s' u : DecodeState} {repeats : ℕ} {toggle : BitVec 8}

/-- A single command of the array sender. -/
theorem midIrSendPulseDistance_eq (d : IRData) : midIrSendPulseDistance d =
    .enableIROut 38 :: .mark d.distanceWidthTimingInfo.headerMarkMicros ::
      .space d.distanceWidthTimingInfo.headerSpaceMicros ::
      (sendChunks d.distanceWidthTimingInfo.oneMarkMicros d.distanceWidthTimingInfo.oneSpaceMicros
        d.distanceWidthTimingInfo.zeroMarkMicros d.distanceWidthTimingInfo.zeroSpaceMicros
        (fun i => d.decodedRawDataArray[i]?.getD 0) protocolIsLsbFirst
        (numberOfChunks (d.numberOfBits % 256)) 0 (d.numberOfBits % 256)).1 := by
  simp only [midIrSendPulseDistance, sendPulseDistanceWidthFromArrayV2, sendFromArrayV3Loop,
    lt_irrefl, if_false, List.append_nil]

theorem numberOfChunks_eq (n : ℕ) : numberOfChunks (n % 256) = (n % 256 - 1) / 32 + 1 := by
  simp only [numberOfChunks, bitsInRawDataType]
  omega

/-- The number of bits to send is a byte. -/
theorem length_midIrSendPulseDistance_le (d : IRData) :
    (midIrSendPulseDistance d).length ≤ 2 * (d.numberOfBits % 256) + 4 := by
  rw [midIrSendPulseDistance_eq, numberOfChunks_eq, List.length_cons, List.length_cons,
    List.length_cons]
  have hbyte : d.numberOfBits % 256 < 256 := Nat.mod_lt _ (by decide)
  have hchunks : 32 * ((d.numberOfBits % 256 - 1) / 32) ≤ d.numberOfBits % 256 := by omega
  exact Nat.add_le_add_right (length_sendChunks_le _ _ _ _ _ hchunks hbyte) 3

theorem DecodedTicks.midIrSendCommon (h : DecodedTicks t bits d) (hmin : 8 ≤ bits.length)
    (hlen : bits.length < 256) :
    (midIrSendCommon d repeats toggle).1 = t.transmission (bitsRead bits) := by
  have hlength : (bitsRead bits).length = bits.length := bitsRead_length
  have hstop : stopMark (t.mark * microsPerTick) (t.mark * microsPerTick) protocolIsLsbFirst =
      [.mark (t.mark * microsPerTick)] := if_pos ⟨by decide, rfl⟩
  have harray : ∀ j, 0 ≤ j → j ≤ 0 + (bits.length - 1) / 32 →
      d.decodedRawDataArray[j]?.getD 0 = chunkWord j (bitsRead bits) := by
    intro j _ hj
    rw [h.array j (by omega)]
    rfl
  have hchunks := sendChunks_eq (k := 0) (m := (bits.length - 1) / 32) (t.mark * microsPerTick)
    (t.long * microsPerTick) (t.mark * microsPerTick) (t.short * microsPerTick)
    (hlength.trans_lt hlen) (by omega) (by omega) harray
  rw [hstop, hlength] at hchunks
  have hsend : (IrRemote.midIrSendCommon d repeats toggle).1 = midIrSendPulseDistance d := by
    simp only [IrRemote.midIrSendCommon, h.protocol]
  rw [hsend, midIrSendPulseDistance_eq, numberOfChunks_eq, h.numberOfBits, h.timingInfo,
    Nat.mod_eq_of_lt hlen, t.transmission_eq]
  exact congrArg (fun data => _ :: _ :: _ :: data) hchunks

/-! ## The frame in the chain -/

/-- The strings whose frame is sent again as it was received. Both values occur in front of
the last bit, the number of bits is a byte, and the bits behind the first 128 repeat them. -/
structure Replayed (bits : List Bool) : Prop where
  byte : bits.length < 256
  one : true ∈ bits.dropLast
  zero : false ∈ bits.dropLast
  periodic : ∀ j, 128 ≤ j → j < bits.length → bits[j]? = bits[j - 128]?

/-- A frame the other decoders refuse is left to the universal decoder and the hash. -/
theorem midIrRemoteDecode_of_refuse (hstop : p.stateForISR = .stop)
    (hov : p.overflowFlag = false)
    (h : tryDecoders specificDecoders p (irRemoteInitDecodedIRData p s) = some (false, u)) :
    midIrRemoteDecode p s =
      (tryDecoders [decodeDistanceWidth, decodeHash] p u).map fun r => (true, r.2) := by
  rw [midIrRemoteDecode_of_stop hstop hov, decoders, tryDecoders_append_of_refuse h]

/-- Bits the universal decoder tells apart are sent again as they were read. -/
theorem PulseDistanceTicks.sent (h : PulseDistanceTicks p t bits) (hmin : 8 ≤ bits.length)
    (hlen : bits.length < 256) (hone : true ∈ bits.dropLast) (hzero : false ∈ bits.dropLast)
    (hrefused : tryDecoders specificDecoders p (irRemoteInitDecodedIRData p s) = some (false, u)) :
    ∃ s', midIrRemoteDecode p s = some (true, s') ∧ DecodedTicks t bits s'.decodedIRData := by
  obtain ⟨s', hs', hticks⟩ := h.decodeDistanceWidth (s := u) hmin hlen hone hzero
  refine ⟨s', ?_, hticks⟩
  rw [midIrRemoteDecode_of_refuse h.stopped h.overflowFlag hrefused,
    tryDecoders_cons_of_accept hs']
  rfl

/-- A frame with one duration of spaces in front of the last is only hashed. -/
theorem PulseDistanceTicks.hashed (h : PulseDistanceTicks p t bits) (hmin : 8 ≤ bits.length)
    (hlen : bits.length < 256) (hboth : ¬(true ∈ bits.dropLast ∧ false ∈ bits.dropLast))
    (hrefused : tryDecoders specificDecoders p (irRemoteInitDecodedIRData p s) = some (false, u)) :
    ∃ s', midIrRemoteDecode p s = some (true, s') ∧ s'.decodedIRData.protocol = .unknown := by
  have hrawlen := h.rawlen
  have hbuf := IrParams.lt_of_raw (h.mark bits.length le_rfl)
  obtain ⟨b, hspaces⟩ := h.spaces_single hlen (by omega) hboth
  obtain ⟨v, hv⟩ : ∃ v, IrRemote.decodeDistanceWidth p u = some (false, v) :=
    ⟨_, decodeDistanceWidth_refuse (by omega) (h.marks hlen (by omega)) hspaces ⟨rfl, rfl⟩⟩
  obtain ⟨s', hs', hunknown⟩ := exists_decodeHash v (show 6 ≤ p.rawlen by omega) (by omega)
  refine ⟨s', ?_, hunknown⟩
  rw [midIrRemoteDecode_of_refuse h.stopped h.overflowFlag hrefused,
    tryDecoders_cons_of_refuse hv, tryDecoders_cons_of_accept hs']
  rfl

/-- A frame the other decoders refuse is decoded as pulse distance and sent again as it was
received exactly when its bits are of this kind. -/
theorem universal_replay (h : PulseDistanceTicks p t bits) (hmin : 8 ≤ bits.length)
    (hrefused : ∃ u, tryDecoders specificDecoders p (irRemoteInitDecodedIRData p s) =
      some (false, u)) :
    (∃ s', midIrRemoteDecode p s = some (true, s') ∧
      s'.decodedIRData.protocol = .pulseDistance ∧
      s'.decodedIRData.numberOfBits = bits.length ∧
      ∀ repeats toggle,
        (midIrSendCommon s'.decodedIRData repeats toggle).1 = t.transmission bits) ↔
      Replayed bits := by
  obtain ⟨u, hrefused⟩ := hrefused
  constructor
  · rintro ⟨s', hs', hprotocol, hnumber, hsent⟩
    have hlen : bits.length < 256 := by
      by_contra hlong
      -- the transmission is too short
      have hle := length_midIrSendPulseDistance_le s'.decodedIRData
      have hlength := congrArg List.length (hsent 0 0)
      simp only [IrRemote.midIrSendCommon, hprotocol, t.length_transmission] at hlength
      omega
    by_cases hboth : true ∈ bits.dropLast ∧ false ∈ bits.dropLast
    · obtain ⟨hone, hzero⟩ := hboth
      obtain ⟨v, hv, hticks⟩ := h.sent hmin hlen hone hzero hrefused
      obtain ⟨-, rfl⟩ := Prod.mk.inj (Option.some.inj (hv.symm.trans hs'))
      have hread := hsent 0 0
      rw [hticks.midIrSendCommon hmin hlen, FrameTicks.transmission_inj] at hread
      exact ⟨hlen, hone, hzero, (bitsRead_eq_iff hlen).mp hread⟩
    · obtain ⟨v, hv, hunknown⟩ := h.hashed hmin hlen hboth hrefused
      obtain ⟨-, rfl⟩ := Prod.mk.inj (Option.some.inj (hv.symm.trans hs'))
      rw [hprotocol] at hunknown
      cases hunknown
  · intro hbits
    obtain ⟨s', hs', hticks⟩ := h.sent hmin hbits.byte hbits.one hbits.zero hrefused
    refine ⟨s', hs', hticks.protocol, hticks.numberOfBits, fun repeats toggle => ?_⟩
    rw [hticks.midIrSendCommon hmin hbits.byte, (bitsRead_eq_iff hbits.byte).mpr hbits.periodic]

/-! ## Frames the receiver records -/

/-- The marks and the spaces of a frame. -/
def FrameTicks.marks (t : FrameTicks) (bits : List Bool) : List ℕ :=
  t.headerMark :: List.replicate (bits.length + 1) t.mark

def FrameTicks.spaces (t : FrameTicks) (bits : List Bool) : List ℕ :=
  t.headerSpace :: bits.map t.space

theorem Captured.pulseDistanceTicks (h : Captured p (t.marks bits) (t.spaces bits)) :
    PulseDistanceTicks p t bits where
  stopped := h.stopped
  overflowFlag := h.overflowFlag
  rawlen := by
    rw [h.rawlen, FrameTicks.marks, List.length_cons, List.length_replicate]
    omega
  -- a mark is counted in 16 bits, and none of these is longer
  headerMark := by
    have hle : t.headerMark ≤ uint16MaxCustom := t.headerMark_le.trans (by decide)
    have hmark := h.mark 0 (Nat.succ_pos _)
    simp only [FrameTicks.marks, List.getElem_cons_zero, Nat.min_eq_left hle] at hmark
    exact hmark
  headerSpace := h.space 0 (Nat.succ_pos _)
  mark j hj := by
    have hle : t.mark ≤ uint16MaxCustom := t.mark_lt.le.trans (by decide)
    have hlength : j + 1 < (t.marks bits).length := by
      rw [FrameTicks.marks, List.length_cons, List.length_replicate]
      omega
    have hmark := h.mark (j + 1) hlength
    simp only [FrameTicks.marks, List.getElem_cons_succ, List.getElem_replicate,
      Nat.min_eq_left hle] at hmark
    rw [Nat.add_comm 3]
    exact hmark
  space j hj := by
    have hlength : j + 1 < (t.spaces bits).length := by
      rw [FrameTicks.spaces, List.length_cons, List.length_map]
      omega
    have hspace := h.space (j + 1) hlength
    simp only [FrameTicks.spaces, List.getElem_cons_succ, List.getElem_map] at hspace
    rw [Nat.add_comm 3]
    exact hspace

/-- The decoders in front of the universal one refuse a frame with a long header mark that
has none of their lengths. -/
theorem specificDecoders_refuse {headerMark : ℕ} (hread : p.raw 1 = some headerMark)
    (hmark : 69 ≤ headerMark) (hlong : 44 ≤ p.rawlen) (hlen : p.rawlen ∉ [60, 68, 100, 112])
    (s : DecodeState) : ∃ u, tryDecoders specificDecoders p s = some (false, u) := by
  simp only [List.mem_cons, List.not_mem_nil, or_false, not_or] at hlen
  have hunknown : p.rawlen ∉ [4, 6, 34, 36, 60, 68, 100, 112] := by
    simp only [List.mem_cons, List.not_mem_nil, or_false, not_or]
    omega
  rw [tryDecoders_of_long_mark (decodeNec_of_rawlen (by omega) (by omega))
    (decodeKaseikyo_of_rawlen (by omega)) hread hmark (by omega) (by omega),
    tryDecoders_of_rawlen hunknown]
  exact ⟨_, rfl⟩

theorem PulseDistanceTicks.refused (h : PulseDistanceTicks p t bits) (hmark : 69 ≤ t.headerMark)
    (hlong : 20 ≤ bits.length) (hlen : bits.length ∉ [28, 32, 48, 54]) (s : DecodeState) :
    ∃ u, tryDecoders specificDecoders p s = some (false, u) := by
  have hrawlen := h.rawlen
  apply specificDecoders_refuse h.headerMark hmark (by omega)
  simp only [List.mem_cons, List.not_mem_nil, or_false, not_or] at hlen ⊢
  omega

/-- A header no other protocol has. -/
def sampleTicks : FrameTicks where
  headerMark := 100
  headerSpace := 50
  mark := 10
  short := 10
  long := 30
  headerMark_le := by decide
  headerSpace_le := by decide
  mark_lt := by decide
  short_pos := by decide
  two_mul_short_le := by decide
  le_long := by decide
  long_lt := by decide

/-- The receiver can record every frame with this header that fits the buffer. -/
theorem exists_sampleFrame (bits : List Bool) (hfits : 2 * bits.length + 4 ≤ rawBufferLength) :
    ∃ p, ReachableReceiver p ∧ PulseDistanceTicks p sampleTicks bits := by
  have hmarks : ∀ m ∈ sampleTicks.marks bits, 1 ≤ m := by
    refine List.forall_mem_cons.mpr ⟨by decide, fun m hm => ?_⟩
    rw [List.eq_of_mem_replicate hm]
    decide
  have hspaces : ∀ u ∈ sampleTicks.spaces bits, 1 ≤ u ∧ u ≤ recordGapTicks := by
    refine List.forall_mem_cons.mpr ⟨by decide, fun u hu => ?_⟩
    obtain ⟨b, -, rfl⟩ := List.mem_map.mp hu
    cases b <;> decide
  have hmarksLength : (sampleTicks.marks bits).length = bits.length + 2 := by
    rw [FrameTicks.marks, List.length_cons, List.length_replicate]
  have hspacesLength : (sampleTicks.spaces bits).length = bits.length + 1 := by
    rw [FrameTicks.spaces, List.length_cons, List.length_map]
  obtain ⟨p, hp, hcaptured⟩ := exists_reachable_captured hmarks hspaces (by omega) (by omega)
  exact ⟨p, hp, hcaptured.pulseDistanceTicks⟩

/-- Bits that alternate are sent again. -/
theorem universal_replay_alternating : ∃ p s', ReachableReceiver p ∧
    PulseDistanceTicks p sampleTicks (List.replicate 20 [true, false]).flatten ∧
    midIrRemoteDecode p .zero = some (true, s') ∧
    (midIrSendCommon s'.decodedIRData 0 initialSendToggleValue).1 =
      sampleTicks.transmission (List.replicate 20 [true, false]).flatten := by
  obtain ⟨p, hp, hframe⟩ := exists_sampleFrame (List.replicate 20 [true, false]).flatten (by decide)
  have hbits : Replayed (List.replicate 20 [true, false]).flatten :=
    ⟨by decide, by decide, by decide, fun j hle hj => absurd hj (by simp; omega)⟩
  obtain ⟨s', hs', -, -, hsent⟩ :=
    (universal_replay hframe (by decide) (hframe.refused (by decide) (by decide) (by decide)
      (irRemoteInitDecodedIRData p .zero))).mpr hbits
  exact ⟨p, s', hp, hframe, hs', hsent 0 initialSendToggleValue⟩

/-- A frame whose only one is its last bit is not decoded as pulse distance. -/
theorem universal_replay_last_one : ∃ p u s', ReachableReceiver p ∧
    PulseDistanceTicks p sampleTicks (List.replicate 23 false ++ [true]) ∧
    tryDecoders specificDecoders p (irRemoteInitDecodedIRData p .zero) = some (false, u) ∧
    midIrRemoteDecode p .zero = some (true, s') ∧ s'.decodedIRData.protocol ≠ .pulseDistance := by
  obtain ⟨p, hp, hframe⟩ := exists_sampleFrame (List.replicate 23 false ++ [true]) (by decide)
  obtain ⟨u, hu⟩ := hframe.refused (by decide) (by decide) (by decide)
    (irRemoteInitDecodedIRData p .zero)
  obtain ⟨s', hs', hunknown⟩ := hframe.hashed (by decide) (by decide) (by decide) hu
  refine ⟨p, u, s', hp, hframe, hu, hs', ?_⟩
  rw [hunknown]
  decide

end IrRemote
