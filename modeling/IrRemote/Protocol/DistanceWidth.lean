import IrRemote.Mid.Matching
import Mathlib.Algebra.BigOperators.Intervals
import Mathlib.Algebra.Order.BigOperators.Group.Finset

/-!
# The universal decoder

`Ir_DistanceWidthProtocol.c`: a frame no other decoder knows is decoded by the
durations that occur in it. The marks and the spaces are counted, neighbouring counts
are aggregated to at most two durations, and the bits are decoded in chunks of 32 with
the two durations as the timing of the protocol.

## Main definitions

* `countDurations` — the histogram of the marks or the spaces
* `aggregateArrayCounts` — the durations of a histogram
* `decodeChunks` — the bits, chunk by chunk
* `decodeDistanceWidth` — the decoder

## Main results

* `SameFrame.decodeDistanceWidth` — what it reads
* `decodeDistanceWidth_ensures` — the two protocols it decodes
-/

set_option autoImplicit false

namespace IrRemote

/-- `DURATION_ARRAY_SIZE`. -/
def durationArraySize : ℕ := 50

/-- `DISTANCE_WIDTH_MAXIMUM_REPEAT_DISTANCE_MICROS`. -/
def distanceWidthMaximumRepeatDistanceMicros : ℕ := 100000

/-! ## Histograms -/

/-- `tDurationArray`: a byte for every number of ticks. -/
abbrev DurationArray := ℕ → ℕ

/-- The array after `memset`. -/
def DurationArray.zero : DurationArray := fun _ => 0

/-- The counting loop, over the entries still to count, from index `i` in steps of two.
A duration outside the array gives no histogram. -/
def countDurationsFrom (irparams : IrParams) :
    ℕ → ℕ → DurationArray → ℕ → Option (Option (DurationArray × ℕ))
  | 0, _, tDurationArray, tIndexOfMaxDuration => some (some (tDurationArray, tIndexOfMaxDuration))
  | n + 1, i, tDurationArray, tIndexOfMaxDuration => do
    let tDurationTicks ← irparams.raw i
    if tDurationTicks < durationArraySize then
      countDurationsFrom irparams n (i + 2)
        (Function.update tDurationArray tDurationTicks ((tDurationArray tDurationTicks + 1) % 256))
        (if tIndexOfMaxDuration < tDurationTicks then tDurationTicks else tIndexOfMaxDuration)
    else return none

/-- `for (i = start; i < rawlen - 2; i += 2)`: the trailing stop bit is skipped. -/
def countDurations (irparams : IrParams) (start : ℕ) : Option (Option (DurationArray × ℕ)) :=
  countDurationsFrom irparams ((irparams.rawlen - 2 - start + 1) / 2) start .zero 0

/-- The loop of `aggregateArrayCounts`, over the indices still to visit; the last one is
`aMaxIndex`. A third duration gives no result, and a write outside the array is undefined. -/
def aggregateFrom : ℕ → ℕ → DurationArray → ℕ → ℕ → ℕ → ℕ → Option (Option (ℕ × ℕ))
  | 0, _, _, _, _, aShortIndex, aLongIndex => some (some (aShortIndex, aLongIndex))
  | n + 1, i, aArray, tSum, tWeightedSum, aShortIndex, aLongIndex =>
    let tCurrentDurations := aArray i
    -- add it to sum and remove array content
    let tSum := (tSum + tCurrentDurations) % 256
    let tWeightedSum := (tWeightedSum + tCurrentDurations * i) % 65536
    let aArray := Function.update aArray i 0
    if (tCurrentDurations = 0 ∨ n = 0) ∧ tSum ≠ 0 then
      -- here we have a sum and a gap after the values
      let tAggregateIndex := ((tWeightedSum + tSum / 2) / tSum) % 256
      if tAggregateIndex < durationArraySize then
        let aArray := Function.update aArray tAggregateIndex tSum
        if aShortIndex = 0 then aggregateFrom n (i + 1) aArray 0 0 tAggregateIndex aLongIndex
        else if aLongIndex = 0 then aggregateFrom n (i + 1) aArray 0 0 aShortIndex tAggregateIndex
        else some none
      else none
    else aggregateFrom n (i + 1) aArray tSum tWeightedSum aShortIndex aLongIndex

/-- `aggregateArrayCounts`, with both indices cleared: the short and the long duration. -/
def aggregateArrayCounts (aArray : DurationArray) (aMaxIndex : ℕ) : Option (Option (ℕ × ℕ)) :=
  aggregateFrom (aMaxIndex + 1) 0 aArray 0 0 0 0

/-- The short and the long duration of the entries from `start` on in steps of two. -/
def durations (irparams : IrParams) (start : ℕ) : Option (Option (ℕ × ℕ)) := do
  match ← countDurations irparams start with
  | none => return none
  | some (tDurationArray, tIndexOfMaxDuration) =>
    aggregateArrayCounts tDurationArray tIndexOfMaxDuration

/-! ## The decoder -/

/-- How the chunks are decoded. -/
structure ChunkTiming where
  protocol : DecodeType
  oneMarkMicros : ℕ
  zeroMarkMicros : ℕ
  oneSpaceMicros : ℕ
  deriving DecidableEq, Repr

/-- Short and long mark durations make a pulse width protocol, otherwise short and long
space durations a pulse distance protocol. -/
def chunkTiming (mark space : ℕ × ℕ) : ChunkTiming :=
  if 0 < mark.2 then
    { protocol := .pulseWidth
      oneMarkMicros := mark.2 * microsPerTick
      zeroMarkMicros := mark.1 * microsPerTick
      oneSpaceMicros := space.1 * microsPerTick }
  else
    { protocol := .pulseDistance
      oneMarkMicros := mark.1 * microsPerTick
      zeroMarkMicros := mark.1 * microsPerTick
      oneSpaceMicros := space.2 * microsPerTick }

/-- `decodedRawDataArray[i] = decodedRawData`; `none` outside the array. -/
def storeChunk (i : ℕ) (s : DecodeState) : Option DecodeState :=
  if h : i < rawDataArraySize then
    some { s with
      decodedIRData.decodedRawDataArray :=
        s.decodedIRData.decodedRawDataArray.set i s.decodedIRData.decodedRawData h }
  else none

/-- `tNumberOfBitsForOneDecode`, a byte: only the last chunk can contain less than 32 bits. -/
def numberOfBitsForOneDecode (tNumberOfBits : ℕ) : ℕ :=
  let tNumberOfBitsForOneDecode := tNumberOfBits % 256
  if bitsInRawDataType < tNumberOfBitsForOneDecode then bitsInRawDataType
  else tNumberOfBitsForOneDecode

/-- The chunk loop of `decodeDistanceWidth`, over the chunks still to decode. The start
index is a byte. -/
def decodeChunks (timing : ChunkTiming) (irparams : IrParams) :
    ℕ → ℕ → ℕ → ℕ → Attempt DecodeState
  | 0, _, _, _, s => some (true, s)
  | n + 1, i, tStartIndex, tNumberOfBits, s => do
    let (decoded, s) ← decodePulseDistanceWidthData (numberOfBitsForOneDecode tNumberOfBits)
      tStartIndex timing.oneMarkMicros timing.zeroMarkMicros timing.oneSpaceMicros false irparams
      { s with decodedIRData.protocol := timing.protocol }
    if !decoded then
      return (false, s)
    let s ← storeChunk i s
    decodeChunks timing irparams n (i + 1) ((tStartIndex + 2 * bitsInRawDataType) % 256)
      ((tNumberOfBits + 65536 - bitsInRawDataType) % 65536) s

/-- The timing data that reproduce the frame for sending. -/
def replayTiming (headerMark headerSpace : ℕ) (mark space : ℕ × ℕ) : DistanceWidthTimingInfo where
  headerMarkMicros := headerMark * microsPerTick % 65536
  headerSpaceMicros := headerSpace * microsPerTick % 65536
  zeroMarkMicros := mark.1 * microsPerTick
  zeroSpaceMicros :=
    -- assume long space for zero when we have pulse distance width
    if mark.2 ≠ 0 ∧ space.2 ≠ 0 then space.2 * microsPerTick else space.1 * microsPerTick
  oneMarkMicros := if mark.2 ≠ 0 then mark.2 * microsPerTick else mark.1 * microsPerTick
  oneSpaceMicros := if mark.2 ≠ 0 then space.1 * microsPerTick else space.2 * microsPerTick

/-- The number of bits of a frame. A stop bit is mandatory for pulse distance and not
required for pulse width. -/
def distanceWidthBits (rawlen : ℕ) (mark space : ℕ × ℕ) : ℕ :=
  if 0 < space.2 ∧ mark.2 = 0 then rawlen / 2 - 1 - 1 else rawlen / 2 - 1

/-- `decodeDistanceWidth`. -/
def decodeDistanceWidth : Decoder := fun irparams s => do
  -- accept only protocols with at least 8 bits
  if irparams.rawlen < 2 * 8 + 4 then
    return (false, s)
  match ← durations irparams 3 with
  | none => return (false, s)
  | some mark =>
    match ← durations irparams 4 with
    | none => return (false, s)
    | some space =>
      let tNumberOfBits := distanceWidthBits irparams.rawlen mark space
      let s := { s with decodedIRData.numberOfBits := tNumberOfBits }
      -- only 1 distinct duration value for each space and mark found
      if mark.2 = 0 ∧ space.2 = 0 then
        return (false, s)
      let tNumberOfAdditionalArrayValues := (tNumberOfBits - 1) / bitsInRawDataType % 256
      let (decoded, s) ← decodeChunks (chunkTiming mark space) irparams
        (tNumberOfAdditionalArrayValues + 1) 0 3 tNumberOfBits s
      if !decoded then
        return (false, s)
      let s ← checkForRepeatSpaceTicksAndSetFlag
        (distanceWidthMaximumRepeatDistanceMicros / microsPerTick) irparams s
      let headerMark ← irparams.raw 1
      let headerSpace ← irparams.raw 2
      return (true, { s with
        decodedIRData.distanceWidthTimingInfo := replayTiming headerMark headerSpace mark space })

/-! ## Aggregation -/

section Aggregation

variable {array : DurationArray} {n i tSum tWeightedSum short long : ℕ} {r : ℕ × ℕ}

/-- The weighted mean of a cluster lies between the indices that bound the cluster. -/
theorem mean_bounds {lo : ℕ} (hsum : tSum ≠ 0) (hlo : lo * tSum ≤ tWeightedSum)
    (hhi : tWeightedSum ≤ i * tSum) :
    lo ≤ (tWeightedSum + tSum / 2) / tSum ∧ (tWeightedSum + tSum / 2) / tSum ≤ i := by
  have hpos : 0 < tSum := Nat.pos_of_ne_zero hsum
  constructor
  · rw [Nat.le_div_iff_mul_le hpos]
    omega
  · rw [← Nat.lt_succ_iff, Nat.div_lt_iff_lt_mul hpos, Nat.succ_mul]
    omega

/-- A long duration is longer than the short one, as long as no sum of counts wraps: the
clusters are visited in ascending order, and the mean of one stays inside it. -/
theorem aggregateFrom_lt (hsum : tSum + ∑ j ∈ Finset.Ico i (i + n), array j < 256)
    (hi : i + n ≤ durationArraySize) (hhi : tWeightedSum ≤ i * tSum)
    (hshort : short = 0 ∨ short < i ∧ (short + 1) * tSum ≤ tWeightedSum)
    (hlong : long = 0 ∨ 0 < short ∧ short < long)
    (h : aggregateFrom n i array tSum tWeightedSum short long = some (some r)) :
    r.2 = 0 ∨ r.1 < r.2 := by
  induction n generalizing i array tSum tWeightedSum short long with
  | zero =>
    obtain rfl : (short, long) = r := by simpa [aggregateFrom] using h
    exact hlong.imp_right And.right
  | succ n ih =>
    rw [Finset.sum_eq_sum_Ico_succ_bot (by omega), show i + (n + 1) = i + 1 + n by omega] at hsum
    have hi' : i < 50 := by simp only [durationArraySize] at hi; omega
    -- the sums with the current count, which do not wrap
    have hcount : (tSum + array i) % 256 = tSum + array i := Nat.mod_eq_of_lt (by omega)
    have hupper : tWeightedSum + array i * i ≤ i * (tSum + array i) := by
      rw [Nat.mul_add, Nat.mul_comm (array i)]
      omega
    have hweight : (tWeightedSum + array i * i) % 65536 = tWeightedSum + array i * i :=
      Nat.mod_eq_of_lt <| lt_of_le_of_lt
        (hupper.trans (Nat.mul_le_mul (show i ≤ 50 by omega) (show _ ≤ 256 by omega))) (by omega)
    have hupper' : tWeightedSum + array i * i ≤ (i + 1) * (tSum + array i) :=
      hupper.trans (Nat.mul_le_mul_right _ (Nat.le_succ i))
    have hlower : short = 0 ∨ short < i ∧
        (short + 1) * (tSum + array i) ≤ tWeightedSum + array i * i := by
      rcases hshort with hshort | ⟨hlt, hlo⟩
      · exact .inl hshort
      · refine .inr ⟨hlt, ?_⟩
        rw [Nat.mul_add, Nat.mul_comm (array i)]
        exact Nat.add_le_add hlo (Nat.mul_le_mul_right _ hlt)
    simp only [aggregateFrom, hcount, hweight] at h
    -- what is stored at or below the current index is never visited again
    have hrest : ∀ k ≤ i, ∀ (v : ℕ) (a : DurationArray), ∑ j ∈ Finset.Ico (i + 1) (i + 1 + n),
        Function.update a k v j = ∑ j ∈ Finset.Ico (i + 1) (i + 1 + n), a j := fun k hk v a =>
      Finset.sum_congr rfl fun j hj =>
        Function.update_of_ne (by have := Finset.mem_Ico.mp hj; omega) ..
    split_ifs at h with hclose hsize hfirst hsecond
    · -- the first cluster ends
      obtain ⟨-, hle⟩ := mean_bounds hclose.2 (Nat.zero_mul _ ▸ Nat.zero_le _) hupper
      rw [Nat.mod_eq_of_lt (by omega)] at h
      refine ih ?_ (by omega) (by omega) (.inr ⟨by omega, by omega⟩) (.inl ?_) h
      · rw [hrest _ hle, hrest i le_rfl]
        omega
      · omega
    · -- the second cluster ends
      obtain ⟨hlt, hlo⟩ := hlower.resolve_left hfirst
      obtain ⟨hge, hle⟩ := mean_bounds hclose.2 hlo hupper
      rw [Nat.mod_eq_of_lt (by omega)] at h
      refine ih ?_ (by omega) (by omega) (.inr ⟨by omega, by omega⟩) (.inr ⟨by omega, hge⟩) h
      rw [hrest _ hle, hrest i le_rfl]
      omega
    · -- a third cluster ends
      simp at h
    · -- no cluster ends here
      refine ih ?_ (by omega) hupper' (hlower.imp_right fun h => ⟨by omega, h.2⟩) hlong h
      rw [hrest i le_rfl]
      omega

/-- Counting one more entry adds at most one to the counts. -/
theorem sum_update_succ_le (array : DurationArray) (t : ℕ) :
    ∑ j ∈ Finset.range durationArraySize,
        Function.update array t ((array t + 1) % 256) j ≤
      (∑ j ∈ Finset.range durationArraySize, array j) + 1 := by
  by_cases ht : t ∈ Finset.range durationArraySize
  · rw [Finset.sum_update_of_mem ht, Finset.sum_eq_add_sum_sdiff_singleton_of_mem ht array]
    omega
  · rw [Finset.sum_update_of_notMem ht]
    omega

/-- The counts sum to at most the number of entries counted, and no index is larger
than the largest one. -/
theorem countDurationsFrom_spec {p : IrParams} {max : ℕ} {c : DurationArray × ℕ}
    (hmax : max < durationArraySize)
    (h : countDurationsFrom p n i array max = some (some c)) :
    ∑ j ∈ Finset.range durationArraySize, c.1 j ≤
      (∑ j ∈ Finset.range durationArraySize, array j) + n ∧ c.2 < durationArraySize := by
  induction n generalizing i array max with
  | zero =>
    obtain rfl : (array, max) = c := by simpa [countDurationsFrom] using h
    exact ⟨(Nat.add_zero _).ge, hmax⟩
  | succ n ih =>
    rw [countDurationsFrom, Option.bind_eq_bind, Option.bind_eq_some_iff] at h
    obtain ⟨t, -, h⟩ := h
    by_cases ht : t < durationArraySize
    · rw [if_pos ht] at h
      obtain ⟨hsum, hidx⟩ := ih (by split_ifs <;> assumption) h
      have := sum_update_succ_le array t
      exact ⟨by omega, hidx⟩
    · rw [if_neg ht] at h
      cases h

theorem durations_lt {p : IrParams} {start : ℕ} (hlen : p.rawlen < 512)
    (h : durations p start = some (some r)) : r.2 = 0 ∨ r.1 < r.2 := by
  rw [durations, Option.bind_eq_bind, Option.bind_eq_some_iff] at h
  obtain ⟨c, hc, h⟩ := h
  cases c with
  | none => simp at h
  | some c =>
    obtain ⟨hsum, hidx⟩ := countDurationsFrom_spec (by decide) hc
    have hle : ∑ j ∈ Finset.Ico 0 (0 + (c.2 + 1)), c.1 j ≤
        ∑ j ∈ Finset.range durationArraySize, c.1 j :=
      Finset.sum_le_sum_of_subset fun j hj => by
        rw [Finset.mem_Ico] at hj
        exact Finset.mem_range.mpr (by omega)
    have hzero : ∑ j ∈ Finset.range durationArraySize, DurationArray.zero j = 0 := by
      simp [DurationArray.zero]
    exact aggregateFrom_lt (by omega) (by omega) (by simp) (.inl rfl) (.inl rfl) h

end Aggregation

/-! ## What the decoder does -/

variable {p q : IrParams} {s : DecodeState} {mark space : ℕ × ℕ} {n i : ℕ}

theorem SameFrame.countDurationsFrom (h : SameFrame p q) (hlen : i + 2 * n ≤ p.rawlen + 1)
    (array : DurationArray) (max : ℕ) :
    countDurationsFrom p n i array max = countDurationsFrom q n i array max := by
  induction n generalizing i array max with
  | zero => rfl
  | succ n ih =>
    simp only [IrRemote.countDurationsFrom, h.raw i (by omega),
      ih (i := i + 2) (by omega)]

theorem SameFrame.durations (h : SameFrame p q) {start : ℕ} (hlen : start + 1 ≤ p.rawlen) :
    durations p start = durations q start := by
  simp only [IrRemote.durations, countDurations, ← h.rawlen,
    h.countDurationsFrom (i := start) (n := (p.rawlen - 2 - start + 1) / 2) (by omega)]

theorem numberOfBitsForOneDecode_le (bits : ℕ) :
    numberOfBitsForOneDecode bits ≤ 32 ∧ numberOfBitsForOneDecode bits ≤ bits := by
  unfold numberOfBitsForOneDecode bitsInRawDataType
  dsimp only
  split_ifs <;> omega

/-- The start indices wrap, so the chunks of a long frame stay inside it, and those of
a short frame stay in front of its end. -/
theorem SameFrame.decodeChunks (h : SameFrame p q) {timing : ChunkTiming} {start bits : ℕ}
    (hstart : start ≤ 3 + 64 * i) (hwrap : start < 256) (hbits : bits < 65536)
    (hchunks : 32 * n < bits + 32)
    (hlen : 319 ≤ p.rawlen ∨ 3 + 64 * i + 2 * bits ≤ p.rawlen ∨
      timing.oneMarkMicros ≠ timing.zeroMarkMicros ∧ 3 + 64 * i + 2 * bits ≤ p.rawlen + 1) :
    decodeChunks timing p n i start bits s = decodeChunks timing q n i start bits s := by
  induction n generalizing i start bits s with
  | zero => rfl
  | succ n ih =>
    have hread : ∀ s, IrRemote.decodePulseDistanceWidthData (numberOfBitsForOneDecode bits) start
        timing.oneMarkMicros timing.zeroMarkMicros timing.oneSpaceMicros false p s =
      IrRemote.decodePulseDistanceWidthData (numberOfBitsForOneDecode bits) start
        timing.oneMarkMicros timing.zeroMarkMicros timing.oneSpaceMicros false q s := by
      intro s
      obtain ⟨h32, hbits⟩ := numberOfBitsForOneDecode_le bits
      apply h.decodePulseDistanceWidthData
      omega
    simp only [IrRemote.decodeChunks, hread]
    -- the last chunk has no successor, and the chunks in front of it are full
    rcases n with _ | n
    · rfl
    · refine Option.bind_congr fun _ _ => ?_
      split_ifs
      · rfl
      · refine Option.bind_congr fun s _ => ih ?_ ?_ ?_ ?_ ?_ <;>
          simp only [bitsInRawDataType] <;> omega

/-- Whatever the receiver recorded, the universal decoder does not read behind it. -/
theorem SameFrame.decodeDistanceWidth (h : SameFrame p q) (hlen : p.rawlen ≤ rawBufferLength) :
    decodeDistanceWidth p s = decodeDistanceWidth q s := by
  simp only [rawBufferLength] at hlen
  simp only [IrRemote.decodeDistanceWidth, ← h.rawlen]
  split_ifs with hshort
  · rfl
  rw [← h.durations (show 3 + 1 ≤ p.rawlen by omega),
    ← h.durations (show 4 + 1 ≤ p.rawlen by omega)]
  refine Option.bind_congr fun mark hmark => ?_
  rcases mark with _ | mark
  · rfl
  refine Option.bind_congr fun space hspace => ?_
  rcases space with _ | space
  · rfl
  dsimp only
  split_ifs with hone
  · rfl
  have hbits : distanceWidthBits p.rawlen mark space ≤ p.rawlen / 2 - 1 ∧
      (mark.2 = 0 → distanceWidthBits p.rawlen mark space ≤ p.rawlen / 2 - 2) := by
    unfold distanceWidthBits
    split_ifs <;> omega
  -- the two marks of a pulse width protocol differ, unless the counts have wrapped
  have htiming : 319 ≤ p.rawlen ∨ mark.2 = 0 ∨
      (chunkTiming mark space).oneMarkMicros ≠ (chunkTiming mark space).zeroMarkMicros := by
    rcases lt_or_ge p.rawlen 319 with hlt | hge
    · rcases durations_lt (by omega) hmark with hzero | hlt
      · exact .inr (.inl hzero)
      · refine .inr (.inr ?_)
        simp only [chunkTiming, if_pos (show 0 < mark.2 by omega), microsPerTick]
        omega
    · exact .inl hge
  have hchunks : ∀ s : DecodeState, IrRemote.decodeChunks (chunkTiming mark space) p
      ((distanceWidthBits p.rawlen mark space - 1) / bitsInRawDataType % 256 + 1) 0 3
      (distanceWidthBits p.rawlen mark space) s = IrRemote.decodeChunks (chunkTiming mark space) q
      ((distanceWidthBits p.rawlen mark space - 1) / bitsInRawDataType % 256 + 1) 0 3
      (distanceWidthBits p.rawlen mark space) s := by
    intro s
    have hpos : 0 < distanceWidthBits p.rawlen mark space := by
      unfold distanceWidthBits
      split_ifs <;> omega
    unfold bitsInRawDataType
    apply h.decodeChunks <;> omega
  simp only [hchunks, h.checkForRepeatSpaceTicksAndSetFlag (by omega), h.raw 1 (by omega),
    h.raw 2 (by omega)]

/-- The chunks are always decoded, and leave the protocol of their timing. -/
theorem decodeChunks_spec {timing : ChunkTiming} {start bits : ℕ} {b : Bool} {s' : DecodeState}
    (hprotocol : 0 < n ∨ s.decodedIRData.protocol = timing.protocol)
    (h : decodeChunks timing p n i start bits s = some (b, s')) :
    b = true ∧ s'.decodedIRData.protocol = timing.protocol ∧
      s'.decodedIRData.numberOfBits = s.decodedIRData.numberOfBits := by
  induction n generalizing i start bits s with
  | zero =>
    obtain ⟨rfl, rfl⟩ := Prod.mk.inj (Option.some.inj h)
    exact ⟨rfl, hprotocol.resolve_left (lt_irrefl 0), rfl⟩
  | succ n ih =>
    obtain ⟨⟨decoded, u⟩, hu, h⟩ := Option.bind_eq_some_iff.mp h
    obtain ⟨rfl, data, -, rfl⟩ := decodePulseDistanceWidthData_spec hu
    obtain ⟨u, hstore, h⟩ := Option.bind_eq_some_iff.mp h
    unfold storeChunk at hstore
    split_ifs at hstore
    obtain rfl := Option.some.inj hstore
    have hrest := ih (.inr rfl) h
    exact hrest

section Frame

variable {s' : DecodeState} {headerMark headerSpace : ℕ}

/-- One duration of marks and one of spaces carry no bits. -/
theorem decodeDistanceWidth_refuse (hlen : 20 ≤ p.rawlen)
    (hmark : durations p 3 = some (some mark)) (hspace : durations p 4 = some (some space))
    (hone : mark.2 = 0 ∧ space.2 = 0) :
    decodeDistanceWidth p s = some (false, { s with
      decodedIRData.numberOfBits := distanceWidthBits p.rawlen mark space }) := by
  have hshort : ¬p.rawlen < 2 * 8 + 4 := Nat.not_lt.mpr hlen
  simp only [decodeDistanceWidth, if_neg hshort, hmark, hspace, if_pos hone, Option.bind_eq_bind,
    Option.bind_some]
  rfl

/-- Any other frame is decoded in chunks, with the timing of its durations. -/
theorem decodeDistanceWidth_frame (hlen : 20 ≤ p.rawlen)
    (hmark : durations p 3 = some (some mark)) (hspace : durations p 4 = some (some space))
    (htwo : ¬(mark.2 = 0 ∧ space.2 = 0))
    (hchunks : decodeChunks (chunkTiming mark space) p
      ((distanceWidthBits p.rawlen mark space - 1) / bitsInRawDataType % 256 + 1) 0 3
      (distanceWidthBits p.rawlen mark space) { s with
        decodedIRData.numberOfBits := distanceWidthBits p.rawlen mark space } = some (true, s'))
    (hheaderMark : p.raw 1 = some headerMark) (hheaderSpace : p.raw 2 = some headerSpace) :
    ∃ flags, decodeDistanceWidth p s = some (true, { s' with
      decodedIRData.flags := flags
      decodedIRData.distanceWidthTimingInfo :=
        replayTiming headerMark headerSpace mark space }) := by
  have hshort : ¬p.rawlen < 2 * 8 + 4 := Nat.not_lt.mpr hlen
  obtain ⟨u, hu⟩ := exists_checkForRepeatSpaceTicksAndSetFlag
    (distanceWidthMaximumRepeatDistanceMicros / microsPerTick) p s'
  obtain ⟨flags, rfl⟩ := checkForRepeatSpaceTicksAndSetFlag_spec hu
  refine ⟨flags, ?_⟩
  simp only [decodeDistanceWidth, if_neg hshort, hmark, hspace, if_neg htwo, hchunks, hu,
    hheaderMark, hheaderSpace, Option.bind_eq_bind, Option.bind_some]
  rfl

end Frame

/-- A frame with two mark durations is of pulse width, any other of pulse distance. Only
a short frame is refused without a trace. -/
theorem decodeDistanceWidth_ensures : Attempt.Ensures
    (fun s' => ∃ mark space, durations p 3 = some (some mark) ∧
      s'.decodedIRData.protocol = (if 0 < mark.2 then .pulseWidth else .pulseDistance) ∧
      s'.decodedIRData.numberOfBits = distanceWidthBits p.rawlen mark space ∧
      ¬(mark.2 = 0 ∧ space.2 = 0))
    (fun s' => ∃ bits, s' = { s with decodedIRData.numberOfBits := bits })
    (decodeDistanceWidth p s) := by
  have hrefl : ∃ bits, s = { s with decodedIRData.numberOfBits := bits } :=
    ⟨s.decodedIRData.numberOfBits, rfl⟩
  unfold decodeDistanceWidth
  refine .ite (fun _ => .refuse hrefl) fun _ => .bind fun mark hmark => ?_
  rcases mark with _ | mark
  · exact .refuse hrefl
  refine .bind fun space _ => ?_
  rcases space with _ | space
  · exact .refuse hrefl
  refine .ite (fun _ => .refuse ⟨_, rfl⟩) fun hdurations => .bind fun ⟨b, u⟩ hu => ?_
  obtain ⟨rfl, hprotocol, hbits⟩ := decodeChunks_spec (.inl (Nat.succ_pos _)) hu
  refine .ite (fun h => by simp at h) fun _ => .bind fun u hu => ?_
  obtain ⟨flags, rfl⟩ := checkForRepeatSpaceTicksAndSetFlag_spec hu
  refine .bind fun headerMark _ => .bind fun headerSpace _ =>
    .accept ⟨mark, space, hmark, hprotocol.trans ?_, hbits, hdurations⟩
  unfold chunkTiming
  split_ifs <;> rfl

end IrRemote
