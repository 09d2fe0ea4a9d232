import IrRemote.Decode.BiphaseLoops

/-!
# No decoder leaves its buffers

Every entry a decoder reads is inside the buffer, and every chunk the universal decoder
stores is inside its array, for every length of a frame. The positions come from fixed
offsets, from lengths that are checked first, and from start indices that wrap as bytes.

What the universal decoder aggregates its counts to has no part in this, so it is left
open: the chain is defined for any answer of the aggregation.

## Main definitions

* `Aggregation` — any way to tell the durations of a histogram
* `midIrRemoteDecodeBy` — `Mid_IrRemoteDecode` with that aggregation

## Main results

* `defined_decodeDistanceWidthBy` — the universal decoder stays inside its buffers
* `defined_specificDecoders` — so does every other decoder
* `decode_inside_buffers` — and so does the chain
-/

set_option autoImplicit false

namespace IrRemote

open Attempt

variable {p : IrParams} {s : DecodeState} {i n start bits : ℕ} {mark space : ℕ × ℕ}

/-! ## What the decoders share -/

theorem defined_raw (h : i < rawBufferLength) : Defined (p.raw i) := p.exists_raw h

theorem defined_checkHeader (timingInfo : DistanceWidthTimingInfo) :
    Defined (checkHeader timingInfo p) := exists_checkHeader timingInfo p

theorem defined_checkForRepeat (ticks : ℕ) :
    Defined (checkForRepeatSpaceTicksAndSetFlag ticks p s) :=
  exists_checkForRepeatSpaceTicksAndSetFlag ticks p s

/-- So many bits are read up to the space of the last one. -/
theorem defined_decodePulseDistanceWidthData (h : start + 2 * n ≤ rawBufferLength)
    (oneMark zeroMark oneSpace : ℕ) (msb : Bool) :
    Defined (decodePulseDistanceWidthData n start oneMark zeroMark oneSpace msb p s) :=
  .bind (exists_decodeBits_bitValue p h oneMark zeroMark oneSpace msb) fun _ _ => .some _

theorem defined_decodePulseDistanceWidthDatav2 (timingInfo : DistanceWidthTimingInfo)
    (flags : BitVec 8) (h : start + 2 * n ≤ rawBufferLength) :
    Defined (decodePulseDistanceWidthDatav2 timingInfo flags n start p s) :=
  defined_decodePulseDistanceWidthData h _ _ _ _

theorem defined_decodePulseDistanceWidthDatav3 (timingInfo : DistanceWidthTimingInfo)
    (flags : BitVec 8) (h : 3 + 2 * n ≤ rawBufferLength) :
    Defined (decodePulseDistanceWidthDatav3 timingInfo flags n p s) :=
  defined_decodePulseDistanceWidthDatav2 _ _ h

/-! ## The decoders of single protocols -/

theorem defined_decodeNec : Defined (decodeNec p s) := by
  unfold decodeNec
  exact .ite (fun _ => .some _) fun _ => .bind (defined_raw (by decide)) fun _ _ =>
    .ite (fun _ => .some _) fun _ => .ite
      (fun _ => .bind (defined_raw (by decide)) fun _ _ => .bind (defined_raw (by decide))
        fun _ _ => .ite (fun _ => .some _) fun _ => .some _)
      fun _ => .bind (defined_raw (by decide)) fun _ _ => .ite (fun _ => .some _) fun _ =>
        .bind (defined_decodePulseDistanceWidthDatav3 _ _ (by decide)) fun _ _ =>
        .ite (fun _ => .some _) fun _ => .bind (defined_checkForRepeat _) fun _ _ =>
        .ite (fun _ => .some _) fun _ => .some _

theorem defined_decodeKaseikyo : Defined (decodeKaseikyo p s) := by
  unfold decodeKaseikyo
  exact .ite (fun _ => .some _) fun _ => .bind (defined_checkHeader _) fun _ _ =>
    .ite (fun _ => .some _) fun _ =>
    .bind (defined_decodePulseDistanceWidthDatav2 _ _ (by decide)) fun _ _ =>
    .ite (fun _ => .some _) fun _ =>
    .bind (defined_decodePulseDistanceWidthDatav2 _ _ (by decide)) fun _ _ =>
    .ite (fun _ => .some _) fun _ => .bind (defined_checkForRepeat _) fun _ _ => .some _

theorem defined_decodeDenon : Defined (decodeDenon p s) := by
  unfold decodeDenon
  exact .ite (fun _ => .some _) fun _ =>
    .bind (defined_decodePulseDistanceWidthDatav2 _ _ (by decide)) fun _ _ =>
    .ite (fun _ => .some _) fun _ => .bind (defined_raw (by decide)) fun _ _ =>
    .ite (fun _ => .some _) fun _ => .bind (defined_raw (by decide)) fun _ _ => .some _

/-- The number of bits of Sony follows the length, which is checked. -/
theorem defined_decodeSony : Defined (decodeSony p s) := by
  unfold decodeSony
  refine .bind (defined_checkHeader _) fun _ _ => .ite (fun _ => .some _) fun _ =>
    .ite (fun _ => .some _) fun hlen =>
    .bind (defined_decodePulseDistanceWidthDatav2 _ _ ?_) fun _ _ =>
    .ite (fun _ => .some _) fun _ => .bind (defined_checkForRepeat _) fun _ _ => .some _
  simp only [sonyBitsMin, sonyBitsMax, sonyBits15, sonyCommandBits, sonyAddressBits,
    sonyExtraBits, rawBufferLength] at hlen ⊢
  omega

theorem defined_decodeLG : Defined (decodeLG p s) := by
  unfold decodeLG
  refine .ite (fun _ => .some _) fun _ => .bind (defined_raw (by decide)) fun headerMark _ => ?_
  cases lgProtocol headerMark with
  | none => exact .some _
  | some protocol =>
    exact .ite
      (fun _ => .bind (defined_raw (by decide)) fun _ _ => .bind (defined_raw (by decide))
        fun _ _ => .ite (fun _ => .some _) fun _ => .some _)
      fun _ => .bind (defined_raw (by decide)) fun _ _ => .ite (fun _ => .some _) fun _ =>
        .bind (defined_decodePulseDistanceWidthDatav3 _ _ (by decide)) fun _ _ =>
        .ite (fun _ => .some _) fun _ => .some _

/-- A repeat of JVC is read at its end, which its length puts inside the buffer. -/
theorem defined_decodeJVC : Defined (decodeJVC p s) := by
  unfold decodeJVC
  refine .ite (fun _ => .some _) fun _ => .ite
    (fun hlen => .bind (defined_raw (by decide)) fun _ _ => .bind (defined_raw (by decide))
      fun _ _ => .bind (defined_raw ?_) fun _ _ => .ite (fun _ => .some _) fun _ => .some _)
    fun _ => .bind (defined_checkHeader _) fun _ _ => .ite (fun _ => .some _) fun _ =>
      .bind (defined_decodePulseDistanceWidthDatav3 _ _ (by decide)) fun _ _ =>
      .ite (fun _ => .some _) fun _ => .some _
  rw [hlen]
  decide

theorem defined_decodeSamsung : Defined (decodeSamsung p s) := by
  unfold decodeSamsung
  exact .ite (fun _ => .some _) fun _ => .bind (defined_checkHeader _) fun _ _ =>
    .ite (fun _ => .some _) fun _ => .ite (fun _ => .some _) fun _ =>
    .bind (defined_decodePulseDistanceWidthDatav2 _ _ (by decide)) fun _ _ =>
    .ite (fun _ => .some _) fun _ => .ite
      (fun _ => .bind (defined_decodePulseDistanceWidthDatav2 _ _ (by decide)) fun _ _ =>
        .ite (fun _ => .some _) fun _ => .bind (defined_checkForRepeat _) fun _ _ => .some _)
      fun _ => .bind (defined_checkForRepeat _) fun _ _ => .some _

theorem defined_decodeFAST : Defined (decodeFAST p s) := by
  unfold decodeFAST
  exact .ite (fun _ => .some _) fun _ => .bind (defined_checkHeader _) fun _ _ =>
    .ite (fun _ => .some _) fun _ =>
    .bind (defined_decodePulseDistanceWidthDatav3 _ _ (by decide)) fun _ _ =>
    .ite (fun _ => .some _) fun _ => .bind (defined_checkForRepeat _) fun _ _ => .some _

theorem defined_decodeWhynter : Defined (decodeWhynter p s) := by
  unfold decodeWhynter
  exact .ite (fun _ => .some _) fun _ => .bind (defined_checkHeader _) fun _ _ =>
    .ite (fun _ => .some _) fun _ =>
    .bind (defined_decodePulseDistanceWidthDatav3 _ _ (by decide)) fun _ _ =>
    .ite (fun _ => .some _) fun _ => .some _

theorem defined_decodeLegoPowerFunctions : Defined (decodeLegoPowerFunctions p s) := by
  unfold decodeLegoPowerFunctions
  exact .bind (defined_checkHeader _) fun _ _ => .ite (fun _ => .some _) fun _ =>
    .ite (fun _ => .some _) fun _ =>
    .bind (defined_decodePulseDistanceWidthDatav3 _ _ (by decide)) fun _ _ =>
    .ite (fun _ => .some _) fun _ => .bind (defined_raw (by decide)) fun _ _ =>
    .ite (fun _ => .some _) fun _ => .bind (defined_raw (by decide)) fun _ _ => .some _

theorem defined_decodeBoseWave : Defined (decodeBoseWave p s) := by
  unfold decodeBoseWave
  exact .bind (defined_checkHeader _) fun _ _ => .ite (fun _ => .some _) fun _ =>
    .ite (fun _ => .some _) fun _ =>
    .bind (defined_decodePulseDistanceWidthDatav3 _ _ (by decide)) fun _ _ =>
    .ite (fun _ => .some _) fun _ => .bind (defined_raw (by decide)) fun _ _ =>
    .ite (fun _ => .some _) fun _ => .ite (fun _ => .some _) fun _ =>
    .bind (defined_checkForRepeat _) fun _ _ => .some _

theorem defined_decodeMagiQuest : Defined (decodeMagiQuest p s) := by
  unfold decodeMagiQuest
  exact .ite (fun _ => .some _) fun _ =>
    .bind (defined_decodePulseDistanceWidthDatav2 _ _ (by decide)) fun _ _ =>
    .ite (fun _ => .some _) fun _ => .ite (fun _ => .some _) fun _ =>
    .bind (defined_decodePulseDistanceWidthDatav2 _ _ (by decide)) fun _ _ =>
    .ite (fun _ => .some _) fun _ =>
    .bind (defined_decodePulseDistanceWidthDatav2 _ _ (by decide)) fun _ _ =>
    .ite (fun _ => .some _) fun _ => .some _

/-- The hash reads two entries ahead, and stops in front of the last one. -/
theorem defined_decodeHash (hbuf : p.rawlen ≤ rawBufferLength) : Defined (decodeHash p s) := by
  unfold decodeHash
  exact .ite (fun _ => .some _) fun hlen =>
    .bind (exists_hashTicks p _ (by omega)) fun _ _ => .some _

/-! ## The universal decoder -/

/-- What `decodeDistanceWidth` does with the short and the long durations of the marks and
of the spaces. -/
def decodeByDurations (mark space : ℕ × ℕ) : Decoder := fun irparams s => do
  let tNumberOfBits := distanceWidthBits irparams.rawlen mark space
  let s := { s with decodedIRData.numberOfBits := tNumberOfBits }
  if mark.2 = 0 ∧ space.2 = 0 then
    return (false, s)
  let tNumberOfAdditionalArrayValues := (tNumberOfBits - 1) / bitsInRawDataType % 256
  let (decoded, s) ← decodeChunks (chunkTiming mark space) irparams
    (tNumberOfAdditionalArrayValues + 1) 0 3 tNumberOfBits s
  if !decoded then
    return (false, s)
  let s ← checkForRepeatSpaceTicksAndSetFlag
    (distanceWidthMaximumRepeatDistanceMicros / microsPerTick) irparams s
  let headerMark ← irparams.raw 1
  let headerSpace ← irparams.raw 2
  return (true, { s with
    decodedIRData.distanceWidthTimingInfo := replayTiming headerMark headerSpace mark space })

/-- A way to tell the short and the long duration of a histogram, or that there are more. -/
abbrev Aggregation := DurationArray → ℕ → Option (ℕ × ℕ)

/-- The durations of the entries from `start` on, aggregated in that way. -/
def durationsBy (aggregate : Aggregation) (irparams : IrParams) (start : ℕ) :
    Option (Option (ℕ × ℕ)) := do
  match ← countDurations irparams start with
  | none => return none
  | some (tDurationArray, tIndexOfMaxDuration) =>
    return aggregate tDurationArray tIndexOfMaxDuration

/-- `decodeDistanceWidth`, with another way to tell the durations. -/
def decodeDistanceWidthBy (durationsOf : IrParams → ℕ → Option (Option (ℕ × ℕ))) : Decoder :=
  fun irparams s => do
    if irparams.rawlen < 2 * 8 + 4 then
      return (false, s)
    match ← durationsOf irparams 3 with
    | none => return (false, s)
    | some mark =>
      match ← durationsOf irparams 4 with
      | none => return (false, s)
      | some space => decodeByDurations mark space irparams s

/-- `Mid_IrRemoteDecode`, with another way to tell the durations. -/
def midIrRemoteDecodeBy (durationsOf : IrParams → ℕ → Option (Option (ℕ × ℕ)))
    (irparams : IrParams) (s : DecodeState) : Option (Bool × DecodeState) :=
  if irparams.stateForISR ≠ .stop then some (false, s)
  else
    let s := irRemoteInitDecodedIRData irparams s
    if s.decodedIRData.flags &&& irdataFlagsWasOverflow ≠ 0 then
      some (true, { s with decodedIRData.protocol := .unknown })
    else do
      let (_, s) ← tryDecoders (specificDecoders ++ [decodeDistanceWidthBy durationsOf, decodeHash])
        irparams s
      return (true, s)

theorem decodeDistanceWidthBy_durations : decodeDistanceWidthBy durations = decodeDistanceWidth :=
  rfl

theorem midIrRemoteDecodeBy_durations : midIrRemoteDecodeBy durations = midIrRemoteDecode := rfl

/-- The entries that are counted are those of the frame. -/
theorem defined_countDurationsFrom (h : i + 2 * n ≤ rawBufferLength + 1) (array : DurationArray)
    (max : ℕ) : Defined (countDurationsFrom p n i array max) := by
  induction n generalizing i array max with
  | zero => exact .some _
  | succ n ih =>
    unfold countDurationsFrom
    exact .bind (defined_raw (by omega)) fun _ _ => .ite (fun _ => ih (by omega) _ _)
      fun _ => .some _

theorem defined_durationsBy (aggregate : Aggregation) (hlen : start + 2 ≤ p.rawlen)
    (hbuf : p.rawlen ≤ rawBufferLength) : Defined (durationsBy aggregate p start) := by
  unfold durationsBy countDurations
  refine .bind (defined_countDurationsFrom (by omega) _ _) fun counted _ => ?_
  cases counted <;> exact .some _

theorem defined_storeChunk (h : i < rawDataArraySize) : Defined (storeChunk i s) :=
  ⟨_, dif_pos h⟩

/-- The start index of a chunk is a byte, and so no chunk comes near the end of the buffer. -/
theorem defined_decodeChunks (timing : ChunkTiming) (hi : i + n ≤ rawDataArraySize)
    (hstart : start < 256) : Defined (decodeChunks timing p n i start bits s) := by
  induction n generalizing i start bits s with
  | zero => exact .some _
  | succ n ih =>
    have hbits := (numberOfBitsForOneDecode_le bits).1
    have hread : start + 2 * numberOfBitsForOneDecode bits ≤ rawBufferLength := by
      unfold rawBufferLength
      omega
    unfold decodeChunks
    exact .bind (defined_decodePulseDistanceWidthData hread _ _ _ _) fun _ _ =>
      .ite (fun _ => .some _) fun _ => .bind (defined_storeChunk (by omega)) fun _ _ =>
      ih (by omega) (Nat.mod_lt _ (by decide))

/-- The longest frame has as many chunks as the array has elements. -/
theorem chunks_le (hbuf : p.rawlen ≤ rawBufferLength) (mark space : ℕ × ℕ) :
    (distanceWidthBits p.rawlen mark space - 1) / bitsInRawDataType % 256 + 1 ≤
      rawDataArraySize := by
  have hbits : distanceWidthBits p.rawlen mark space ≤ p.rawlen / 2 - 1 := by
    unfold distanceWidthBits
    split_ifs <;> omega
  simp only [bitsInRawDataType, rawDataArraySize, rawBufferLength] at hbuf ⊢
  omega

theorem defined_decodeByDurations (hbuf : p.rawlen ≤ rawBufferLength) (mark space : ℕ × ℕ) :
    Defined (decodeByDurations mark space p s) := by
  have hchunks := chunks_le hbuf mark space
  unfold decodeByDurations
  exact .ite (fun _ => .some _) fun _ =>
    .bind (defined_decodeChunks _ (by omega) (by decide)) fun _ _ =>
    .ite (fun _ => .some _) fun _ =>
    .bind (defined_checkForRepeat _) fun _ _ => .bind (defined_raw (by decide)) fun _ _ =>
    .bind (defined_raw (by decide)) fun _ _ => .some _

theorem defined_decodeDistanceWidthBy (hbuf : p.rawlen ≤ rawBufferLength)
    (aggregate : Aggregation) : Defined (decodeDistanceWidthBy (durationsBy aggregate) p s) := by
  unfold decodeDistanceWidthBy
  refine .ite (fun _ => .some _) fun hlen =>
    .bind (defined_durationsBy _ (by omega) hbuf) fun mark _ => ?_
  cases mark with
  | none => exact .some _
  | some mark =>
    refine .bind (defined_durationsBy _ (by omega) hbuf) fun space _ => ?_
    cases space with
    | none => exact .some _
    | some space => exact defined_decodeByDurations hbuf mark space

/-! ## The chain -/

theorem defined_specificDecoders (hgap₅ : GapRefused rc5Unit p) (hgap₆ : GapRefused rc6Unit p) :
    ∀ d ∈ specificDecoders, ∀ s, Defined (d p s) := by
  simp only [specificDecoders, List.forall_mem_cons, List.not_mem_nil, false_imp_iff, imp_true_iff,
    and_true]
  exact ⟨fun _ => defined_decodeNec, fun _ => defined_decodeKaseikyo,
    fun _ => defined_decodeDenon, fun _ => defined_decodeSony, defined_decodeRC5 hgap₅,
    defined_decodeRC6 hgap₆, fun _ => defined_decodeLG, fun _ => defined_decodeJVC,
    fun _ => defined_decodeSamsung, fun _ => defined_decodeFAST, fun _ => defined_decodeWhynter,
    fun _ => defined_decodeLegoPowerFunctions, fun _ => defined_decodeBoseWave,
    fun _ => defined_decodeMagiQuest⟩

theorem defined_midIrRemoteDecodeBy (h : ReceiverInv p) (hs : p.stateForISR = .stop)
    {durationsOf : IrParams → ℕ → Option (Option (ℕ × ℕ))}
    (hwidth : ∀ s, Defined (decodeDistanceWidthBy durationsOf p s)) (s : DecodeState) :
    Defined (midIrRemoteDecodeBy durationsOf p s) := by
  obtain ⟨hgap₅, hgap₆⟩ := h.gapRefused hs
  have hall : ∀ d ∈ specificDecoders ++ [decodeDistanceWidthBy durationsOf, decodeHash], ∀ s,
      Defined (d p s) := by
    intro d hd
    rcases List.mem_append.mp hd with hd | hd
    · exact defined_specificDecoders hgap₅ hgap₆ d hd
    · rcases List.mem_pair.mp hd with rfl | rfl
      · exact hwidth
      · exact fun _ => defined_decodeHash h.rawlen_le
  have hchain : ∀ s, Defined (tryDecoders
      (specificDecoders ++ [decodeDistanceWidthBy durationsOf, decodeHash]) p s) := by
    intro s
    refine .firstOf (fun a ha => ?_) s
    obtain ⟨d, hd, rfl⟩ := List.mem_map.mp ha
    exact hall d hd
  unfold midIrRemoteDecodeBy
  exact .ite (fun _ => .some _) fun _ => .ite (fun _ => .some _) fun _ =>
    .bind (hchain _) fun _ _ => .some _

/-! ## The aggregation of the code -/

/-- The loop of `aggregateArrayCounts` with the array as large as its indices, so that no
mean is outside. -/
def aggregateFreelyFrom : ℕ → ℕ → DurationArray → ℕ → ℕ → ℕ → ℕ → Option (ℕ × ℕ)
  | 0, _, _, _, _, aShortIndex, aLongIndex => some (aShortIndex, aLongIndex)
  | n + 1, i, aArray, tSum, tWeightedSum, aShortIndex, aLongIndex =>
    let tCurrentDurations := aArray i
    let tSum := (tSum + tCurrentDurations) % 256
    let tWeightedSum := (tWeightedSum + tCurrentDurations * i) % 65536
    let aArray := Function.update aArray i 0
    if (tCurrentDurations = 0 ∨ n = 0) ∧ tSum ≠ 0 then
      let tAggregateIndex := ((tWeightedSum + tSum / 2) / tSum) % 256
      let aArray := Function.update aArray tAggregateIndex tSum
      if aShortIndex = 0 then aggregateFreelyFrom n (i + 1) aArray 0 0 tAggregateIndex aLongIndex
      else if aLongIndex = 0 then
        aggregateFreelyFrom n (i + 1) aArray 0 0 aShortIndex tAggregateIndex
      else none
    else aggregateFreelyFrom n (i + 1) aArray tSum tWeightedSum aShortIndex aLongIndex

/-- `aggregateArrayCounts` with the array as large as its indices. -/
def aggregateFreely : Aggregation := fun aArray aMaxIndex =>
  aggregateFreelyFrom (aMaxIndex + 1) 0 aArray 0 0 0 0

/-- A write inside the array is the same in a larger one. -/
theorem aggregateFreelyFrom_eq {array : DurationArray} {sum weight short long : ℕ}
    {r : Option (ℕ × ℕ)} (h : aggregateFrom n i array sum weight short long = some r) :
    aggregateFreelyFrom n i array sum weight short long = r := by
  induction n generalizing i array sum weight short long with
  | zero => exact Option.some.inj h
  | succ n ih =>
    simp only [aggregateFrom] at h
    simp only [aggregateFreelyFrom]
    split_ifs at h ⊢ with hclose hsize hfirst hsecond
    · exact ih h
    · exact ih h
    · exact Option.some.inj h
    · exact ih h

theorem durationsBy_aggregateFreely {r : Option (ℕ × ℕ)} (h : durations p start = some r) :
    durationsBy aggregateFreely p start = some r := by
  unfold durations at h
  unfold durationsBy
  obtain ⟨counted, hcounted, h⟩ := Option.bind_eq_some_iff.mp h
  rw [hcounted, Option.bind_eq_bind, Option.bind_some]
  cases counted with
  | none => exact h
  | some counted => exact congrArg some (aggregateFreelyFrom_eq h)

/-- Where both aggregations stay inside the array, the chain is that of the code. -/
theorem decodeDistanceWidthBy_aggregateFreely (hmark : durations p 3 ≠ none)
    (hspace : durations p 4 ≠ none) (s : DecodeState) :
    decodeDistanceWidthBy (durationsBy aggregateFreely) p s = decodeDistanceWidth p s := by
  obtain ⟨mark, hmark⟩ := Option.ne_none_iff_exists'.mp hmark
  obtain ⟨space, hspace⟩ := Option.ne_none_iff_exists'.mp hspace
  rw [← decodeDistanceWidthBy_durations]
  simp only [decodeDistanceWidthBy, hmark, hspace, durationsBy_aggregateFreely hmark,
    durationsBy_aggregateFreely hspace]

/-- Every captured frame is decoded inside the buffer and inside the array of the decoded
data, whatever the aggregation of the universal decoder answers; and that is the decode of
the code wherever its own aggregation writes inside its array. -/
theorem decode_inside_buffers (h : ReachableReceiver p) (hs : p.stateForISR = .stop)
    (s : DecodeState) :
    (∀ aggregate : Aggregation, ∃ r, midIrRemoteDecodeBy (durationsBy aggregate) p s = some r) ∧
      (durations p 3 ≠ none → durations p 4 ≠ none → ∃ r, midIrRemoteDecode p s = some r ∧
        midIrRemoteDecodeBy (durationsBy aggregateFreely) p s = some r) := by
  have hdefined : ∀ aggregate : Aggregation,
      Defined (midIrRemoteDecodeBy (durationsBy aggregate) p s) := fun aggregate =>
    defined_midIrRemoteDecodeBy h.inv hs
      (fun _ => defined_decodeDistanceWidthBy h.inv.rawlen_le _) s
  refine ⟨hdefined, fun hmark hspace => ?_⟩
  obtain ⟨r, hr⟩ := hdefined aggregateFreely
  refine ⟨r, ?_, hr⟩
  rw [← hr, ← midIrRemoteDecodeBy_durations]
  unfold midIrRemoteDecodeBy
  have hchain : ∀ s, tryDecoders (specificDecoders ++ [decodeDistanceWidthBy durations, decodeHash])
      p s = tryDecoders (specificDecoders ++
        [decodeDistanceWidthBy (durationsBy aggregateFreely), decodeHash]) p s := by
    intro s
    simp only [tryDecoders, List.map_append, List.map_cons, List.map_nil]
    rw [decodeDistanceWidthBy_durations,
      funext (decodeDistanceWidthBy_aggregateFreely hmark hspace)]
  simp only [hchain]

/-- The longest frame that fits the buffer. -/
theorem decode_inside_buffers_full : ∃ p : IrParams, p.rawlen = rawBufferLength ∧
    (∀ aggregate : Aggregation,
      ∃ r, midIrRemoteDecodeBy (durationsBy aggregate) p .zero = some r) ∧
    (durations p 3 ≠ none → durations p 4 ≠ none → ∃ r, midIrRemoteDecode p .zero = some r ∧
      midIrRemoteDecodeBy (durationsBy aggregateFreely) p .zero = some r) := by
  obtain ⟨p, hp, hcaptured⟩ := exists_reachable_captured
    (show ∀ m ∈ List.replicate (rawBufferLength / 2) 18, 1 ≤ m by simp)
    (show ∀ s ∈ List.replicate (rawBufferLength / 2 - 1) 18, 1 ≤ s ∧ s ≤ recordGapTicks from
      fun s hs => List.eq_of_mem_replicate hs ▸ by decide)
    (by rw [List.length_replicate, List.length_replicate]; decide)
    (by rw [List.length_replicate]; decide)
  have hlen : p.rawlen = rawBufferLength := by
    rw [hcaptured.rawlen, List.length_replicate]
    decide
  exact ⟨p, hlen, decode_inside_buffers hp hcaptured.stopped .zero⟩

end IrRemote
