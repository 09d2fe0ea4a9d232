import IrRemote.Decode.Bounds
import IrRemote.Universal.Counters

/-!
# The bits of the universal decoder

The spaces of a pulse distance frame are counted in two clusters, and the long duration is
the mean of the second. A bit is decided by the window around that mean, and not by the
cluster, and the space of the last bit is not counted at all. So the bits follow the clusters
when the window covers the long cluster and leaves the short one out, and the last space has
a duration of one of them.

## Main definitions

* `SpaceRuns` — the clusters of the short and of the long spaces
* `decodedBit` — a bit of `decodedRawDataArray`
* `FollowsRuns`, `Separated` — the bits follow the clusters, and when they do

## Main results

* `decodeDistanceWidth_accepts` — what a frame that is accepted went through
* `exists_accepted` — every bit is the window of its space
* `followsRuns_iff` — the exact condition
-/

set_option autoImplicit false

namespace IrRemote

open Clusters

variable {p : IrParams} {s s' : DecodeState} {mark space short long : ℕ × ℕ} {n j t : ℕ}

/-! ## Accepted frames -/

/-- What a frame that is accepted went through. -/
theorem decodeDistanceWidth_accepts (h : decodeDistanceWidth p s = some (true, s')) :
    ∃ mark space u, 20 ≤ p.rawlen ∧ durations p 3 = some (some mark) ∧
      durations p 4 = some (some space) ∧ ¬(mark.2 = 0 ∧ space.2 = 0) ∧
      decodeChunks (chunkTiming mark space) p
        ((distanceWidthBits p.rawlen mark space - 1) / bitsInRawDataType % 256 + 1) 0 3
        (distanceWidthBits p.rawlen mark space) { s with
          decodedIRData.numberOfBits := distanceWidthBits p.rawlen mark space } =
            some (true, u) ∧
      s'.decodedIRData.decodedRawDataArray = u.decodedIRData.decodedRawDataArray ∧
      s'.decodedIRData.numberOfBits = distanceWidthBits p.rawlen mark space ∧
      s'.decodedIRData.protocol = (chunkTiming mark space).protocol := by
  by_cases hshort : p.rawlen < 2 * 8 + 4
  · rw [decodeDistanceWidth, if_pos hshort] at h
    simp at h
  rw [decodeDistanceWidth, if_neg hshort] at h
  obtain ⟨mark, hmark, h⟩ := Option.bind_eq_some_iff.mp h
  cases mark with
  | none => simp at h
  | some mark =>
    obtain ⟨space, hspace, h⟩ := Option.bind_eq_some_iff.mp h
    cases space with
    | none => simp at h
    | some space =>
      by_cases hone : mark.2 = 0 ∧ space.2 = 0
      · simp [hone] at h
      simp only [if_neg hone] at h
      obtain ⟨⟨decoded, u⟩, hchunks, h⟩ := Option.bind_eq_some_iff.mp h
      obtain ⟨rfl, hprotocol, hnumber⟩ := decodeChunks_spec (.inl (Nat.succ_pos _)) hchunks
      simp only [Bool.not_true, Bool.false_eq_true, if_false] at h
      obtain ⟨v, hv, h⟩ := Option.bind_eq_some_iff.mp h
      obtain ⟨flags, rfl⟩ := checkForRepeatSpaceTicksAndSetFlag_spec hv
      obtain ⟨headerMark, -, h⟩ := Option.bind_eq_some_iff.mp h
      obtain ⟨headerSpace, -, h⟩ := Option.bind_eq_some_iff.mp h
      obtain ⟨-, rfl⟩ := Prod.mk.inj (Option.some.inj h)
      exact ⟨mark, space, u, Nat.not_lt.mp hshort, hmark, hspace, hone, hchunks, rfl, hnumber,
        hprotocol⟩

/-! ## Bits -/

/-- Bit `j` of `decodedRawDataArray`, 32 bits to an element and the least significant
first. -/
def decodedBit (d : IRData) (j : ℕ) : Bool :=
  (d.decodedRawDataArray[j / 32]?.getD 0).getLsbD (j % 32)

theorem chunkWord_getLsbD {l : List Bool} {b : Bool} (h : l[j]? = some b) :
    (chunkWord (j / 32) l).getLsbD (j % 32) = b := by
  have hj : j < l.length := (List.getElem?_eq_some_iff.mp h).1
  have hlt : j % 32 < (chunk (j / 32) l).length := by
    rw [chunk_length]
    omega
  have hsplit : 32 * (j / 32) + j % 32 = j := Nat.div_add_mod j 32
  have hbit : (chunk (j / 32) l)[j % 32]? = some b := by
    rw [List.getElem?_eq_getElem hlt, chunk_getElem hlt (by omega), ← h,
      List.getElem?_eq_getElem hj]
    simp only [hsplit]
  rw [← lsbBits_chunkWord, BitWord.lsbBits_getElem? hlt] at hbit
  exact Option.some.inj hbit

/-- A frame of pulse distance that is accepted: its spaces have two durations, and it ends
with a stop mark. -/
structure Accepted (p : IrParams) (s' : DecodeState) (space : ℕ × ℕ) : Prop where
  spaces : durations p 4 = some (some space)
  long_ne : space.2 ≠ 0
  min : 20 ≤ p.rawlen
  rawlen : p.rawlen = 2 * s'.decodedIRData.numberOfBits + 4
  bit : s'.decodedIRData.numberOfBits ≤ 128 → ∀ j < s'.decodedIRData.numberOfBits, ∀ t,
    p.raw (4 + 2 * j) = some t →
      decodedBit s'.decodedIRData j = matchSpace t (space.2 * microsPerTick)

theorem exists_accepted (h : ReceiverInv p) (hs : p.stateForISR = .stop)
    (hdecode : decodeDistanceWidth p s = some (true, s'))
    (hprotocol : s'.decodedIRData.protocol = .pulseDistance) : ∃ space, Accepted p s' space := by
  obtain ⟨mark, space, u, hmin, -, hspace, hone, hchunks, harray, hnumber, hchunkProtocol⟩ :=
    decodeDistanceWidth_accepts hdecode
  have hmark : ¬0 < mark.2 := by
    intro hpos
    rw [hchunkProtocol, chunkTiming, if_pos hpos] at hprotocol
    cases hprotocol
  have hlong : space.2 ≠ 0 := fun hzero => hone ⟨by omega, hzero⟩
  have heven := (h.stop_even hs).1
  have hbits : distanceWidthBits p.rawlen mark space = p.rawlen / 2 - 1 - 1 :=
    if_pos ⟨by omega, by omega⟩
  rw [hbits] at hnumber
  refine ⟨space, hspace, hlong, hmin, by omega, fun hle j hj t ht => ?_⟩
  rw [hnumber] at hle hj
  rw [hbits] at hchunks
  have htiming : chunkTiming mark space = ⟨.pulseDistance, mark.1 * microsPerTick,
      mark.1 * microsPerTick, space.2 * microsPerTick⟩ := if_neg hmark
  -- the bits that are read, none of which wraps the start index
  let bits := (List.range (p.rawlen / 2 - 1 - 1)).map fun i =>
    matchSpace ((p.raw (4 + 2 * i)).getD 0) (space.2 * microsPerTick)
  have hlength : bits.length = p.rawlen / 2 - 1 - 1 := by
    rw [List.length_map, List.length_range]
  have hread : ∀ i (hi : i < bits.length), bitValue p (chunkTiming mark space).oneMarkMicros
      (chunkTiming mark space).zeroMarkMicros (chunkTiming mark space).oneSpaceMicros
      (3 + 2 * (i % 128)) = some bits[i] := by
    intro i hi
    have hmod : i % 128 = i := Nat.mod_eq_of_lt (by omega)
    obtain ⟨u, hu⟩ := p.exists_raw (show 4 + 2 * i < rawBufferLength by
      have := h.rawlen_le
      omega)
    have hindex : 3 + 2 * i + 1 = 4 + 2 * i := by omega
    rw [htiming, hmod, bitValue, if_pos rfl, hindex, hu, Option.map_some, List.getElem_map,
      List.getElem_range, hu, Option.getD_some]
  have hcount : (p.rawlen / 2 - 1 - 1 - 1) / bitsInRawDataType % 256 + 1 =
      (p.rawlen / 2 - 1 - 1 - 1) / 32 + 1 := by
    simp only [bitsInRawDataType]
    omega
  have hsize : 0 + ((p.rawlen / 2 - 1 - 1 - 1) / 32 + 1) ≤ rawDataArraySize := by
    have hrows : rawDataArraySize = 12 := by decide
    omega
  obtain ⟨v, hv, -, -, hwords⟩ := decodeChunks_eq (s := { s with
      decodedIRData.numberOfBits := p.rawlen / 2 - 1 - 1 }) (chunkTiming mark space) hread
    (by omega) rfl (show 32 * 0 + (p.rawlen / 2 - 1 - 1) = bits.length by omega) (by omega) hsize
  rw [hcount, hv] at hchunks
  obtain ⟨-, rfl⟩ := Prod.mk.inj (Option.some.inj hchunks)
  have hbit : bits[j]? = some (matchSpace t (space.2 * microsPerTick)) := by
    rw [List.getElem?_map, List.getElem?_range hj, Option.map_some, ht, Option.getD_some]
  rw [decodedBit, harray, hwords (j / 32) (Nat.zero_le _) (by omega), Option.getD_some]
  exact chunkWord_getLsbD hbit

/-! ## Clusters of spaces -/

/-- A duration that belongs to a cluster. -/
def InRun (c : ℕ × ℕ) (t : ℕ) : Prop := c.1 ≤ t ∧ t < c.2

/-- The clusters of counted spaces whose means are the short and the long duration. -/
structure SpaceRuns (p : IrParams) (space short long : ℕ × ℕ) : Prop where
  spaces : durations p 4 = some (some space)
  short_cluster : IsCluster (histogram p 4) short.1 short.2
  long_cluster : IsCluster (histogram p 4) long.1 long.2
  short_mean : mean (histogram p 4) short = space.1
  long_mean : mean (histogram p 4) long = space.2

theorem histogram_ne_zero_iff {start : ℕ} : histogram p start t ≠ 0 ↔
    ∃ j < (p.rawlen - 2 - start + 1) / 2, p.raw (start + 2 * j) = some t := by
  rw [← mem_countedFrom, ← Nat.pos_iff_ne_zero]
  exact List.count_pos_iff

/-- The spaces of a frame of at most 257 bits fit a byte. -/
theorem bytesFit_histogram {start : ℕ} (h : (p.rawlen - 2 - start + 1) / 2 < 256) :
    BytesFit (histogram p start) := fun _ _ _ =>
  (total_count_le _).trans_lt (length_countedFrom_le.trans_lt h)

/-- The two clusters of an accepted frame, in ascending order, and there are no others. -/
theorem Accepted.exists_runs (h : Accepted p s' space) (hinv : ReceiverInv p)
    (hbits : s'.decodedIRData.numberOfBits ≤ 128) :
    ∃ short long, SpaceRuns p space short long ∧ short.2 < long.1 ∧
      ∀ c : ℕ × ℕ, IsCluster (histogram p 4) c.1 c.2 → c = short ∨ c = long := by
  have hrawlen := h.rawlen
  have hfits : BytesFit (histogram p 4) := bytesFit_histogram (by omega)
  obtain ⟨counted, hcounted, hcounts⟩ := Option.bind_eq_some_iff.mp h.spaces
  cases counted with
  | none => simp at hcounts
  | some c =>
    obtain ⟨array, max⟩ := c
    obtain ⟨harray, hmax, hzero⟩ := countDurations_spec hcounted
    obtain rfl : array = histogram p 4 :=
      funext fun t => (harray t).trans (Nat.mod_eq_of_lt (hfits.lt t))
    have hzero' : ∀ j, max + 1 ≤ j → histogram p 4 j = 0 := hzero
    have hresult : (storeMeans ((clusters (histogram p 4) (max + 1)).map
        (meanStore (histogram p 4))) 0 0).result = some (some space) := by
      rw [← aggregateTraced_eq hfits hmax hzero, result_aggregateTraced]
      exact hcounts
    -- every duration is positive, and so is every mean
    have hstores : ∀ w ∈ (clusters (histogram p 4) (max + 1)).map (meanStore (histogram p 4)),
        0 < w.1 ∧ w.1 < durationArraySize := by
      intro w hw
      obtain ⟨c, hc, rfl⟩ := List.mem_map.mp hw
      have hcluster := (mem_clusters_iff hzero').mp hc
      obtain ⟨hlow, hhigh⟩ := hcluster.mean_mem
      obtain ⟨j, hj, hread⟩ := histogram_ne_zero_iff.mp
        (hcluster.occurs c.1 le_rfl hcluster.lt)
      have hpos := hinv.entry_pos _ _ (show 1 ≤ 4 + 2 * j by omega) (by omega) hread
      have hlast : c.2 ≤ max + 1 := hcluster.end_le hzero'
      change 0 < mean _ c ∧ mean _ c < _
      have hsize : max < durationArraySize := hmax
      omega
    obtain ⟨v, w, hlist, rfl⟩ := result_storeMeans_two hstores h.long_ne hresult
    obtain ⟨short, rest, hclusters, rfl, hrest⟩ := List.map_eq_cons_iff.mp hlist
    obtain ⟨long, rest', rfl, rfl, hnil⟩ := List.map_eq_cons_iff.mp hrest
    obtain rfl := List.map_eq_nil_iff.mp hnil
    have hmem : ∀ c : ℕ × ℕ, IsCluster (histogram p 4) c.1 c.2 ↔ c = short ∨ c = long := by
      intro c
      rw [← mem_clusters_iff hzero', hclusters, List.mem_pair]
    have hsorted := pairwise_clusters hzero'
    rw [hclusters, List.pairwise_pair] at hsorted
    have hruns : SpaceRuns p _ short long :=
      ⟨h.spaces, (hmem short).mpr (.inl rfl), (hmem long).mpr (.inr rfl), rfl, rfl⟩
    exact ⟨short, long, hruns, hsorted, fun c hc => (hmem c).mp hc⟩

theorem exists_run_of_counted {start : ℕ} {c : DurationArray × ℕ}
    (hcounted : countDurations p start = some (some c)) (ht : histogram p start t ≠ 0) :
    ∃ run : ℕ × ℕ, IsCluster (histogram p start) run.1 run.2 ∧ InRun run t := by
  have hzero : ∀ j, c.2 + 1 ≤ j → histogram p start j = 0 := (countDurations_spec hcounted).2.2
  obtain ⟨run, hrun, hin⟩ := exists_mem_clusters hzero ht
  exact ⟨run, (mem_clusters_iff hzero).mp hrun, hin⟩

/-! ## The exact condition -/

/-- Every bit is 1 when its space lies in the long cluster and 0 when it lies in the short
one. -/
def FollowsRuns (p : IrParams) (d : IRData) (short long : ℕ × ℕ) : Prop :=
  ∀ j < d.numberOfBits, ∀ t, p.raw (4 + 2 * j) = some t →
    (decodedBit d j = true ↔ InRun long t) ∧ (decodedBit d j = false ↔ InRun short t)

/-- The window around the mean of the long cluster covers that cluster and ends above the
short one, and the space of the last bit, which is not counted, lies in one of the two. -/
structure Separated (p : IrParams) (short long : ℕ × ℕ) : Prop where
  long_first : matchSpace long.1 (mean (histogram p 4) long * microsPerTick) = true
  long_last : matchSpace (long.2 - 1) (mean (histogram p 4) long * microsPerTick) = true
  short_last : matchSpace (short.2 - 1) (mean (histogram p 4) long * microsPerTick) = false
  last : ∀ t, p.raw (p.rawlen - 2) = some t → InRun short t ∨ InRun long t

/-- The window is an interval. -/
theorem matchSpace_between {a b us : ℕ} (ha : matchSpace a us = true)
    (hb : matchSpace b us = true) (hle : a ≤ t) (hge : t ≤ b) : matchSpace t us = true := by
  have hwindow : ∀ u, matchSpace u us = true ↔ ticksLow (us - markExcessMicros) ≤ u ∧
      u ≤ ticksHigh (us - markExcessMicros) := fun u => matchSpace_iff rfl rfl
  rw [hwindow] at ha hb ⊢
  exact ⟨ha.1.trans hle, hge.trans hb.2⟩

theorem Separated.matchSpace_long (h : Separated p short long) (ht : InRun long t) :
    matchSpace t (mean (histogram p 4) long * microsPerTick) = true :=
  matchSpace_between h.long_first h.long_last ht.1 (Nat.le_sub_one_of_lt ht.2)

theorem Separated.matchSpace_short (h : Separated p short long) (hlt : short.2 < long.1)
    (ht : InRun short t) : matchSpace t (mean (histogram p 4) long * microsPerTick) = false := by
  rw [Bool.eq_false_iff]
  intro hmatch
  have hle : t ≤ short.2 - 1 := Nat.le_sub_one_of_lt ht.2
  have hlast := matchSpace_between hmatch h.long_first hle (by omega)
  rw [h.short_last] at hlast
  cases hlast

theorem Accepted.follows_iff_separated (h : Accepted p s' space)
    (hbits : s'.decodedIRData.numberOfBits ≤ 128) (hruns : SpaceRuns p space short long)
    (hlt : short.2 < long.1)
    (hall : ∀ c : ℕ × ℕ, IsCluster (histogram p 4) c.1 c.2 → c = short ∨ c = long) :
    FollowsRuns p s'.decodedIRData short long ↔ Separated p short long := by
  have hrawlen := h.rawlen
  have hmin := h.min
  obtain ⟨counted, hcounted, hcounts⟩ := Option.bind_eq_some_iff.mp h.spaces
  cases counted with
  | none => simp at hcounts
  | some counted =>
  have hbit : ∀ j < s'.decodedIRData.numberOfBits, ∀ t, p.raw (4 + 2 * j) = some t →
      decodedBit s'.decodedIRData j =
        matchSpace t (mean (histogram p 4) long * microsPerTick) := by
    rw [hruns.long_mean]
    exact h.bit hbits
  constructor
  · intro hfollows
    -- what was counted is the space of a bit, so the ends of the clusters are
    have hcounted : ∀ t, histogram p 4 t ≠ 0 →
        ∃ j < s'.decodedIRData.numberOfBits, p.raw (4 + 2 * j) = some t := by
      intro t hne
      obtain ⟨j, hj, hread⟩ := histogram_ne_zero_iff.mp hne
      exact ⟨j, by omega, hread⟩
    have hlong : ∀ t, InRun long t → histogram p 4 t ≠ 0 →
        matchSpace t (mean (histogram p 4) long * microsPerTick) = true := by
      intro t ht hne
      obtain ⟨j, hj, hread⟩ := hcounted t hne
      rw [← hbit j hj t hread]
      exact (hfollows j hj t hread).1.mpr ht
    have hshort : ∀ t, InRun short t → histogram p 4 t ≠ 0 →
        matchSpace t (mean (histogram p 4) long * microsPerTick) = false := by
      intro t ht hne
      obtain ⟨j, hj, hread⟩ := hcounted t hne
      rw [← hbit j hj t hread]
      exact (hfollows j hj t hread).2.mpr ht
    have hl := hruns.long_cluster.lt
    have hs := hruns.short_cluster.lt
    refine ⟨hlong _ ⟨le_rfl, hl⟩ (hruns.long_cluster.occurs _ le_rfl hl),
      hlong _ ⟨by omega, by omega⟩ (hruns.long_cluster.occurs _ (by omega) (by omega)),
      hshort _ ⟨by omega, by omega⟩ (hruns.short_cluster.occurs _ (by omega) (by omega)), ?_⟩
    intro t ht
    -- the entry in front of the stop mark is the space of the last bit
    have hindex : p.rawlen - 2 = 4 + 2 * (s'.decodedIRData.numberOfBits - 1) := by omega
    rw [hindex] at ht
    obtain ⟨hone, hzero⟩ := hfollows _ (by omega) t ht
    cases hb : decodedBit s'.decodedIRData (s'.decodedIRData.numberOfBits - 1) with
    | true => exact .inr (hone.mp hb)
    | false => exact .inl (hzero.mp hb)
  · intro hseparated j hj t ht
    -- every space but the last was counted, and lies in one of the two clusters
    have hrun : InRun short t ∨ InRun long t := by
      rcases Nat.lt_or_ge j (s'.decodedIRData.numberOfBits - 1) with hcount | hge
      · have hne : histogram p 4 t ≠ 0 := histogram_ne_zero_iff.mpr ⟨j, by omega, ht⟩
        obtain ⟨run, hrun, hin⟩ := exists_run_of_counted hcounted hne
        rcases hall run hrun with rfl | rfl
        · exact .inl hin
        · exact .inr hin
      · have hindex : 4 + 2 * j = p.rawlen - 2 := by omega
        exact hseparated.last t (hindex ▸ ht)
    rw [hbit j hj t ht]
    rcases hrun with hin | hin
    · have hnot : ¬InRun long t := fun hlong => absurd hlong.1 (by have := hin.2; omega)
      rw [hseparated.matchSpace_short hlt hin]
      exact ⟨⟨nofun, fun hlong => absurd hlong hnot⟩, ⟨fun _ => hin, fun _ => rfl⟩⟩
    · have hnot : ¬InRun short t := fun hshort => absurd hin.1 (by have := hshort.2; omega)
      rw [hseparated.matchSpace_long hin]
      exact ⟨⟨fun _ => hin, fun _ => rfl⟩, ⟨nofun, fun hshort => absurd hshort hnot⟩⟩

/-- The bits of an accepted pulse distance frame of at most 128 bits follow the clusters of
their spaces exactly when the clusters are separated. -/
theorem followsRuns_iff (h : ReachableReceiver p) (hs : p.stateForISR = .stop)
    (hdecode : decodeDistanceWidth p s = some (true, s'))
    (hprotocol : s'.decodedIRData.protocol = .pulseDistance)
    (hbits : s'.decodedIRData.numberOfBits ≤ 128) :
    ∃ space, durations p 4 = some (some space) ∧
      (∃ short long, SpaceRuns p space short long) ∧
      ∀ short long, SpaceRuns p space short long →
        (FollowsRuns p s'.decodedIRData short long ↔ Separated p short long) := by
  obtain ⟨space, haccepted⟩ := exists_accepted h.inv hs hdecode hprotocol
  obtain ⟨first, second, hruns, hlt, hall⟩ := haccepted.exists_runs h.inv hbits
  refine ⟨space, haccepted.spaces, ⟨first, second, hruns⟩, fun short long hother => ?_⟩
  -- the means tell the clusters apart
  have hfirst := (hruns.short_cluster.mean_mem).2
  have hsecond := (hruns.long_cluster.mean_mem).1
  have hshort : short = first := by
    refine (hall short hother.short_cluster).resolve_right ?_
    rintro rfl
    have := hother.short_mean.trans hruns.short_mean.symm
    omega
  have hlong : long = second := by
    refine (hall long hother.long_cluster).resolve_left ?_
    rintro rfl
    have := hother.long_mean.trans hruns.long_mean.symm
    omega
  subst hshort hlong
  exact haccepted.follows_iff_separated hbits hother hlt hall

/-! ## Frames -/

/-- Bits that alternate are told apart. -/
theorem followsRuns_iff_alternating : ∃ p s' space, ReachableReceiver p ∧
    p.stateForISR = .stop ∧ decodeDistanceWidth p .zero = some (true, s') ∧
    durations p 4 = some (some space) ∧ (∃ short long, SpaceRuns p space short long) ∧
    ∀ short long, SpaceRuns p space short long →
      (FollowsRuns p s'.decodedIRData short long ↔ Separated p short long) := by
  obtain ⟨p, hp, hframe⟩ := exists_sampleFrame (List.replicate 20 [true, false]).flatten (by decide)
  obtain ⟨s', hs', hticks⟩ := hframe.decodeDistanceWidth (s := .zero) (by decide) (by decide)
    (by decide) (by decide)
  obtain ⟨space, hspace, hruns⟩ := followsRuns_iff hp hframe.stopped hs' hticks.protocol
    (hticks.numberOfBits.trans_le (by decide))
  exact ⟨p, s', space, hp, hframe.stopped, hs', hspace, hruns⟩

/-- A frame whose spaces have two durations and its marks one is decoded. -/
theorem exists_decodeDistanceWidth (h : ReceiverInv p) (hmin : 20 ≤ p.rawlen)
    (heven : p.rawlen % 2 = 0) (hmarks : durations p 3 = some (some (t, 0)))
    (hspaces : durations p 4 = some (some space)) (hlong : 0 < space.2) (s : DecodeState) :
    ∃ s', decodeDistanceWidth p s = some (true, s') ∧
      s'.decodedIRData.protocol = .pulseDistance ∧
      s'.decodedIRData.numberOfBits = p.rawlen / 2 - 2 := by
  have hle := h.rawlen_le
  have hbits : distanceWidthBits p.rawlen (t, 0) space = p.rawlen / 2 - 2 := if_pos ⟨hlong, rfl⟩
  have hsize : 0 + ((distanceWidthBits p.rawlen (t, 0) space - 1) / bitsInRawDataType % 256 + 1) ≤
      rawDataArraySize := by
    have hrows : rawDataArraySize = 12 := by decide
    have hbuffer : rawBufferLength = 750 := rfl
    simp only [hbits, bitsInRawDataType]
    omega
  have hdefined : Attempt.Defined (decodeChunks (chunkTiming (t, 0) space) p
      ((distanceWidthBits p.rawlen (t, 0) space - 1) / bitsInRawDataType % 256 + 1) 0 3
      (distanceWidthBits p.rawlen (t, 0) space) { s with
        decodedIRData.numberOfBits := distanceWidthBits p.rawlen (t, 0) space }) :=
    defined_decodeChunks _ hsize (by decide)
  obtain ⟨⟨decoded, u⟩, hchunks⟩ := hdefined
  obtain ⟨rfl, hprotocol, hnumber⟩ := decodeChunks_spec (.inl (Nat.succ_pos _)) hchunks
  obtain ⟨headerMark, hmark⟩ := p.exists_raw (show 1 < rawBufferLength by decide)
  obtain ⟨headerSpace, hspace⟩ := p.exists_raw (show 2 < rawBufferLength by decide)
  obtain ⟨flags, hs'⟩ := decodeDistanceWidth_frame hmin hmarks hspaces (fun h => hlong.ne' h.2)
    hchunks hmark hspace
  exact ⟨_, hs', hprotocol, hnumber.trans hbits⟩

/-- The spaces of 20 bits, of 10 and of 12 ticks. -/
def closeSpaces : List ℕ := List.replicate 10 10 ++ List.replicate 10 12

/-- The receiver has stopped with these spaces behind a header and between equal marks. -/
structure CloseFrame (p : IrParams) : Prop where
  stopped : p.stateForISR = .stop
  overflowFlag : p.overflowFlag = false
  rawlen : p.rawlen = 44
  headerMark : p.raw 1 = some 100
  mark : ∀ j < 20, p.raw (3 + 2 * j) = some 10
  space : ∀ j (h : j < closeSpaces.length), p.raw (4 + 2 * j) = some closeSpaces[j]

theorem Captured.closeFrame
    (h : Captured p (100 :: List.replicate 21 10) (50 :: closeSpaces)) : CloseFrame p where
  stopped := h.stopped
  overflowFlag := h.overflowFlag
  rawlen := h.rawlen
  headerMark := h.mark 0 (by decide)
  mark j hj := by
    have hmark := h.mark (j + 1) (by rw [List.length_cons, List.length_replicate]; omega)
    rw [List.getElem_cons_succ, List.getElem_replicate] at hmark
    rw [Nat.add_comm 3]
    exact hmark
  space j hj := by
    have hspace := h.space (j + 1) (Nat.succ_lt_succ hj)
    rw [List.getElem_cons_succ] at hspace
    rw [Nat.add_comm 4]
    exact hspace

theorem exists_closeFrame : ∃ p, ReachableReceiver p ∧ CloseFrame p := by
  have hmarks : ∀ m ∈ 100 :: List.replicate 21 10, 1 ≤ m := by decide
  have hspaces : ∀ u ∈ 50 :: closeSpaces, 1 ≤ u ∧ u ≤ recordGapTicks := by decide
  obtain ⟨p, hp, hcaptured⟩ := exists_reachable_captured hmarks hspaces (by decide) (by decide)
  exact ⟨p, hp, hcaptured.closeFrame⟩

/-- The last space is not counted. -/
theorem CloseFrame.spaces (h : CloseFrame p) : durations p 4 = some (some (10, 12)) := by
  apply durations_pair (l := closeSpaces.dropLast) (by decide) (by rw [h.rawlen]; rfl) ?_
    (by decide) (by decide) (by decide) (by decide) (by decide) (by decide)
  intro j hj
  rw [List.getElem_dropLast]
  exact h.space j _

theorem CloseFrame.marks (h : CloseFrame p) : durations p 3 = some (some (10, 0)) := by
  apply durations_single (l := List.replicate 20 10) (by decide) (by rw [h.rawlen]; rfl) ?_
    (by decide) (by decide) (by decide)
  intro j hj
  rw [List.getElem_replicate]
  exact h.mark j (by rwa [List.length_replicate] at hj)

theorem CloseFrame.countedTicks_eq (h : CloseFrame p) :
    countedTicks p 4 = closeSpaces.dropLast := by
  have hlength : (p.rawlen - 2 - 4 + 1) / 2 = closeSpaces.dropLast.length := by
    rw [h.rawlen]
    rfl
  rw [countedTicks, hlength]
  apply countedFrom_eq
  intro j hj
  rw [List.getElem_dropLast]
  exact h.space j _

theorem CloseFrame.spaceRuns (h : CloseFrame p) : SpaceRuns p (10, 12) (10, 11) (12, 13) := by
  have hcounts : histogram p 4 = fun t => closeSpaces.dropLast.count t := by
    unfold histogram
    rw [h.countedTicks_eq]
  have hblock : ∀ t, t = 10 ∨ t = 12 → closeSpaces.dropLast.count t ≠ 0 := by
    rintro t (rfl | rfl) <;> decide
  refine ⟨h.spaces, ?_, ?_, ?_, ?_⟩ <;> rw [hcounts]
  · exact ⟨by decide, fun j hle hlt => hblock j (.inl (by omega)), .inr (by decide), by decide⟩
  · exact ⟨by decide, fun j hle hlt => hblock j (.inr (by omega)), .inr (by decide), by decide⟩
  · decide
  · decide

/-- Spaces of 10 and of 12 ticks are two clusters, but 10 ticks lie in the window around 12,
and every bit is a one. -/
theorem close_spaces_decoded_as_ones : ∃ p u s', ReachableReceiver p ∧ p.stateForISR = .stop ∧
    p.overflowFlag = false ∧
    tryDecoders specificDecoders p (irRemoteInitDecodedIRData p .zero) = some (false, u) ∧
    decodeDistanceWidth p u = some (true, s') ∧
    s'.decodedIRData.protocol = .pulseDistance ∧ s'.decodedIRData.numberOfBits = 20 ∧
    SpaceRuns p (10, 12) (10, 11) (12, 13) ∧ p.raw 4 = some 10 ∧
    decodedBit s'.decodedIRData 0 = true ∧ ¬FollowsRuns p s'.decodedIRData (10, 11) (12, 13) := by
  obtain ⟨p, hp, hframe⟩ := exists_closeFrame
  have hrawlen := hframe.rawlen
  obtain ⟨u, hu⟩ := specificDecoders_refuse hframe.headerMark (by decide) (by omega)
    (by rw [hrawlen]; decide) (irRemoteInitDecodedIRData p .zero)
  obtain ⟨s', hs', hprotocol, hnumber⟩ := exists_decodeDistanceWidth hp.inv (by omega) (by omega)
    hframe.marks hframe.spaces (by decide) u
  rw [hrawlen] at hnumber
  have hspace : p.raw 4 = some 10 := hframe.space 0 (by decide)
  -- the bit of the first space
  obtain ⟨space, haccepted⟩ := exists_accepted hp.inv hframe.stopped hs' hprotocol
  obtain rfl : (10, 12) = space :=
    Option.some.inj (Option.some.inj (hframe.spaces.symm.trans haccepted.spaces))
  have hbit : decodedBit s'.decodedIRData 0 = true :=
    haccepted.bit (by omega) 0 (by omega) 10 hspace
  refine ⟨p, u, s', hp, hframe.stopped, hframe.overflowFlag, hu, hs', hprotocol, hnumber,
    hframe.spaceRuns, hspace, hbit, fun hfollows => ?_⟩
  have hlong := (hfollows 0 (by omega) 10 hspace).1.mp hbit
  exact absurd hlong.1 (by decide)

end IrRemote
