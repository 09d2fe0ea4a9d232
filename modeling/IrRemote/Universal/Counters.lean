import IrRemote.Decode.Bounds
import IrRemote.RoundTrip.DistanceWidth
import IrRemote.Universal.WrappedSums

/-!
# The counters of the universal decoder

The histogram of the marks or of the spaces is kept in bytes, and so are the sums of the
aggregation, but the buffer holds more entries than a byte counts. As long as no block of
neighbouring durations has more, the counters are exact and every mean is stored inside the
array. A duration that occurs too often wraps its counter, and a block of several durations wraps
its sum, which may then be stored outside.

## Main definitions

* `countedTicks`, `histogram` — the entries that are counted, and how often each occurs
* `SafeHistograms` — the counters are exact and the aggregation stays inside the array
* `CountsFit` — the condition on the entries

## Main results

* `countDurations_spec` — what the counting loop leaves
* `safeHistograms_iff` — the frames whose histograms are safe
-/

set_option autoImplicit false

namespace IrRemote

open Clusters

variable {p : IrParams} {array : DurationArray} {i n max start t : ℕ} {s : DecodeState}

/-! ## Counting -/

/-- So many entries from an index on in steps of two. -/
def countedFrom (p : IrParams) : ℕ → ℕ → List ℕ
  | 0, _ => []
  | n + 1, i => (p.raw i).toList ++ countedFrom p n (i + 2)

/-- The marks or the spaces that are counted. -/
def countedTicks (p : IrParams) (start : ℕ) : List ℕ :=
  countedFrom p ((p.rawlen - 2 - start + 1) / 2) start

/-- How often each duration is counted. -/
def histogram (p : IrParams) (start : ℕ) : ℕ → ℕ := fun t => (countedTicks p start).count t

theorem mem_countedFrom : t ∈ countedFrom p n i ↔ ∃ j < n, p.raw (i + 2 * j) = some t := by
  induction n generalizing i with
  | zero => simp [countedFrom]
  | succ n ih =>
    rw [countedFrom, List.mem_append, Option.mem_toList, ih]
    constructor
    · rintro (hfirst | ⟨j, hj, hread⟩)
      · exact ⟨0, Nat.succ_pos n, hfirst⟩
      · refine ⟨j + 1, by omega, ?_⟩
        rwa [Nat.mul_succ, Nat.add_comm (2 * j), ← Nat.add_assoc]
    · rintro ⟨j, hj, hread⟩
      cases j with
      | zero => exact .inl hread
      | succ j =>
        refine .inr ⟨j, by omega, ?_⟩
        rwa [Nat.add_assoc, Nat.add_comm 2, ← Nat.mul_succ]

/-- Entries that are known. -/
theorem countedFrom_eq {l : List ℕ}
    (hread : ∀ j (h : j < l.length), p.raw (i + 2 * j) = some l[j]) :
    countedFrom p l.length i = l := by
  induction l generalizing i with
  | nil => rfl
  | cons t l ih =>
    have hfirst : p.raw i = some t := hread 0 (Nat.succ_pos _)
    have hrest : countedFrom p l.length (i + 2) = l := by
      apply ih
      intro j hj
      rw [Nat.add_assoc, Nat.add_comm 2, ← Nat.mul_succ]
      exact hread (j + 1) (Nat.succ_lt_succ hj)
    rw [List.length_cons, countedFrom, hfirst, hrest]
    rfl

theorem length_countedFrom_le : (countedFrom p n i).length ≤ n := by
  induction n generalizing i with
  | zero => exact le_rfl
  | succ n ih =>
    have hle : (p.raw i).toList.length ≤ 1 := by cases p.raw i <;> simp
    have hrest := @ih (i + 2)
    rw [countedFrom, List.length_append]
    omega

/-- What the counting loop leaves: the counts modulo a byte, and the largest entry. -/
theorem countDurationsFrom_counted {c : DurationArray × ℕ} (hmax : max < durationArraySize)
    (h : countDurationsFrom p n i array max = some (some c)) (harray : ∀ t, array t < 256) :
    c.1 = array.count (countedFrom p n i) ∧ c.2 = (countedFrom p n i).foldl Nat.max max ∧
      max ≤ c.2 ∧ c.2 < durationArraySize ∧ ∀ t ∈ countedFrom p n i, t ≤ c.2 := by
  induction n generalizing i array max with
  | zero =>
    obtain rfl : (array, max) = c := by simpa [countDurationsFrom] using h
    exact ⟨funext fun t => (Nat.mod_eq_of_lt (harray t)).symm, rfl, le_rfl, hmax,
      fun t ht => absurd ht List.not_mem_nil⟩
  | succ n ih =>
    rw [countDurationsFrom, Option.bind_eq_bind, Option.bind_eq_some_iff] at h
    obtain ⟨t, ht, h⟩ := h
    by_cases hsmall : t < durationArraySize
    · rw [if_pos hsmall] at h
      have hbyte : ∀ u, Function.update array t ((array t + 1) % 256) u < 256 := by
        intro u
        by_cases hu : u = t
        · rw [hu, Function.update_self]
          exact Nat.mod_lt _ (by decide)
        · rw [Function.update_of_ne hu]
          exact harray u
      have hlarger : (if max < t then t else max) = Nat.max max t := by
        split_ifs with hlt
        · exact (Nat.max_eq_right hlt.le).symm
        · exact (Nat.max_eq_left (Nat.not_lt.mp hlt)).symm
      obtain ⟨hcount, hlargest, hle, hlt, hall⟩ := ih (by split_ifs <;> assumption) h hbyte
      have hcounted : countedFrom p (n + 1) i = t :: countedFrom p n (i + 2) := by
        rw [countedFrom, ht]
        rfl
      rw [hcounted]
      refine ⟨by rw [hcount, DurationArray.count_cons], ?_, ?_, hlt,
        List.forall_mem_cons.mpr ⟨?_, hall⟩⟩
      · rw [hlargest, hlarger, List.foldl_cons]
      · split_ifs at hle <;> omega
      · split_ifs at hle <;> omega
    -- a longer duration ends the loop without counts
    · rw [if_neg hsmall] at h
      cases h

/-- The loop ends early only at a duration outside the array. -/
theorem exists_of_countDurationsFrom_eq_none
    (h : countDurationsFrom p n i array max = some none) :
    ∃ t ∈ countedFrom p n i, durationArraySize ≤ t := by
  induction n generalizing i array max with
  | zero => cases h
  | succ n ih =>
    rw [countDurationsFrom, Option.bind_eq_bind, Option.bind_eq_some_iff] at h
    obtain ⟨t, ht, h⟩ := h
    rw [countedFrom, ht, Option.toList_some]
    by_cases hsmall : t < durationArraySize
    · rw [if_pos hsmall] at h
      obtain ⟨u, hu, hlarge⟩ := ih h
      exact ⟨u, List.mem_append_right _ hu, hlarge⟩
    · exact ⟨t, List.mem_append_left _ (List.mem_singleton_self t), Nat.not_lt.mp hsmall⟩

theorem countDurations_spec {c : DurationArray × ℕ} (h : countDurations p start = some (some c)) :
    (∀ t, c.1 t = histogram p start t % 256) ∧ c.2 < durationArraySize ∧
      ∀ t, c.2 < t → histogram p start t = 0 := by
  obtain ⟨hcount, -, -, hlt, hall⟩ :=
    countDurationsFrom_counted (by decide) h fun _ => Nat.zero_lt_succ _
  refine ⟨fun t => ?_, hlt, fun t ht => ?_⟩
  · rw [hcount, DurationArray.count, DurationArray.zero, Nat.zero_add]
    rfl
  · exact List.count_eq_zero_of_not_mem fun hmem => absurd (hall t hmem) (Nat.not_le.mpr ht)

/-! ## Safety -/

/-- When the entries from `start` on have been counted, every counter is exact, every mean
is stored at an index up to the largest duration, and every divisor is positive. -/
def HistogramSafe (p : IrParams) (start : ℕ) : Prop :=
  ∀ tDurationArray tIndexOfMaxDuration,
    countDurations p start = some (some (tDurationArray, tIndexOfMaxDuration)) →
      (∀ t < durationArraySize, tDurationArray t = histogram p start t) ∧
      tIndexOfMaxDuration < durationArraySize ∧
      ∀ w ∈ (aggregateTraced tDurationArray tIndexOfMaxDuration).reads,
        w.1 ≤ tIndexOfMaxDuration ∧ w.2 ≠ 0

/-- Whether the spaces are counted: the marks have at most two durations. -/
def MarksAggregated (p : IrParams) : Prop := ∃ mark, durations p 3 = some (some mark)

/-- Both histograms of a frame are safe. -/
structure SafeHistograms (p : IrParams) : Prop where
  marks : HistogramSafe p 3
  spaces : MarksAggregated p → HistogramSafe p 4

theorem BytesFit.lt {f : ℕ → ℕ} (h : BytesFit f) (t : ℕ) : f t < 256 := by
  by_cases ht : f t = 0
  · omega
  · have hblock := h t (t + 1) fun j hle hlt => by
      obtain rfl : j = t := by omega
      exact ht
    rwa [total_succ le_rfl, total_self, Nat.zero_add] at hblock

/-- A counter is exact only up to the largest byte. -/
theorem HistogramSafe.lt (h : HistogramSafe p start)
    (hcounted : ∃ c, countDurations p start = some (some c)) (t : ℕ) :
    histogram p start t < 256 := by
  obtain ⟨⟨array, max⟩, hcount⟩ := hcounted
  obtain ⟨hcounts, hmax, hzero⟩ := countDurations_spec hcount
  rcases Nat.lt_or_ge t durationArraySize with ht | ht
  · have hbyte : array t = histogram p start t % 256 := hcounts t
    rw [← (h array max hcount).1 t ht, hbyte]
    exact Nat.mod_lt _ (by decide)
  · rw [hzero t (hmax.trans_le ht)]
    exact Nat.zero_lt_succ _

/-- The largest duration that is counted. -/
def largestTicks (p : IrParams) (start : ℕ) : ℕ := (countedTicks p start).foldl Nat.max 0

/-- When no entry from `start` on is outside the array, no duration occurs 256 times, and the sum
of a cluster that has more entries is stored up to the largest duration. -/
def CountsFit (p : IrParams) (start : ℕ) : Prop :=
  (∀ t ∈ countedTicks p start, t < durationArraySize) →
    HistogramFits (histogram p start) (largestTicks p start)

section Reachable

variable (hp : ReachableReceiver p) (hstart : start = 3 ∨ start = 4)

include hp hstart

/-- The entries that are counted are those of the frame, and so there are less than 512, and none of
them is 0. -/
theorem total_histogram_lt (max : ℕ) :
    histogram p start 0 = 0 ∧ total (histogram p start) 0 (max + 1) < 512 := by
  have hbuf := hp.inv.rawlen_le
  have hsize : rawBufferLength = 750 := rfl
  constructor
  · refine List.count_eq_zero_of_not_mem fun hmem => ?_
    obtain ⟨j, hj, hread⟩ := mem_countedFrom.mp hmem
    exact absurd (hp.inv.entry_pos _ _ (by omega) (by omega) hread) (by decide)
  · have hle : total (histogram p start) 0 (max + 1) ≤ (countedTicks p start).length :=
      total_count_le _
    have hlength : (countedTicks p start).length ≤ (p.rawlen - 2 - start + 1) / 2 :=
      length_countedFrom_le
    omega

/-- All of the entries are counted when they are inside the array. -/
theorem exists_countDurations (hsmall : ∀ t ∈ countedTicks p start, t < durationArraySize) :
    ∃ c, countDurations p start = some (some c) := by
  have hbuf := hp.inv.rawlen_le
  have hsize : rawBufferLength = 750 := rfl
  obtain ⟨counted, hcounted⟩ :=
    defined_countDurationsFrom (p := p) (n := (p.rawlen - 2 - start + 1) / 2) (i := start)
      (by omega) .zero 0
  cases counted with
  | some c => exact ⟨c, hcounted⟩
  | none =>
    obtain ⟨t, ht, hlarge⟩ := exists_of_countDurationsFrom_eq_none hcounted
    exact absurd (hsmall t ht) (Nat.not_lt.mpr hlarge)

/-- Exact counters are aggregated safely when the sums are stored inside. -/
theorem histogramSafe_iff : HistogramSafe p start ↔ CountsFit p start := by
  obtain ⟨hfirst, -⟩ := total_histogram_lt hp hstart 0
  constructor
  · intro h hsmall
    obtain ⟨⟨array, max⟩, hcount⟩ := exists_countDurations hp hstart hsmall
    have hcounter := h.lt ⟨_, hcount⟩
    obtain ⟨-, -, hwrites⟩ := h array max hcount
    obtain ⟨hcounts, hmax, hzero⟩ := countDurations_spec hcount
    obtain ⟨-, rfl, -⟩ := countDurationsFrom_counted (by decide) hcount fun _ => Nat.zero_lt_succ _
    obtain rfl : array = histogram p start :=
      funext fun t => (hcounts t).trans (Nat.mod_eq_of_lt (hcounter t))
    exact ⟨hcounter, (inside_aggregateTraced_iff hfirst hmax hzero
      (total_histogram_lt hp hstart _).2).mp fun w hw => (hwrites w hw).1⟩
  · intro h array max hcount
    obtain ⟨hcounts, hmax, hzero⟩ := countDurations_spec hcount
    obtain ⟨-, rfl, -, -, hall⟩ :=
      countDurationsFrom_counted (by decide) hcount fun _ => Nat.zero_lt_succ _
    have hfits := h fun t ht => (hall t ht).trans_lt hmax
    obtain rfl : array = histogram p start :=
      funext fun t => (hcounts t).trans (Nat.mod_eq_of_lt (hfits.counter t))
    have hinside := (inside_aggregateTraced_iff hfirst hmax hzero
      (total_histogram_lt hp hstart _).2).mpr hfits.sums
    refine ⟨fun t _ => rfl, hmax, fun w hw => ⟨hinside w hw, ?_⟩⟩
    rw [aggregateTraced, aggregateTracedFrom_eq_scan] at hw
    exact divisors_scanFrom _ _ _ _ _ _ _ w hw

end Reachable

/-- So few entries fit. -/
theorem countsFit_of_length_lt (h : (countedTicks p start).length < 256) : CountsFit p start := by
  have htotal (c : ℕ × ℕ) : total (histogram p start) c.1 c.2 < 256 :=
    (total_count_le _).trans_lt h
  exact fun _ => ⟨fun t => (List.count_le_length).trans_lt h,
    firstInside_of_forall_lt (fun c _ => htotal c) 0⟩

/-- The histograms of a frame are safe when the marks fit, and the spaces too if they are
counted. -/
theorem safeHistograms_iff (hp : ReachableReceiver p) :
    SafeHistograms p ↔ CountsFit p 3 ∧ (MarksAggregated p → CountsFit p 4) := by
  have hmarks := histogramSafe_iff hp (.inl rfl)
  have hspaces := histogramSafe_iff hp (.inr rfl)
  constructor
  · exact fun h => ⟨hmarks.mp h.marks, fun hcalled => hspaces.mp (h.spaces hcalled)⟩
  · exact fun h => ⟨hmarks.mpr h.1, fun hcalled => hspaces.mpr (h.2 hcalled)⟩

/-- A frame of 20 bits. -/
theorem safeHistograms_iff_twenty_bits : ∃ p, ReachableReceiver p ∧ p.rawlen = 44 ∧
    SafeHistograms p := by
  obtain ⟨p, hp, hframe⟩ := exists_sampleFrame (List.replicate 20 true) (by decide)
  have hrawlen : p.rawlen = 44 := hframe.rawlen
  have hlength (start : ℕ) : (countedTicks p start).length < 256 :=
    length_countedFrom_le.trans_lt (by omega)
  exact ⟨p, hp, hrawlen, (safeHistograms_iff hp).mpr
    ⟨countsFit_of_length_lt (hlength 3), fun _ => countsFit_of_length_lt (hlength 4)⟩⟩

/-- The marks of a pulse distance frame that are counted, one for every bit. -/
theorem PulseDistanceTicks.countedTicks_marks {t : FrameTicks} {bits : List Bool}
    (h : PulseDistanceTicks p t bits) :
    countedTicks p 3 = List.replicate bits.length t.mark := by
  have hlength : (p.rawlen - 2 - 3 + 1) / 2 = (List.replicate bits.length t.mark).length := by
    rw [h.rawlen, List.length_replicate]
    omega
  rw [countedTicks, hlength]
  apply countedFrom_eq
  intro j hj
  rw [List.length_replicate] at hj
  rw [List.getElem_replicate]
  exact h.mark j hj.le

/-- A frame of 300 bits reaches the universal decoder, and the counter of its marks has
wrapped. -/
theorem mark_counter_wraps : ∃ p u c, ReachableReceiver p ∧ p.stateForISR = .stop ∧
    p.overflowFlag = false ∧
    tryDecoders specificDecoders p (irRemoteInitDecodedIRData p .zero) = some (false, u) ∧
    countDurations p 3 = some (some c) ∧ histogram p 3 10 = 300 ∧ c.1 10 = 44 ∧
    ¬SafeHistograms p := by
  have hlength : (List.replicate 300 false).length = 300 := List.length_replicate
  obtain ⟨p, hp, hframe⟩ := exists_sampleFrame (List.replicate 300 false) (by
    rw [hlength]
    decide)
  obtain ⟨u, hu⟩ := hframe.refused (by decide) (by rw [hlength]; decide)
    (by rw [hlength]; decide) (irRemoteInitDecodedIRData p .zero)
  have hcounted : countedTicks p 3 = List.replicate 300 10 := by
    rw [hframe.countedTicks_marks, hlength]
    rfl
  have hcount : histogram p 3 10 = 300 := by
    rw [histogram, hcounted, List.count_replicate_self]
  obtain ⟨c, hc⟩ : ∃ c, countDurations p 3 = some (some c) := by
    have hsum : (p.rawlen - 2 - 3 + 1) / 2 = (List.replicate 300 10).length := by
      rw [hframe.rawlen, hlength, List.length_replicate]
    obtain ⟨m, hm, -⟩ := countDurationsFrom_eq (l := List.replicate 300 10) .zero 0
      (fun j hj => by
        rw [List.length_replicate] at hj
        rw [List.getElem_replicate]
        exact hframe.mark j (by rw [hlength]; exact hj.le))
      (fun t ht => List.eq_of_mem_replicate ht ▸ by decide) fun _ => Nat.zero_lt_succ _
    exact ⟨_, by rw [countDurations, hsum, hm]⟩
  have hwrapped : c.1 10 = 44 := by rw [(countDurations_spec hc).1, hcount]
  refine ⟨p, u, c, hp, hframe.stopped, hframe.overflowFlag, hu, hc, hcount, hwrapped,
    fun hsafe => ?_⟩
  have hlt := hsafe.marks.lt ⟨c, hc⟩ 10
  omega

end IrRemote
