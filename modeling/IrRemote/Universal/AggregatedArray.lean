import IrRemote.Universal.Aggregation

/-!
# What the aggregation leaves in the array

`aggregateArrayCounts` clears and writes the array that it is scanning. The mean of a cluster lies
inside the cluster, which is cleared by then, so that what is written is not counted again.

## Main definitions

* `aggregateArray` — `aggregateArrayCounts` with the array that it leaves
* `storeInto` — the means of the clusters, written one by one
* `IsRuns` — the clusters of a histogram in ascending order
* `HoldsTotals` — the totals at the means, and nothing else

## Main results

* `map_aggregateArray` — the array is all that is added to the model of the decoder
* `aggregateArray_eq` — the loop writes the means of the clusters into the cleared array
* `aggregateArrayCounts_spec` — one or two durations with their totals, if there are no more
-/

set_option autoImplicit false

namespace IrRemote

open Clusters

variable {f array : DurationArray} {a b i j n max short long : ℕ} {c : ℕ × ℕ}

/-! ## The array -/

/-- The loop of `aggregateArrayCounts`, with the array behind it. -/
def aggregateArrayFrom : ℕ → ℕ → DurationArray → ℕ → ℕ → ℕ → ℕ →
    Option (Option (DurationArray × ℕ × ℕ))
  | 0, _, aArray, _, _, aShortIndex, aLongIndex => some (some (aArray, aShortIndex, aLongIndex))
  | n + 1, i, aArray, tSum, tWeightedSum, aShortIndex, aLongIndex =>
    let tCurrentDurations := aArray i
    -- add it to sum and remove array content
    let tSum := (tSum + tCurrentDurations) % 256
    let tWeightedSum := (tWeightedSum + tCurrentDurations * i) % 65536
    let aArray := Function.update aArray i 0
    if (tCurrentDurations = 0 ∨ n = 0) ∧ tSum ≠ 0 then
      let tAggregateIndex := ((tWeightedSum + tSum / 2) / tSum) % 256
      if tAggregateIndex < durationArraySize then
        let aArray := Function.update aArray tAggregateIndex tSum
        if aShortIndex = 0 then
          aggregateArrayFrom n (i + 1) aArray 0 0 tAggregateIndex aLongIndex
        else if aLongIndex = 0 then
          aggregateArrayFrom n (i + 1) aArray 0 0 aShortIndex tAggregateIndex
        else some none
      else none
    else aggregateArrayFrom n (i + 1) aArray tSum tWeightedSum aShortIndex aLongIndex

/-- `aggregateArrayCounts`, with both indices cleared: the array and the two durations. -/
def aggregateArray (aArray : DurationArray) (aMaxIndex : ℕ) :
    Option (Option (DurationArray × ℕ × ℕ)) :=
  aggregateArrayFrom (aMaxIndex + 1) 0 aArray 0 0 0 0

theorem map_aggregateArrayFrom (n i : ℕ) (array : DurationArray) (sum weighted short long : ℕ) :
    (aggregateArrayFrom n i array sum weighted short long).map (Option.map Prod.snd) =
      aggregateFrom n i array sum weighted short long := by
  induction n generalizing i array sum weighted short long with
  | zero => rfl
  | succ n ih =>
    simp only [aggregateArrayFrom, aggregateFrom, apply_ite (Option.map (Option.map Prod.snd)), ih]
    rfl

/-- The durations are those of the decoder. -/
theorem map_aggregateArray (array : DurationArray) (max : ℕ) :
    (aggregateArray array max).map (Option.map Prod.snd) = aggregateArrayCounts array max :=
  map_aggregateArrayFrom ..

/-- Write totals at their means, and take the first two. -/
def storeInto : List (ℕ × ℕ) → DurationArray → ℕ → ℕ → Option (Option (DurationArray × ℕ × ℕ))
  | [], aArray, aShortIndex, aLongIndex => some (some (aArray, aShortIndex, aLongIndex))
  | w :: rest, aArray, aShortIndex, aLongIndex =>
    let aArray := Function.update aArray w.1 w.2
    if aShortIndex = 0 then storeInto rest aArray w.1 aLongIndex
    else if aLongIndex = 0 then storeInto rest aArray aShortIndex w.1
    else some none

/-- The writes go to the array only, up to the third one. -/
def arraySink : ScanSink (Option (Option (DurationArray × ℕ × ℕ))) where
  store w rest := if w.1 < durationArraySize then rest else none
  third := some none
  done aArray aShortIndex aLongIndex := some (some (aArray, aShortIndex, aLongIndex))

theorem aggregateArrayFrom_eq_scan (n i : ℕ) (array : DurationArray)
    (sum weighted short long : ℕ) : aggregateArrayFrom n i array sum weighted short long =
      scanFrom arraySink n i array sum weighted short long := by
  induction n generalizing i array sum weighted short long with
  | zero => rfl
  | succ n ih => simp only [aggregateArrayFrom, scanFrom, arraySink, ih]

theorem storeAll_arraySink {stores : List (ℕ × ℕ)} (h : ∀ w ∈ stores, w.1 < durationArraySize)
    (array : DurationArray) (short long : ℕ) :
    storeAll arraySink stores array short long = storeInto stores array short long := by
  induction stores generalizing array short long with
  | nil => rfl
  | cons w rest ih =>
    obtain ⟨hw, hrest⟩ := List.forall_mem_cons.mp h
    simp only [storeAll, storeInto, ih hrest]
    exact if_pos hw

/-- The aggregation of a histogram writes the totals of its clusters, in ascending order, into an
array that is cleared. -/
theorem aggregateArray_eq (hfits : BytesFit f) (hmax : max < durationArraySize)
    (hlast : ∀ j, max < j → f j = 0) :
    aggregateArray f max =
      storeInto ((clusters f (max + 1)).map (meanStore f)) (cleared f 0 (max + 1)) 0 0 := by
  rw [aggregateArray, aggregateArrayFrom_eq_scan, scan_eq _ hfits hmax hlast]
  apply storeAll_arraySink
  exact fun w hw => (fst_lt_of_mem_means hlast hw).trans_le hmax

/-! ## The specification -/

/-- The clusters of a histogram, in ascending order. -/
structure IsRuns (f : DurationArray) (runs : List (ℕ × ℕ)) : Prop where
  mem_iff : ∀ c : ℕ × ℕ, c ∈ runs ↔ IsCluster f c.1 c.2
  ascending : runs.Pairwise fun c d => c.2 < d.1

/-- The total of every cluster is at its mean, and up to `max` there is nothing else. -/
structure HoldsTotals (f : DurationArray) (max : ℕ) (array : DurationArray) : Prop where
  total : ∀ c : ℕ × ℕ, IsCluster f c.1 c.2 → array (mean f c) = Clusters.total f c.1 c.2
  zero : ∀ j ≤ max, (∀ c : ℕ × ℕ, IsCluster f c.1 c.2 → mean f c ≠ j) → array j = 0

/-- A block is part of a cluster. -/
theorem bytesFit_of_isCluster (hlast : ∀ j, max < j → f j = 0)
    (hbytes : ∀ a b, IsCluster f a b → total f a b ≤ 255) : BytesFit f := by
  intro a b hoccurs
  rcases Nat.lt_or_ge a b with hlt | hge
  · have hzero : ∀ j, max + 1 ≤ j → f j = 0 := hlast
    obtain ⟨c, hmem, hle, hin⟩ := exists_mem_clusters hzero (hoccurs a le_rfl hlt)
    have hc := (mem_clusters_iff hzero).mp hmem
    -- the block ends inside the cluster, in front of which a value is missing
    have hend : b ≤ c.2 := Nat.not_lt.mp fun h => hoccurs c.2 hin.le h hc.right
    calc total f a b ≤ total f c.1 c.2 :=
          Finset.sum_le_sum_of_subset (Finset.Ico_subset_Ico hle hend)
      _ < 256 := Nat.lt_succ_of_le (hbytes c.1 c.2 hc)
  · rw [total, Finset.Ico_eq_empty (Nat.not_lt.mpr hge), Finset.sum_empty]
    decide

/-- The means of different clusters are different. -/
theorem IsRuns.ascending_means {runs : List (ℕ × ℕ)} (h : IsRuns f runs) :
    (runs.map (meanStore f)).Pairwise fun v w => v.1 < w.1 := by
  refine List.pairwise_map.mpr (h.ascending.imp_of_mem fun hc hd hlt => ?_)
  have hfirst := ((h.mem_iff _).mp hc).mean_mem.2
  have hsecond := ((h.mem_iff _).mp hd).mean_mem.1
  exact hfirst.trans (hlt.trans_le hsecond)

/-- The first entry is missing, and so no mean is 0. -/
theorem IsRuns.mean_ne_zero {runs : List (ℕ × ℕ)} (h : IsRuns f runs) (hzero : f 0 = 0)
    {w : ℕ × ℕ} (hw : w ∈ runs.map (meanStore f)) : w.1 ≠ 0 := by
  obtain ⟨c, hmem, rfl⟩ := List.mem_map.mp hw
  have hc := (h.mem_iff c).mp hmem
  intro hmean
  have hstart : c.1 = 0 := Nat.le_zero.mp (hmean ▸ hc.mean_mem.1)
  exact hc.occurs 0 hstart.le (hstart ▸ hc.lt) hzero

theorem getD_zero_lt_getD_one {means : List ℕ} (h : means.Pairwise (· < ·))
    (hlong : means[1]?.getD 0 ≠ 0) : means[0]?.getD 0 < means[1]?.getD 0 := by
  rcases means with _ | ⟨v, _ | ⟨w, rest⟩⟩
  · exact absurd rfl hlong
  · exact absurd rfl hlong
  · exact (List.pairwise_cons.mp h).1 w List.mem_cons_self

/-- Write all of the totals. -/
def writeAll (stores : List (ℕ × ℕ)) (array : DurationArray) : DurationArray :=
  stores.foldl (fun array w => Function.update array w.1 w.2) array

theorem writeAll_of_notMem {stores : List (ℕ × ℕ)} (h : ∀ w ∈ stores, w.1 ≠ j) :
    writeAll stores array j = array j := by
  induction stores generalizing array with
  | nil => rfl
  | cons w rest ih =>
    obtain ⟨hw, hrest⟩ := List.forall_mem_cons.mp h
    exact (ih hrest).trans (Function.update_of_ne hw.symm _ _)

theorem writeAll_of_mem {stores : List (ℕ × ℕ)} (h : stores.Pairwise fun v w => v.1 < w.1)
    {w : ℕ × ℕ} (hw : w ∈ stores) : writeAll stores array w.1 = w.2 := by
  induction stores generalizing array with
  | nil => exact absurd hw List.not_mem_nil
  | cons v rest ih =>
    obtain ⟨hv, hrest⟩ := List.pairwise_cons.mp h
    rcases List.mem_cons.mp hw with rfl | hw
    · -- what is written later is written behind it
      exact (writeAll_of_notMem fun u hu => (hv u hu).ne').trans (Function.update_self ..)
    · exact ih hrest hw

/-- With positive means, a third one is too many. -/
theorem storeInto_eq {stores : List (ℕ × ℕ)} (h : ∀ w ∈ stores, w.1 ≠ 0) (array : DurationArray) :
    storeInto stores array 0 0 =
      some (if stores.length ≤ 2 then
        some (writeAll stores array, (stores.map Prod.fst)[0]?.getD 0,
          (stores.map Prod.fst)[1]?.getD 0)
      else none) := by
  rcases stores with _ | ⟨u, _ | ⟨v, _ | ⟨w, rest⟩⟩⟩
  · rfl
  · rfl
  · have hu : u.1 ≠ 0 := h u (by simp)
    simp [storeInto, writeAll, hu]
  · have hu : u.1 ≠ 0 := h u (by simp)
    have hv : v.1 ≠ 0 := h v (by simp)
    simp [storeInto, hu, hv]

/-- The aggregation succeeds when there are at most two clusters. It returns their means in
ascending order and leaves their totals. -/
theorem aggregateArrayCounts_spec (hzero : f 0 = 0) (hmax : max < durationArraySize)
    (hlast : ∀ j, max < j → f j = 0) (hbytes : ∀ a b, IsCluster f a b → total f a b ≤ 255) :
    ∃ runs r, IsRuns f runs ∧ aggregateArray f max = some r ∧ (r.isSome ↔ runs.length ≤ 2) ∧
      ∀ array short long, r = some (array, short, long) →
        short = (runs.map (mean f))[0]?.getD 0 ∧ long = (runs.map (mean f))[1]?.getD 0 ∧
          (long ≠ 0 → short < long) ∧ HoldsTotals f max array := by
  have hruns : IsRuns f (clusters f (max + 1)) :=
    ⟨fun c => mem_clusters_iff hlast, pairwise_clusters hlast⟩
  have hmeans := hruns.ascending_means
  have hfirst : (clusters f (max + 1)).map (mean f) =
      ((clusters f (max + 1)).map (meanStore f)).map Prod.fst := by
    rw [List.map_map]
    rfl
  have heq := aggregateArray_eq (bytesFit_of_isCluster hlast hbytes) hmax hlast
  rw [storeInto_eq fun w hw => hruns.mean_ne_zero hzero hw, List.length_map, ← hfirst] at heq
  refine ⟨clusters f (max + 1), _, hruns, heq, by split_ifs with h <;> simp [h], ?_⟩
  intro array short long hr
  split_ifs at hr with htwo
  obtain ⟨rfl, hdurations⟩ := Prod.mk.inj (Option.some.inj hr)
  obtain ⟨rfl, rfl⟩ := Prod.mk.inj hdurations
  refine ⟨rfl, rfl, fun hlong => ?_, fun c hc => ?_, fun j hj hnone => ?_⟩
  · rw [hfirst] at hlong ⊢
    exact getD_zero_lt_getD_one (List.pairwise_map.mpr hmeans) hlong
  · exact writeAll_of_mem hmeans (List.mem_map_of_mem ((hruns.mem_iff c).mpr hc))
  · rw [writeAll_of_notMem, cleared, if_pos ⟨Nat.zero_le j, by omega⟩]
    intro w hw
    obtain ⟨c, hc, rfl⟩ := List.mem_map.mp hw
    exact hnone c ((hruns.mem_iff c).mp hc)

/-- Two marks of 10 ticks, one of 11, and three of 30. -/
def scatteredMarks : List ℕ := [10, 10, 11, 30, 30, 30]

/-- They are two clusters. -/
theorem aggregateArrayCounts_spec_scatteredMarks :
    ∃ runs r, IsRuns (fun t => scatteredMarks.count t) runs ∧
      aggregateArray (fun t => scatteredMarks.count t) 30 = some r ∧
        (r.isSome ↔ runs.length ≤ 2) ∧
      ∀ array short long, r = some (array, short, long) →
        short = (runs.map (mean fun t => scatteredMarks.count t))[0]?.getD 0 ∧
          long = (runs.map (mean fun t => scatteredMarks.count t))[1]?.getD 0 ∧
          (long ≠ 0 → short < long) ∧ HoldsTotals (fun t => scatteredMarks.count t) 30 array := by
  refine aggregateArrayCounts_spec (by decide) (by decide) (fun j hj => ?_) fun a b _ => ?_
  · refine List.count_eq_zero_of_not_mem fun hmem => ?_
    have hle : ∀ t ∈ scatteredMarks, t ≤ 30 := by decide
    exact absurd (hle j hmem) (Nat.not_le.mpr hj)
  · exact (total_count_le scatteredMarks).trans (by decide)

end IrRemote
