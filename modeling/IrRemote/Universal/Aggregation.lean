import IrRemote.Library.Clusters
import IrRemote.Library.Traced
import IrRemote.Link.Histogram

/-!
# The aggregation finds the clusters

As long as no cluster of a histogram has more entries than a byte counts, the sums of
`aggregateArrayCounts` are exact: it stores the mean of every cluster, in ascending order,
takes the first two and gives up at the third.

## Main definitions

* `aggregateTraced` — `aggregateArrayCounts` with its writes to the array
* `storeMeans` — what it does with the means of the clusters
* `scanFrom`, `storeAll` — the same for any use of the writes
* `BytesFit` — no block of values that occur has more entries than a byte counts

## Main results

* `scan_eq` — whatever becomes of the writes, they are the totals of the clusters
* `aggregateTraced_eq` — the aggregation of a histogram is that of its clusters
-/

set_option autoImplicit false

namespace IrRemote

open Clusters

variable {f array : DurationArray} {a i j n short long : ℕ}

/-! ## The writes of the aggregation -/

/-- `aArray[tAggregateIndex] = tSum`, a write of the second at the first. -/
def storeAggregate (w : ℕ × ℕ) : Traced (ℕ × ℕ) Unit :=
  Traced.read (fun w => if w.1 < durationArraySize then some () else none) w

/-- The loop of `aggregateArrayCounts` with its writes. The sum is the divisor of the mean. -/
def aggregateTracedFrom : ℕ → ℕ → DurationArray → ℕ → ℕ → ℕ → ℕ →
    Traced (ℕ × ℕ) (Option (ℕ × ℕ))
  | 0, _, _, _, _, aShortIndex, aLongIndex => pure (some (aShortIndex, aLongIndex))
  | n + 1, i, aArray, tSum, tWeightedSum, aShortIndex, aLongIndex =>
    let tCurrentDurations := aArray i
    let tSum := (tSum + tCurrentDurations) % 256
    let tWeightedSum := (tWeightedSum + tCurrentDurations * i) % 65536
    let aArray := Function.update aArray i 0
    if (tCurrentDurations = 0 ∨ n = 0) ∧ tSum ≠ 0 then do
      let tAggregateIndex := ((tWeightedSum + tSum / 2) / tSum) % 256
      storeAggregate (tAggregateIndex, tSum)
      let aArray := Function.update aArray tAggregateIndex tSum
      if aShortIndex = 0 then aggregateTracedFrom n (i + 1) aArray 0 0 tAggregateIndex aLongIndex
      else if aLongIndex = 0 then
        aggregateTracedFrom n (i + 1) aArray 0 0 aShortIndex tAggregateIndex
      else pure none
    else aggregateTracedFrom n (i + 1) aArray tSum tWeightedSum aShortIndex aLongIndex

/-- `aggregateArrayCounts` with its writes. -/
def aggregateTraced (aArray : DurationArray) (aMaxIndex : ℕ) :
    Traced (ℕ × ℕ) (Option (ℕ × ℕ)) :=
  aggregateTracedFrom (aMaxIndex + 1) 0 aArray 0 0 0 0

theorem result_aggregateTracedFrom (n i : ℕ) (array : DurationArray) (sum weighted : ℕ)
    (short long : ℕ) : (aggregateTracedFrom n i array sum weighted short long).result =
      aggregateFrom n i array sum weighted short long := by
  induction n generalizing i array sum weighted short long with
  | zero => rfl
  | succ n ih =>
    simp only [aggregateTracedFrom, aggregateFrom, storeAggregate, Traced.result_ite,
      Traced.result_bind, Traced.result_read, Traced.result_pure, ih]
    split_ifs <;> rfl

theorem result_aggregateTraced (array : DurationArray) (max : ℕ) :
    (aggregateTraced array max).result = aggregateArrayCounts array max :=
  result_aggregateTracedFrom ..

/-! ## The means of the clusters -/

/-- Store the means of clusters with their totals, and take the first two. -/
def storeMeans : List (ℕ × ℕ) → ℕ → ℕ → Traced (ℕ × ℕ) (Option (ℕ × ℕ))
  | [], aShortIndex, aLongIndex => pure (some (aShortIndex, aLongIndex))
  | w :: rest, aShortIndex, aLongIndex => do
    storeAggregate w
    if aShortIndex = 0 then storeMeans rest w.1 aLongIndex
    else if aLongIndex = 0 then storeMeans rest aShortIndex w.1
    else pure none

/-- The mean of a cluster and its total. -/
def meanStore (f : DurationArray) (c : ℕ × ℕ) : ℕ × ℕ := (mean f c, total f c.1 c.2)

/-- No block of values that occur has more entries than a byte counts. -/
def BytesFit (f : ℕ → ℕ) : Prop :=
  ∀ a b, (∀ j, a ≤ j → j < b → f j ≠ 0) → total f a b < 256

/-- The sums of an open block are exact. -/
theorem sums_lt_of_open (h : Open f a i) (hfits : BytesFit f) (hi : i ≤ durationArraySize) :
    total f a i < 256 ∧ weight f a i < 65536 := by
  have htotal := hfits a i h.occurs
  refine ⟨htotal, ?_⟩
  calc weight f a i ≤ (i - 1) * total f a i := weight_le_mul_total
    _ ≤ 50 * 256 := Nat.mul_le_mul (by simp only [durationArraySize] at hi; omega) htotal.le
    _ < 65536 := by decide

/-- What a block that ends stores. -/
theorem store_of_open (h : Open f a i) (hlt : a < i) (hi : i ≤ durationArraySize) :
    total f a i ≠ 0 ∧ (weight f a i + total f a i / 2) / total f a i % 256 = mean f (a, i) ∧
      mean f (a, i) < i := by
  have hpos : 0 < total f a i := total_pos hlt h.occurs
  -- the mean is assigned to a byte, and lies inside the array
  obtain ⟨-, hmean⟩ := @mean_mem f (a, i) hpos hlt
  have hsize : durationArraySize = 50 := rfl
  exact ⟨hpos.ne', Nat.mod_eq_of_lt (hmean.trans_le (by omega)), hmean⟩

/-! ## Scans -/

/-- What becomes of the writes of a scan, and of what it ends with. -/
structure ScanSink (α : Type) where
  /-- A sum is stored at its mean, in front of the rest of the scan. -/
  store : ℕ × ℕ → α → α
  /-- The result when there is a third mean. -/
  third : α
  done : DurationArray → ℕ → ℕ → α

variable {α : Type} (sink : ScanSink α)

/-- The loop of `aggregateArrayCounts`, for any use of its writes. -/
def scanFrom : ℕ → ℕ → DurationArray → ℕ → ℕ → ℕ → ℕ → α
  | 0, _, aArray, _, _, aShortIndex, aLongIndex => sink.done aArray aShortIndex aLongIndex
  | n + 1, i, aArray, tSum, tWeightedSum, aShortIndex, aLongIndex =>
    let tCurrentDurations := aArray i
    let tSum := (tSum + tCurrentDurations) % 256
    let tWeightedSum := (tWeightedSum + tCurrentDurations * i) % 65536
    let aArray := Function.update aArray i 0
    if (tCurrentDurations = 0 ∨ n = 0) ∧ tSum ≠ 0 then
      let tAggregateIndex := ((tWeightedSum + tSum / 2) / tSum) % 256
      sink.store (tAggregateIndex, tSum) <|
        let aArray := Function.update aArray tAggregateIndex tSum
        if aShortIndex = 0 then scanFrom n (i + 1) aArray 0 0 tAggregateIndex aLongIndex
        else if aLongIndex = 0 then scanFrom n (i + 1) aArray 0 0 aShortIndex tAggregateIndex
        else sink.third
    else scanFrom n (i + 1) aArray tSum tWeightedSum aShortIndex aLongIndex

/-- The writes of some means with their sums. -/
def storeAll : List (ℕ × ℕ) → DurationArray → ℕ → ℕ → α
  | [], aArray, aShortIndex, aLongIndex => sink.done aArray aShortIndex aLongIndex
  | w :: rest, aArray, aShortIndex, aLongIndex =>
    sink.store w <|
      let aArray := Function.update aArray w.1 w.2
      if aShortIndex = 0 then storeAll rest aArray w.1 aLongIndex
      else if aLongIndex = 0 then storeAll rest aArray aShortIndex w.1
      else sink.third

/-- The array with so many entries from `i` on cleared. -/
def cleared (array : DurationArray) (i n : ℕ) : DurationArray :=
  fun j => if i ≤ j ∧ j < i + n then 0 else array j

theorem cleared_zero (array : DurationArray) (i : ℕ) : cleared array i 0 = array :=
  funext fun _ => if_neg fun h => absurd h.2 (Nat.not_lt.mpr h.1)

theorem cleared_update (array : DurationArray) (i n : ℕ) :
    cleared (Function.update array i 0) (i + 1) n = cleared array i (n + 1) := by
  funext j
  rw [cleared, cleared, Function.update_apply]
  split_ifs <;> first | rfl | omega

theorem cleared_update_of_lt (h : j < i) (array : DurationArray) (n v : ℕ) :
    cleared (Function.update array j v) i n = Function.update (cleared array i n) j v := by
  funext k
  rw [cleared, Function.update_apply, Function.update_apply, cleared]
  split_ifs <;> first | rfl | omega

/-- What is stored below an index is not visited from there on. -/
theorem update_eq_of_lt (harray : ∀ j, i ≤ j → array j = f j) (hlt : a < i) (v : ℕ) :
    ∀ j, i ≤ j → Function.update array a v j = f j := by
  intro j hj
  rw [Function.update_of_ne (hlt.trans_le hj).ne', harray j hj]

/-- The value that has been visited is cleared, the others are as they were. -/
theorem update_visited (harray : ∀ j, i ≤ j → array j = f j) :
    ∀ j, i + 1 ≤ j → Function.update array i 0 j = f j :=
  update_eq_of_lt (fun j hj => harray j (Nat.le_of_succ_le hj)) (Nat.lt_succ_self i) 0

/-- A scan writes the totals of the clusters, in its order, into an array that is cleared as far as
it comes. -/
theorem scanFrom_eq (h : Open f a i) (hfits : BytesFit f)
    (harray : ∀ j, i ≤ j → array j = f j) (hzero : ∀ j, i + n ≤ j → f j = 0)
    (hsize : i + n ≤ durationArraySize) (hend : n = 0 → a = i) :
    scanFrom sink n i array (total f a i) (weight f a i) short long =
      storeAll sink ((clustersFrom f n i a).map (meanStore f)) (cleared array i n) short long := by
  induction n generalizing i a array short long with
  | zero =>
    obtain rfl := hend rfl
    rw [clustersFrom, if_neg (Nat.lt_irrefl a), cleared_zero]
    rfl
  | succ n ih =>
    have hzero' : ∀ j, i + 1 + n ≤ j → f j = 0 := fun j hj => hzero j (by omega)
    have hcur : array i = f i := harray i le_rfl
    have hclear : ∀ j, i + 1 ≤ j → Function.update array i 0 j = f j := update_visited harray
    by_cases hi : f i = 0
    -- the open block ends in front of a missing value
    · obtain ⟨htotal, hweight⟩ := sums_lt_of_open h hfits (by omega)
      have hrest : ∀ array', (∀ j, i + 1 ≤ j → array' j = f j) → ∀ short long,
          scanFrom sink n (i + 1) array' 0 0 short long =
            storeAll sink ((clustersFrom f n (i + 1) (i + 1)).map (meanStore f))
              (cleared array' (i + 1) n) short long := by
        intro array' harray' short long
        have hopen : scanFrom sink n (i + 1) array' (total f (i + 1) (i + 1))
            (weight f (i + 1) (i + 1)) short long =
              storeAll sink ((clustersFrom f n (i + 1) (i + 1)).map (meanStore f))
                (cleared array' (i + 1) n) short long :=
          ih (open_succ hi) harray' hzero' (by omega) fun _ => rfl
        rwa [total_self, weight_self] at hopen
      rw [clustersFrom, if_pos hi, scanFrom]
      simp only [hcur, hi, Nat.add_zero, Nat.zero_mul, Nat.mod_eq_of_lt htotal,
        Nat.mod_eq_of_lt hweight, true_or, true_and]
      rcases Nat.lt_or_ge a i with hlt | hge
      · obtain ⟨hne, hmean, hmeanLt⟩ := store_of_open h hlt (by omega)
        have hstored := update_eq_of_lt hclear (Nat.lt_succ_of_lt hmeanLt) (total f a i)
        rw [if_pos hne, if_pos hlt, hmean]
        simp only [hrest _ hstored, List.cons_append, List.nil_append, List.map_cons, storeAll,
          meanStore, cleared_update_of_lt (Nat.lt_succ_of_lt hmeanLt), cleared_update]
      · obtain rfl := Nat.le_antisymm h.le hge
        rw [total_self, weight_self, if_neg (Nat.lt_irrefl a), if_neg (not_not_intro rfl),
          hrest _ hclear, cleared_update]
        rfl
    -- the value belongs to the open block
    · have hopen := h.succ hi
      obtain ⟨htotal, hweight⟩ := sums_lt_of_open hopen hfits (by omega)
      rw [clustersFrom, if_neg hi, scanFrom]
      simp only [hcur, ← total_succ h.le, ← weight_succ h.le, Nat.mod_eq_of_lt htotal,
        Nat.mod_eq_of_lt hweight]
      rcases Nat.eq_zero_or_pos n with rfl | hpos
      -- the block ends with the last value
      · have hlt : a < i + 1 := Nat.lt_succ_of_le h.le
        obtain ⟨hne, hmean, -⟩ := store_of_open hopen hlt (by omega)
        rw [if_pos ⟨.inr rfl, hne⟩, hmean, clustersFrom, if_pos hlt]
        simp only [scanFrom, List.map_cons, List.map_nil, storeAll, meanStore, ← cleared_update,
          cleared_zero]
      · have hgoes : ¬((f i = 0 ∨ n = 0) ∧ total f a (i + 1) ≠ 0) := by omega
        rw [if_neg hgoes, ← cleared_update]
        exact ih hopen hclear hzero' (by omega) (by omega)

/-- A scan of a histogram writes the totals of its clusters into a cleared array. -/
theorem scan_eq {max : ℕ} (hfits : BytesFit f) (hmax : max < durationArraySize)
    (hzero : ∀ j, max < j → f j = 0) :
    scanFrom sink (max + 1) 0 f 0 0 0 0 =
      storeAll sink ((clusters f (max + 1)).map (meanStore f)) (cleared f 0 (max + 1)) 0 0 := by
  have hopen : scanFrom sink (max + 1) 0 f (total f 0 0) (weight f 0 0) 0 0 =
      storeAll sink ((clustersFrom f (max + 1) 0 0).map (meanStore f)) (cleared f 0 (max + 1))
        0 0 :=
    scanFrom_eq sink open_zero hfits (fun _ _ => rfl) (fun j hj => hzero j (by omega))
      (by omega) (by omega)
  rwa [total_self, weight_self] at hopen

/-- A mean lies between the first value and the last. -/
theorem fst_lt_of_mem_means {max : ℕ} (hzero : ∀ j, max < j → f j = 0) {w : ℕ × ℕ}
    (hw : w ∈ (clusters f (max + 1)).map (meanStore f)) : w.1 < max + 1 := by
  obtain ⟨c, hc, rfl⟩ := List.mem_map.mp hw
  have hcluster := (mem_clusters_iff hzero).mp hc
  exact hcluster.mean_mem.2.trans_le (hcluster.end_le hzero)

/-! ## The scan with its writes -/

/-- Every write is recorded. -/
def tracedSink : ScanSink (Traced (ℕ × ℕ) (Option (ℕ × ℕ))) where
  store w rest := do
    storeAggregate w
    rest
  third := pure none
  done _ aShortIndex aLongIndex := pure (some (aShortIndex, aLongIndex))

theorem aggregateTracedFrom_eq_scan (n i : ℕ) (array : DurationArray)
    (sum weighted short long : ℕ) : aggregateTracedFrom n i array sum weighted short long =
      scanFrom tracedSink n i array sum weighted short long := by
  induction n generalizing i array sum weighted short long with
  | zero => rfl
  | succ n ih => simp only [aggregateTracedFrom, scanFrom, tracedSink, ih]

theorem storeAll_tracedSink (stores : List (ℕ × ℕ)) (array : DurationArray) (short long : ℕ) :
    storeAll tracedSink stores array short long = storeMeans stores short long := by
  induction stores generalizing array short long with
  | nil => rfl
  | cons w rest ih =>
    simp only [storeAll, storeMeans, ih]
    rfl

/-- The aggregation of a histogram is that of its clusters. -/
theorem aggregateTraced_eq {max : ℕ} (hfits : BytesFit f) (hmax : max < durationArraySize)
    (hzero : ∀ j, max < j → f j = 0) :
    aggregateTraced f max = storeMeans ((clusters f (max + 1)).map (meanStore f)) 0 0 := by
  rw [aggregateTraced, aggregateTracedFrom_eq_scan, scan_eq _ hfits hmax hzero,
    storeAll_tracedSink]

/-! ## What is stored -/

theorem reads_storeMeans (stores : List (ℕ × ℕ)) (short long : ℕ) :
    ∀ w ∈ (storeMeans stores short long).reads, w ∈ stores := by
  induction stores generalizing short long with
  | nil => exact fun w hw => absurd hw List.not_mem_nil
  | cons u rest ih =>
    have hreads : (storeMeans (u :: rest) short long).ReadsIn (· ∈ u :: rest) := by
      unfold storeMeans
      refine .bind (.read (List.mem_cons_self ..)) fun _ _ => .ite (fun _ w hw => ?_) fun _ =>
        .ite (fun _ w hw => ?_) fun _ => .pure _
      · exact List.mem_cons_of_mem u (ih _ _ w hw)
      · exact List.mem_cons_of_mem u (ih _ _ w hw)
    exact hreads

/-- With positive means inside the array, two durations are those of two clusters. -/
theorem result_storeMeans_two {stores : List (ℕ × ℕ)} {r : ℕ × ℕ}
    (hstores : ∀ w ∈ stores, 0 < w.1 ∧ w.1 < durationArraySize) (hlong : r.2 ≠ 0)
    (h : (storeMeans stores 0 0).result = some (some r)) :
    ∃ v w, stores = [v, w] ∧ r = (v.1, w.1) := by
  have hstore : ∀ w ∈ stores, (storeAggregate w).result = some () := fun w hw =>
    if_pos (hstores w hw).2
  -- with fewer than two clusters the long index stays 0, with more there is no result
  rcases stores with _ | ⟨v, _ | ⟨w, _ | ⟨x, rest⟩⟩⟩
  · obtain rfl : (0, 0) = r := Option.some.inj (Option.some.inj h)
    exact absurd rfl hlong
  · simp only [storeMeans, Traced.result_bind, hstore v (by simp), if_true, Traced.result_pure,
      Option.bind_eq_bind, Option.bind_some, Option.some.injEq] at h
    exact absurd (congrArg Prod.snd h).symm hlong
  · have hv : v.1 ≠ 0 := (hstores v (by simp)).1.ne'
    simp only [storeMeans, Traced.result_bind, hstore v (by simp), hstore w (by simp), if_true,
      if_neg hv, Traced.result_pure, Option.bind_eq_bind, Option.bind_some,
      Option.some.injEq] at h
    exact ⟨v, w, rfl, h.symm⟩
  · have hv : v.1 ≠ 0 := (hstores v (by simp)).1.ne'
    have hw : w.1 ≠ 0 := (hstores w (by simp)).1.ne'
    simp [storeMeans, hstore v (by simp), hstore w (by simp), hstore x (by simp), hv, hw] at h

end IrRemote
