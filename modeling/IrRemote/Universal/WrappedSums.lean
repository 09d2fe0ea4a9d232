import IrRemote.Universal.Aggregation

/-!
# Sums that wrap

The sums of `aggregateArrayCounts` are bytes. As long as a histogram has fewer than 512 entries, at
most one of its clusters has more than a byte counts. Its sum is then divided by what is left of
the number of its entries, and the index that results may lie outside the array. When it has
exactly 256, nothing is left: nothing is stored, and the weighted sum goes into that of the next
cluster. Behind such a cluster every index is inside again, whatever has been written.

## Main definitions

* `storeIndex` — where a sum is stored
* `StoredInside` — where the entries of a cluster are stored
* `HistogramFits` — the counters do not wrap, and no sum that does is stored outside

## Main results

* `inside_of_total_lt` — sums that are bytes are stored inside
* `inside_aggregateTraced_iff` — when every sum is stored inside
-/

set_option autoImplicit false

namespace IrRemote

open Clusters

variable {f array : DurationArray} {a b i max n short long sum weighted : ℕ}

/-! ## The condition -/

/-- Where a sum is stored. -/
def storeIndex (tWeightedSum tSum : ℕ) : ℕ := (tWeightedSum + tSum / 2) / tSum % 256

/-- The entries of a cluster are stored up to `max`: those behind 256, and when there are exactly
so many, the weighted sum together with the entries of the next cluster. -/
structure StoredInside (f : ℕ → ℕ) (max : ℕ) (c : ℕ × ℕ) (next : Option (ℕ × ℕ)) : Prop where
  wrapped : 256 < total f c.1 c.2 →
    storeIndex (weight f c.1 c.2) (total f c.1 c.2 - 256) ≤ max
  carried : total f c.1 c.2 = 256 → ∀ d ∈ next,
    storeIndex (weight f c.1 c.2 + weight f d.1 d.2) (total f d.1 d.2) ≤ max

/-- So many entries are stored as they are. -/
theorem StoredInside.of_lt {c : ℕ × ℕ} (h : total f c.1 c.2 < 256) (next : Option (ℕ × ℕ)) :
    StoredInside f max c next :=
  ⟨fun hwrapped => absurd h (Nat.lt_asymm hwrapped), fun hcarried => absurd hcarried h.ne⟩

/-- Each of the clusters that come before a third one has been stored is stored inside. -/
def FirstInside (f : ℕ → ℕ) (max stored : ℕ) (runs : List (ℕ × ℕ)) : Prop :=
  ∀ before c after, runs = before ++ c :: after → before.length + stored < 3 →
    StoredInside f max c after.head?

/-- No duration is counted 256 times, and no sum is stored behind the largest duration. -/
structure HistogramFits (f : ℕ → ℕ) (max : ℕ) : Prop where
  counter : ∀ t, f t < 256
  sums : FirstInside f max 0 (clusters f durationArraySize)

theorem firstInside_nil {stored : ℕ} : FirstInside f max stored [] := fun before c after h =>
  absurd h.symm (List.append_ne_nil_of_right_ne_nil before (List.cons_ne_nil c after))

theorem firstInside_of_le {stored : ℕ} (h : 3 ≤ stored) (runs : List (ℕ × ℕ)) :
    FirstInside f max stored runs := fun _ _ _ _ hlt => by omega

theorem firstInside_cons {stored : ℕ} {c : ℕ × ℕ} {runs : List (ℕ × ℕ)} :
    FirstInside f max stored (c :: runs) ↔
      (stored < 3 → StoredInside f max c runs.head?) ∧ FirstInside f max (stored + 1) runs := by
  constructor
  · intro h
    refine ⟨fun hstored => h [] c runs rfl (by simpa using hstored), ?_⟩
    intro before d after hruns hlt
    refine h (c :: before) d after (by rw [hruns, List.cons_append]) ?_
    rw [List.length_cons]
    omega
  · rintro ⟨hfirst, hrest⟩ before d after hruns hlt
    cases before with
    | nil =>
      obtain ⟨rfl, rfl⟩ := List.cons.inj hruns
      exact hfirst (by simpa using hlt)
    | cons e before =>
      obtain ⟨-, hruns⟩ := List.cons.inj hruns
      rw [List.length_cons] at hlt
      exact hrest before d after hruns (by omega)

/-- Clusters of so few entries are stored inside. -/
theorem firstInside_of_forall_lt {runs : List (ℕ × ℕ)}
    (h : ∀ c ∈ runs, total f c.1 c.2 < 256) (stored : ℕ) : FirstInside f max stored runs := by
  intro before c after hruns _
  exact .of_lt (h c (by rw [hruns]; exact List.mem_append_right _ List.mem_cons_self)) _

/-! ## Totals -/

theorem total_le_total {a' b' : ℕ} (ha : a' ≤ a) (hb : b ≤ b') : total f a b ≤ total f a' b' :=
  Finset.sum_le_sum_of_subset (Finset.Ico_subset_Ico ha hb)

theorem total_add_total (hab : a ≤ b) (hbn : b ≤ n) : total f a b + total f b n = total f a n :=
  Finset.sum_Ico_consecutive f hab hbn

theorem total_congr (h : ∀ j, a ≤ j → array j = f j) : total array a b = total f a b :=
  Finset.sum_congr rfl fun j hj => h j (Finset.mem_Ico.mp hj).1

/-- One more entry in the array. -/
theorem total_update_le (k v : ℕ) :
    total (Function.update array k v) a b ≤ total array a b + v := by
  have hone : ∑ j ∈ Finset.Ico a b, (if j = k then v else 0) ≤ v := by
    rw [Finset.sum_ite_eq']
    split_ifs <;> omega
  calc total (Function.update array k v) a b
      ≤ ∑ j ∈ Finset.Ico a b, (array j + if j = k then v else 0) := by
        refine Finset.sum_le_sum fun j _ => ?_
        rw [Function.update_apply]
        split_ifs <;> omega
    _ = total array a b + ∑ j ∈ Finset.Ico a b, (if j = k then v else 0) :=
        Finset.sum_add_distrib
    _ ≤ total array a b + v := Nat.add_le_add_left hone _

/-- Entries below the size of the array have no large weight. -/
theorem weight_le (hb : b ≤ durationArraySize) : weight f a b ≤ 50 * total f a b :=
  weight_le_mul_total.trans (Nat.mul_le_mul_right _ ((Nat.sub_le b 1).trans hb))

/-! ## Scans -/

/-- A block ends: its sum is stored, unless it is 0. -/
def endBlock {α : Type} (sink : ScanSink α) (n i : ℕ) (aArray : DurationArray)
    (tSum tWeightedSum aShortIndex aLongIndex : ℕ) : α :=
  if tSum ≠ 0 then
    sink.store (storeIndex tWeightedSum tSum, tSum) <|
      let aArray := Function.update aArray (storeIndex tWeightedSum tSum) tSum
      if aShortIndex = 0 then
        scanFrom sink n i aArray 0 0 (storeIndex tWeightedSum tSum) aLongIndex
      else if aLongIndex = 0 then
        scanFrom sink n i aArray 0 0 aShortIndex (storeIndex tWeightedSum tSum)
      else sink.third
  else scanFrom sink n i aArray tSum tWeightedSum aShortIndex aLongIndex

section Steps

variable {α : Type} {sink : ScanSink α}

theorem scanFrom_of_ends (h : array i = 0 ∨ n = 0) :
    scanFrom sink (n + 1) i array sum weighted short long =
      endBlock sink n (i + 1) (Function.update array i 0) ((sum + array i) % 256)
        ((weighted + array i * i) % 65536) short long := by
  rw [scanFrom, endBlock]
  simp only [h, true_and]
  rfl

theorem scanFrom_of_goes_on (h : ¬(array i = 0 ∨ n = 0)) :
    scanFrom sink (n + 1) i array sum weighted short long =
      scanFrom sink n (i + 1) (Function.update array i 0) ((sum + array i) % 256)
        ((weighted + array i * i) % 65536) short long := by
  rw [scanFrom]
  simp only [h, false_and, if_false]

end Steps

/-- Every sum is stored up to `max`. -/
def Inside (max : ℕ) (x : Traced (ℕ × ℕ) (Option (ℕ × ℕ))) : Prop := x.ReadsIn fun w => w.1 ≤ max

/-- Inside the array the scan goes on behind a store. -/
theorem inside_store_iff (hmax : max < durationArraySize) (w : ℕ × ℕ)
    (rest : Traced (ℕ × ℕ) (Option (ℕ × ℕ))) :
    Inside max (tracedSink.store w rest) ↔ w.1 ≤ max ∧ Inside max rest := by
  constructor
  · intro h
    have hw : w.1 ≤ max := h w (by
      change w ∈ (Traced.bind (storeAggregate w) fun _ => rest).reads
      unfold Traced.bind
      cases (storeAggregate w).result with
      | none => exact List.mem_singleton_self w
      | some _ => exact List.mem_append_left _ (List.mem_singleton_self w))
    have hstore : (storeAggregate w).result = some () := if_pos (hw.trans_lt hmax)
    refine ⟨hw, fun v hv => h v ?_⟩
    change v ∈ (Traced.bind (storeAggregate w) fun _ => rest).reads
    unfold Traced.bind
    rw [hstore]
    exact List.mem_append_right _ hv
  · rintro ⟨hw, hrest⟩
    exact .bind (.read hw) fun _ _ => hrest

theorem inside_third : Inside max tracedSink.third := .pure _

/-- No sum is divided by 0. -/
theorem divisors_scanFrom (n i : ℕ) (array : DurationArray) (sum weighted short long : ℕ) :
    (scanFrom tracedSink n i array sum weighted short long).ReadsIn fun w => w.2 ≠ 0 := by
  induction n generalizing i array sum weighted short long with
  | zero => exact .pure _
  | succ n ih =>
    rw [scanFrom]
    refine .ite (fun hends => .bind (.read hends.2) fun _ _ => ?_) fun _ =>
      ih _ _ _ _ _ _
    exact .ite (fun _ => ih _ _ _ _ _ _) fun _ => .ite (fun _ => ih _ _ _ _ _ _) fun _ => .pure _

/-- With so few entries left every sum is stored inside. -/
theorem inside_of_total_lt (hn : i + n = max + 1) (hmax : max < durationArraySize)
    (hzero : ∀ j, max < j → array j = 0) (htotal : total array i (max + 1) < 256)
    (short long : ℕ) : Inside max (scanFrom tracedSink n i array 0 0 short long) := by
  -- what lies in front of the scan does not matter
  let g : DurationArray := fun j => if i ≤ j then array j else 0
  have hopen : Open g i i := by
    refine ⟨le_rfl, fun j hle hlt => absurd hlt (Nat.not_lt.mpr hle), ?_⟩
    rcases Nat.eq_zero_or_pos i with hi | hi
    · exact .inl hi
    · exact .inr (if_neg (by omega))
  have hlast : ∀ j, max + 1 ≤ j → g j = 0 := by
    intro j hj
    by_cases hi : i ≤ j
    · exact (if_pos hi).trans (hzero j hj)
    · exact if_neg hi
  have hfits : BytesFit g := by
    intro c d _
    refine lt_of_le_of_lt ?_ htotal
    calc total g c d ≤ total g i (max + 1) := by
          refine Finset.sum_le_sum_of_ne_zero fun j _ hj => Finset.mem_Ico.mpr ⟨?_, ?_⟩
          · exact Nat.not_lt.mp fun hlt => hj (if_neg (Nat.not_le.mpr hlt))
          · exact Nat.not_le.mp fun hle => hj (hlast j hle)
      _ = total array i (max + 1) := total_congr fun j hj => if_pos hj
  have hscan : scanFrom tracedSink n i array (total g i i) (weight g i i) short long =
      storeAll tracedSink ((clustersFrom g n i i).map (meanStore g)) (cleared array i n)
        short long :=
    scanFrom_eq tracedSink hopen hfits (fun j hj => (if_pos hj).symm)
      (fun j hj => hlast j (hn ▸ hj)) (by omega) fun _ => rfl
  rw [total_self, weight_self, storeAll_tracedSink] at hscan
  rw [hscan]
  intro w hw
  obtain ⟨c, hc, rfl⟩ := List.mem_map.mp (reads_storeMeans _ _ _ w hw)
  have hcluster := ((mem_clustersFrom_iff hopen fun j hj => hlast j (hn ▸ hj)).mp hc).1
  exact Nat.le_of_lt_succ (hcluster.mean_mem.2.trans_le (hcluster.end_le hlast))

/-- Behind a sum that is stored inside so few entries are stored inside too. -/
theorem inside_endBlock_iff (hn : i + n = max + 1) (hmax : max < durationArraySize)
    (hzero : ∀ j, max < j → array j = 0) (hsum : sum ≠ 0)
    (htotal : total array i (max + 1) + sum < 256) (short long : ℕ) :
    Inside max (endBlock tracedSink n i array sum weighted short long) ↔
      storeIndex weighted sum ≤ max := by
  rw [endBlock, if_pos hsum, inside_store_iff hmax]
  refine and_iff_left_of_imp fun hindex => ?_
  have hlast : ∀ j, max < j → Function.update array (storeIndex weighted sum) sum j = 0 := by
    intro j hj
    rw [Function.update_of_ne (hindex.trans_lt hj).ne', hzero j hj]
  have hrest := inside_of_total_lt hn hmax hlast ((total_update_le _ _).trans_lt htotal)
  dsimp only
  split_ifs
  · exact hrest _ _
  · exact hrest _ _
  · exact inside_third

/-- How many durations are known. -/
def storedCount (aShortIndex aLongIndex : ℕ) : ℕ :=
  if aShortIndex = 0 then 0 else if aLongIndex = 0 then 1 else 2

theorem storedCount_lt (short long : ℕ) : storedCount short long < 3 := by
  rw [storedCount]
  split_ifs <;> decide

/-- A cluster ends, and the rest of the scan is known. -/
theorem inside_endBlock_iff_stored (hlt : a < b) (hb : b ≤ i)
    (hblock : ∀ j, a ≤ j → j < b → f j ≠ 0) (harray : ∀ j, i ≤ j → array j = f j)
    (hn : i + n = max + 1) (hmax : max < durationArraySize) (hzero : ∀ j, max < j → f j = 0)
    (hfirst : f 0 = 0) (htotal : total f 0 (max + 1) < 512) (hlong : short = 0 → long = 0)
    {runs : List (ℕ × ℕ)} (hruns : ∀ c ∈ runs, i ≤ c.1 ∧ c.2 ≤ max + 1)
    (hrest : ∀ array' : DurationArray, (∀ j, i ≤ j → array' j = f j) → ∀ short long,
      (short = 0 → long = 0) → (Inside max (scanFrom tracedSink n i array' 0 0 short long) ↔
        FirstInside f max (storedCount short long) runs))
    (hcarried : total f i (max + 1) < 256 → ∀ carry < 32768,
      (Inside max (scanFrom tracedSink n i array 0 carry short long) ↔
        ∀ d ∈ runs.head?, storeIndex (carry + weight f d.1 d.2) (total f d.1 d.2) ≤ max)) :
    Inside max (endBlock tracedSink n i array (total f a b % 256) (weight f a b) short long) ↔
      FirstInside f max (storedCount short long) ((a, b) :: runs) := by
  have hpos : 0 < total f a b := total_pos hlt hblock
  have hstored := storedCount_lt short long
  have hsplit : total f a b + total f i (max + 1) < 512 := by
    have hsum : total f a b + total f b (max + 1) = total f a (max + 1) :=
      total_add_total hlt.le (by omega)
    have hleft : total f i (max + 1) ≤ total f b (max + 1) := total_le_total hb le_rfl
    have hright : total f a (max + 1) ≤ total f 0 (max + 1) := total_le_total (Nat.zero_le a) le_rfl
    omega
  -- behind a cluster of 256 entries or more the others are small
  have hsmall (h256 : 256 ≤ total f a b) (stored : ℕ) : FirstInside f max stored runs := by
    refine firstInside_of_forall_lt (fun c hc => ?_) stored
    have hle : total f c.1 c.2 ≤ total f i (max + 1) :=
      total_le_total (hruns c hc).1 (hruns c hc).2
    omega
  rw [firstInside_cons]
  rcases Nat.lt_trichotomy (total f a b) 256 with hlt256 | heq256 | hgt256
  · -- the sum is stored at the mean
    obtain ⟨hlow, hmean⟩ := @mean_mem f (a, b) hpos hlt
    have hsize : durationArraySize = 50 := rfl
    have hindex : storeIndex (weight f a b) (total f a b) = mean f (a, b) :=
      Nat.mod_eq_of_lt (hmean.trans_le (by dsimp only; omega))
    have hne : mean f (a, b) ≠ 0 := by
      intro hzero
      have ha : a = 0 := Nat.le_zero.mp (hlow.trans hzero.le)
      exact hblock 0 ha.le (ha ▸ hlt) hfirst
    have hclear := update_eq_of_lt harray (hmean.trans_le hb) (total f a b)
    have hinside : mean f (a, b) ≤ max := by
      have : mean f (a, b) < b := hmean
      omega
    rw [Nat.mod_eq_of_lt hlt256, endBlock, if_pos hpos.ne', inside_store_iff hmax, hindex,
      and_iff_right hinside, and_iff_right fun _ => StoredInside.of_lt hlt256 _]
    dsimp only
    rw [storedCount]
    split_ifs with hshort hlong0
    · rw [hrest _ hclear _ _ fun h => absurd h hne, hlong hshort, storedCount, if_neg hne,
        if_pos rfl]
    · rw [hrest _ hclear _ _ fun h => absurd h hshort, storedCount, if_neg hshort, if_neg hne]
    · exact iff_of_true inside_third (firstInside_of_le le_rfl runs)
  · -- nothing is stored
    have hweight : weight f a b ≤ 50 * total f a b := weight_le (by omega)
    rw [heq256, Nat.mod_self, endBlock, if_neg (not_not_intro rfl),
      hcarried (by omega) _ (by omega), and_iff_left (hsmall heq256.ge _)]
    constructor
    · exact fun h _ => ⟨fun hgt => absurd heq256 hgt.ne', fun _ => h⟩
    · exact fun h => (h hstored).carried heq256
  · -- the sum is stored where what is left of it says
    have hmod : total f a b % 256 = total f a b - 256 := by omega
    have hleft : total array i (max + 1) = total f i (max + 1) := total_congr harray
    rw [hmod, inside_endBlock_iff hn hmax (fun j hj => (harray j (by omega)).trans (hzero j hj))
      (by omega) (by omega), and_iff_left (hsmall hgt256.le _)]
    constructor
    · exact fun h _ => ⟨fun _ => h, fun heq => absurd heq hgt256.ne'⟩
    · exact fun h => (h hstored).wrapped hgt256

section Runs

variable (hle : a ≤ i) (hoccurs : ∀ j, a ≤ j → j < i → f j ≠ 0)
  (harray : ∀ j, i ≤ j → array j = f j) (hn : i + n = max + 1) (hmax : max < durationArraySize)
  (hzero : ∀ j, max < j → f j = 0) (hend : n = 0 → a = i)

include hle hoccurs harray hn hmax hzero hend

/-- The weighted sum of 256 entries goes into that of the next cluster. -/
theorem inside_scanFrom_carried {carry : ℕ} (htotal : total f a (max + 1) < 256)
    (hcarry : carry < 32768) (short long : ℕ) :
    Inside max (scanFrom tracedSink n i array (total f a i) (carry + weight f a i) short long) ↔
      ∀ d ∈ (clustersFrom f n i a).head?,
        storeIndex (carry + weight f d.1 d.2) (total f d.1 d.2) ≤ max := by
  induction n generalizing i a array with
  | zero =>
    obtain rfl := hend rfl
    rw [clustersFrom, if_neg (Nat.lt_irrefl a)]
    exact iff_of_true (.pure _) fun d hd => absurd hd (Option.not_mem_none d)
  | succ n ih =>
    have hcur : array i = f i := harray i le_rfl
    have hclear : ∀ j, i + 1 ≤ j → Function.update array i 0 j = f j := update_visited harray
    have hlast : ∀ j, max < j → Function.update array i 0 j = 0 := fun j hj =>
      (hclear j (by omega)).trans (hzero j hj)
    have hnext : total f a (i + 1) + total f (i + 1) (max + 1) = total f a (max + 1) :=
      total_add_total (by omega) (by omega)
    have hweight : weight f a (i + 1) ≤ 50 * total f a (i + 1) := weight_le (by omega)
    have hsums : (total f a i + array i) % 256 = total f a (i + 1) ∧
        (carry + weight f a i + array i * i) % 65536 = carry + weight f a (i + 1) := by
      rw [hcur, Nat.add_assoc, ← total_succ hle, ← weight_succ hle]
      exact ⟨Nat.mod_eq_of_lt (by omega), Nat.mod_eq_of_lt (by omega)⟩
    by_cases hends : f i = 0 ∨ n = 0
    -- the block ends in front of a missing value, or with the last one
    · obtain ⟨b, hab, hbi, hblock, htotalb, hweightb, hruns⟩ :=
        clustersFrom_of_ends hle hoccurs hends
      rw [scanFrom_of_ends (hcur ▸ hends), hsums.1, hsums.2, hruns, ← htotalb, ← hweightb]
      rw [← htotalb] at hnext
      rcases hab.lt_or_eq with hlt | rfl
      · -- the next cluster is stored with the weight of the other one
        have hleft : total (Function.update array i 0) (i + 1) (max + 1) =
            total f (i + 1) (max + 1) := total_congr hclear
        rw [if_pos hlt, inside_endBlock_iff (by omega) hmax hlast (total_pos hlt hblock).ne'
          (by omega)]
        simp
      -- no block was open, so the weight is still there
      · have hrest := ih (a := i + 1) (i := i + 1) le_rfl (fun j hj hlt => by omega) hclear
          (by omega) (fun _ => rfl) (by omega)
        rw [total_self, weight_self] at hrest ⊢
        rw [if_neg (Nat.lt_irrefl a), endBlock, if_neg (not_not_intro rfl)]
        exact hrest
    -- the value belongs to the block
    · rw [scanFrom_of_goes_on (hcur ▸ hends), hsums.1, hsums.2,
        clustersFrom_of_ne_zero fun hi => hends (.inl hi)]
      have hoccurs' := occurs_succ hoccurs fun hi => hends (.inl hi)
      exact ih (Nat.le_succ_of_le hle) hoccurs' hclear (by omega)
        (fun hn => absurd (.inr hn) hends) htotal

/-- From a block on, the scan stores inside when the clusters that come before a third one has been
stored do. -/
theorem inside_scanFrom_iff (hfirst : f 0 = 0) (htotal : total f 0 (max + 1) < 512)
    (hlong : short = 0 → long = 0) :
    Inside max (scanFrom tracedSink n i array (total f a i % 256) (weight f a i) short long) ↔
      FirstInside f max (storedCount short long) (clustersFrom f n i a) := by
  induction n generalizing i a array short long with
  | zero =>
    obtain rfl := hend rfl
    rw [clustersFrom_zero_self]
    exact iff_of_true (.pure _) firstInside_nil
  | succ n ih =>
    have hcur : array i = f i := harray i le_rfl
    have hclear : ∀ j, i + 1 ≤ j → Function.update array i 0 j = f j := update_visited harray
    have hlast : ∀ j, max < j → Function.update array i 0 j = 0 := fun j hj =>
      (hclear j (by omega)).trans (hzero j hj)
    have hsize : total f a (i + 1) ≤ total f 0 (max + 1) :=
      total_le_total (Nat.zero_le a) (by omega)
    have hweight : weight f a (i + 1) ≤ 50 * total f a (i + 1) := weight_le (by omega)
    have hsums : (total f a i % 256 + array i) % 256 = total f a (i + 1) % 256 ∧
        (weight f a i + array i * i) % 65536 = weight f a (i + 1) := by
      rw [hcur, Nat.mod_add_mod, ← total_succ hle, ← weight_succ hle]
      exact ⟨rfl, Nat.mod_eq_of_lt (by omega)⟩
    by_cases hends : f i = 0 ∨ n = 0
    -- the block ends in front of a missing value, or with the last one
    · obtain ⟨b, hab, hbi, hblock, htotalb, hweightb, hruns⟩ :=
        clustersFrom_of_ends hle hoccurs hends
      have hrest {array' : DurationArray} (harray' : ∀ j, i + 1 ≤ j → array' j = f j)
          {short long : ℕ} (hlong : short = 0 → long = 0) :
          Inside max (scanFrom tracedSink n (i + 1) array' 0 0 short long) ↔
            FirstInside f max (storedCount short long) (clustersFrom f n (i + 1) (i + 1)) := by
        have h := ih (a := i + 1) (i := i + 1) le_rfl (fun j hj hlt => by omega) harray'
          (by omega) (fun _ => rfl) hlong
        rwa [total_self, weight_self] at h
      rw [scanFrom_of_ends (hcur ▸ hends), hsums.1, hsums.2, hruns, ← htotalb, ← hweightb]
      rcases hab.lt_or_eq with hlt | rfl
      · rw [if_pos hlt, List.singleton_append]
        refine inside_endBlock_iff_stored hlt hbi hblock hclear (by omega) hmax hzero hfirst htotal
          hlong (fun c hc => ?_) (fun _ harray' _ _ => hrest harray') fun hleft carry hcarry => ?_
        · exact (bounds_of_mem_clustersFrom le_rfl hc).imp_right (by omega)
        · have h := inside_scanFrom_carried (a := i + 1) (i := i + 1) (n := n) le_rfl
            (fun j hj hlt => by omega) hclear (by omega) hmax hzero (fun _ => rfl) hleft hcarry
            short long
          rwa [total_self, weight_self, Nat.add_zero] at h
      · rw [total_self, weight_self, if_neg (Nat.lt_irrefl a), endBlock,
          if_neg (not_not_intro rfl)]
        exact hrest hclear hlong
    -- the value belongs to the block
    · rw [scanFrom_of_goes_on (hcur ▸ hends), hsums.1, hsums.2,
        clustersFrom_of_ne_zero fun hi => hends (.inl hi)]
      have hoccurs' := occurs_succ hoccurs fun hi => hends (.inl hi)
      exact ih (Nat.le_succ_of_le hle) hoccurs' hclear (by omega)
        (fun hn => absurd (.inr hn) hends) hlong

end Runs

/-- All that `aggregateArrayCounts` stores is stored inside when the clusters up to the third one
are. -/
theorem inside_aggregateTraced_iff (hfirst : f 0 = 0) (hmax : max < durationArraySize)
    (hzero : ∀ j, max < j → f j = 0) (htotal : total f 0 (max + 1) < 512) :
    Inside max (aggregateTraced f max) ↔ FirstInside f max 0 (clusters f durationArraySize) := by
  have hruns : clusters f durationArraySize = clustersFrom f (max + 1) 0 0 := by
    obtain ⟨m, hm⟩ := Nat.exists_eq_add_of_le (Nat.succ_le_of_lt hmax)
    rw [clusters, hm]
    exact clustersFrom_add (fun j hj => hzero j (by omega)) m
  -- no block is open, and no duration is known
  have hscan : Inside max (scanFrom tracedSink (max + 1) 0 f (total f 0 0 % 256) (weight f 0 0)
      0 0) ↔ FirstInside f max 0 (clustersFrom f (max + 1) 0 0) :=
    inside_scanFrom_iff le_rfl (fun j _ hj => absurd hj (Nat.not_lt_zero j)) (fun _ _ => rfl)
      (Nat.zero_add _) hmax hzero (fun _ => rfl) hfirst htotal fun _ => rfl
  rw [total_self, weight_self] at hscan
  rw [aggregateTraced, aggregateTracedFrom_eq_scan, hruns]
  exact hscan

end IrRemote
