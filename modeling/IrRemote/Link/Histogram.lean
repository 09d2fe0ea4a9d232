import IrRemote.Protocol.DistanceWidth

/-!
# Histograms of recorded durations

The histogram of a few distinct durations, each at least two ticks away from the next, is
aggregated to these durations. The counts are bytes, so there may be at most 255 entries.

## Main results

* `countDurationsFrom_eq` — the histogram of the entries of a frame
* `durations_single`, `durations_pair` — one duration, and two
-/

set_option autoImplicit false

namespace IrRemote

/-! ## Counting -/

variable {p : IrParams} {array array' : DurationArray} {l : List ℕ} {i n max t : ℕ}

/-- The counts of a list of entries, on top of those of an array. -/
def DurationArray.count (array : DurationArray) (l : List ℕ) : DurationArray :=
  fun t => (array t + l.count t) % 256

theorem DurationArray.count_cons (t : ℕ) :
    DurationArray.count (Function.update array t ((array t + 1) % 256)) l =
      DurationArray.count array (t :: l) := by
  funext u
  by_cases h : u = t
  · subst h
    simp only [DurationArray.count, Function.update_self, List.count_cons_self]
    omega
  · simp [DurationArray.count, Function.update_of_ne h, Ne.symm h]

/-- The histogram of the entries of a frame, and the largest of them. -/
theorem countDurationsFrom_eq (array : DurationArray) (max : ℕ)
    (hread : ∀ j (h : j < l.length), p.raw (i + 2 * j) = some l[j])
    (hsmall : ∀ t ∈ l, t < durationArraySize) (harray : ∀ t, array t < 256) :
    ∃ m, countDurationsFrom p l.length i array max = some (some (array.count l, m)) ∧
      max ≤ m ∧ (∀ t ∈ l, t ≤ m) ∧ (m = max ∨ m ∈ l) := by
  induction l generalizing i array max with
  | nil =>
    have hcount : array.count [] = array := funext fun t => Nat.mod_eq_of_lt (harray t)
    exact ⟨max, by rw [hcount]; rfl, le_rfl, by simp, .inl rfl⟩
  | cons t l ih =>
    have hfirst : p.raw i = some t := hread 0 (Nat.succ_pos _)
    have hrest : ∀ j (h : j < l.length), p.raw (i + 2 + 2 * j) = some l[j] := by
      intro j hj
      rw [Nat.add_assoc, Nat.add_comm 2, ← Nat.mul_succ]
      exact hread (j + 1) (Nat.succ_lt_succ hj)
    -- the counts stay bytes, which the induction asks for
    have hbyte : ∀ u, Function.update array t ((array t + 1) % 256) u < 256 := by
      intro u
      by_cases h : u = t
      · subst h
        rw [Function.update_self]
        exact Nat.mod_lt _ (by decide)
      · rw [Function.update_of_ne h]
        exact harray u
    obtain ⟨ht, hl⟩ := List.forall_mem_cons.mp hsmall
    obtain ⟨m, hm, hmax, hle, hmem⟩ := ih _ (if max < t then t else max) hrest hl hbyte
    refine ⟨m, ?_, ?_, ?_, ?_⟩
    · rw [List.length_cons, countDurationsFrom, hfirst, Option.bind_eq_bind, Option.bind_some,
        if_pos ht, hm, DurationArray.count_cons]
    · split_ifs at hmax <;> omega
    · refine List.forall_mem_cons.mpr ⟨?_, hle⟩
      split_ifs at hmax <;> omega
    · rcases hmem with hmem | hmem
      · split_ifs at hmem
        · exact .inr (hmem ▸ List.mem_cons_self ..)
        · exact .inl hmem
      · exact .inr (List.mem_cons_of_mem t hmem)

/-! ## Aggregation -/

variable {short long sum weighted : ℕ}

/-- What is stored behind the current index does not matter. -/
theorem aggregateFrom_congr (h : ∀ j, i ≤ j → array j = array' j) :
    aggregateFrom n i array sum weighted short long =
      aggregateFrom n i array' sum weighted short long := by
  induction n generalizing i array array' sum weighted short long with
  | zero => rfl
  | succ n ih =>
    have hupdate : ∀ k v j, i + 1 ≤ j →
        Function.update (Function.update array i 0) k v j =
          Function.update (Function.update array' i 0) k v j := by
      intro k v j hj
      by_cases hk : j = k
      · rw [hk, Function.update_self, Function.update_self]
      · rw [Function.update_of_ne hk, Function.update_of_ne hk, Function.update_of_ne (by omega),
          Function.update_of_ne (by omega), h j (by omega)]
    have hclear : ∀ j, i + 1 ≤ j →
        Function.update array i 0 j = Function.update array' i 0 j := by
      intro j hj
      rw [Function.update_of_ne (by omega), Function.update_of_ne (by omega), h j (by omega)]
    simp only [aggregateFrom, h i le_rfl, ih (hupdate _ _), ih hclear]

/-- Empty counts between two clusters are skipped. -/
theorem aggregateFrom_skip {m : ℕ} (h : ∀ j, i ≤ j → j < i + m → array j = 0) :
    aggregateFrom (m + n) i array 0 0 short long =
      aggregateFrom n (i + m) array 0 0 short long := by
  induction m generalizing i with
  | zero => rw [Nat.zero_add, Nat.add_zero]
  | succ m ih =>
    have hzero : array i = 0 := h i le_rfl (by omega)
    have hclear : Function.update array i 0 = array := by
      rw [← hzero, Function.update_eq_self]
    rw [Nat.add_right_comm, aggregateFrom]
    simp only [hzero, hclear, Nat.add_zero, Nat.zero_mul, Nat.zero_mod, ne_eq, not_true, and_false,
      if_false]
    rw [ih fun j hj hlt => h j (by omega) (by omega), Nat.add_right_comm, Nat.add_assoc]

/-- The sums of a cluster of equal durations do not wrap, and their mean is the duration. -/
theorem cluster_sums {c : ℕ} (ht : t < durationArraySize) (hpos : 0 < c) (hbyte : c < 256) :
    (0 + c) % 256 = c ∧ (0 + c * t) % 65536 = c * t ∧ (c * t + c / 2) / c % 256 = t := by
  have ht' : t < 50 := ht
  refine ⟨by rw [Nat.zero_add, Nat.mod_eq_of_lt hbyte], ?_, ?_⟩
  · rw [Nat.zero_add, Nat.mod_eq_of_lt]
    exact (Nat.mul_le_mul (Nat.le_of_lt hbyte) (Nat.le_of_lt ht')).trans_lt (by decide)
  · have hhalf : c / 2 / c = 0 := Nat.div_eq_of_lt (Nat.div_lt_self hpos Nat.one_lt_two)
    rw [Nat.mul_add_div hpos, hhalf, Nat.add_zero, Nat.mod_eq_of_lt (by omega)]

/-- A cluster of equal durations at the last index. -/
theorem aggregateFrom_last (ht : t < durationArraySize) (hpos : 0 < array t)
    (hbyte : array t < 256) :
    aggregateFrom 1 t array 0 0 short long =
      if short = 0 then some (some (t, long))
      else if long = 0 then some (some (short, t)) else some none := by
  obtain ⟨hsum, hweighted, hmean⟩ := cluster_sums ht hpos hbyte
  have hne : array t ≠ 0 := Nat.ne_of_gt hpos
  simp only [aggregateFrom, hsum, hweighted, hmean, or_true, true_and, if_pos hne, if_pos ht]

/-- A cluster of equal durations in front of an empty count. -/
theorem aggregateFrom_gap (ht : t < durationArraySize) (hpos : 0 < array t)
    (hbyte : array t < 256) (hgap : array (t + 1) = 0) :
    aggregateFrom (n + 2) t array 0 0 0 0 = aggregateFrom n (t + 2) array 0 0 t 0 := by
  obtain ⟨hsum, hweighted, hmean⟩ := cluster_sums ht hpos hbyte
  have hne : array t ≠ 0 := Nat.ne_of_gt hpos
  have hopen : ¬((array t = 0 ∨ n + 1 = 0) ∧ array t ≠ 0) := by omega
  have hclear : Function.update array t 0 (t + 1) = 0 := by
    rw [Function.update_of_ne (by omega), hgap]
  rw [Nat.zero_add] at hsum hweighted
  rw [aggregateFrom]
  simp only [Nat.zero_add, hsum, hweighted, if_neg hopen]
  rw [aggregateFrom]
  simp only [hclear, Nat.add_zero, Nat.zero_mul, hsum, hweighted, true_or, true_and, if_pos hne,
    hmean, if_pos ht, if_true]
  apply aggregateFrom_congr
  intro j hj
  rw [Function.update_of_ne (by omega), Function.update_of_ne (by omega),
    Function.update_of_ne (by omega)]

/-! ## The durations of a frame -/

theorem count_zero_of_mem (hlen : l.length < 256) (ht : t ∈ l) :
    0 < DurationArray.zero.count l t ∧ DurationArray.zero.count l t < 256 := by
  have hpos : 0 < l.count t := List.count_pos_iff.mpr ht
  have hle : l.count t ≤ l.length := List.count_le_length
  simp only [DurationArray.count, DurationArray.zero]
  omega

theorem count_zero_of_not_mem (ht : t ∉ l) : DurationArray.zero.count l t = 0 := by
  simp only [DurationArray.count, DurationArray.zero, List.count_eq_zero_of_not_mem ht]

/-- Entries of one duration. -/
theorem aggregateArrayCounts_single (hlen : l.length < 256) (ht : t < durationArraySize)
    (hmem : t ∈ l) (hall : ∀ u ∈ l, u = t) :
    aggregateArrayCounts (DurationArray.zero.count l) t = some (some (t, 0)) := by
  obtain ⟨hpos, hbyte⟩ := count_zero_of_mem hlen hmem
  have hbelow : ∀ j, 0 ≤ j → j < 0 + t → DurationArray.zero.count l j = 0 := by
    intro j _ hj
    apply count_zero_of_not_mem
    intro hj'
    have := hall j hj'
    omega
  rw [aggregateArrayCounts, aggregateFrom_skip hbelow, Nat.zero_add,
    aggregateFrom_last ht hpos hbyte, if_pos rfl]

/-- Entries of two durations with a gap between them. -/
theorem aggregateArrayCounts_pair {S L : ℕ} (hlen : l.length < 256) (hL : L < durationArraySize)
    (hpos : 0 < S) (hgap : S + 2 ≤ L) (hSmem : S ∈ l) (hLmem : L ∈ l)
    (hall : ∀ u ∈ l, u = S ∨ u = L) :
    aggregateArrayCounts (DurationArray.zero.count l) L = some (some (S, L)) := by
  obtain ⟨hSpos, hSbyte⟩ := count_zero_of_mem hlen hSmem
  obtain ⟨hLpos, hLbyte⟩ := count_zero_of_mem hlen hLmem
  have hempty : ∀ j, j ≠ S → j ≠ L → DurationArray.zero.count l j = 0 := by
    intro j hS hL
    apply count_zero_of_not_mem
    intro hj
    exact (hall j hj).elim hS hL
  obtain ⟨k, rfl⟩ : ∃ k, L = S + 2 + k := ⟨L - (S + 2), by omega⟩
  have hsplit : S + 2 + k + 1 = S + (k + 1 + 2) := by omega
  rw [aggregateArrayCounts, hsplit,
    aggregateFrom_skip fun j _ hj => hempty j (by omega) (by omega), Nat.zero_add,
    aggregateFrom_gap (by omega) hSpos hSbyte (hempty _ (by omega) (by omega)),
    aggregateFrom_skip fun j hj hlt => hempty j (by omega) (by omega),
    aggregateFrom_last hL hLpos hLbyte, if_neg (by omega), if_pos rfl]

/-- The durations of the entries from an index on in steps of two. -/
theorem durations_of_entries {start : ℕ} {r : Option (ℕ × ℕ)} (hpos : t ∈ l)
    (hlength : (p.rawlen - 2 - start + 1) / 2 = l.length)
    (hread : ∀ j (h : j < l.length), p.raw (start + 2 * j) = some l[j])
    (hsmall : ∀ u ∈ l, u ≤ t) (ht : t < durationArraySize)
    (hcounts : aggregateArrayCounts (DurationArray.zero.count l) t = some r) :
    durations p start = some r := by
  obtain ⟨m, hm, -, hle, hmem⟩ := countDurationsFrom_eq .zero 0 hread
    (fun u hu => (hsmall u hu).trans_lt ht) fun _ => Nat.zero_lt_succ _
  have hmax : m = t := by
    apply Nat.le_antisymm
    · rcases hmem with rfl | hmem
      · exact Nat.zero_le t
      · exact hsmall m hmem
    · exact hle t hpos
  rw [durations, countDurations, hlength, hm, hmax, Option.bind_eq_bind, Option.bind_some]
  exact hcounts

theorem durations_single {start : ℕ} (hlen : l.length < 256)
    (hlength : (p.rawlen - 2 - start + 1) / 2 = l.length)
    (hread : ∀ j (h : j < l.length), p.raw (start + 2 * j) = some l[j])
    (ht : t < durationArraySize) (hmem : t ∈ l) (hall : ∀ u ∈ l, u = t) :
    durations p start = some (some (t, 0)) :=
  durations_of_entries hmem hlength hread (fun u hu => (hall u hu).le) ht
    (aggregateArrayCounts_single hlen ht hmem hall)

theorem durations_pair {start S L : ℕ} (hlen : l.length < 256)
    (hlength : (p.rawlen - 2 - start + 1) / 2 = l.length)
    (hread : ∀ j (h : j < l.length), p.raw (start + 2 * j) = some l[j])
    (hL : L < durationArraySize) (hpos : 0 < S) (hgap : S + 2 ≤ L) (hSmem : S ∈ l)
    (hLmem : L ∈ l) (hall : ∀ u ∈ l, u = S ∨ u = L) :
    durations p start = some (some (S, L)) := by
  refine durations_of_entries hLmem hlength hread (fun u hu => ?_) hL
    (aggregateArrayCounts_pair hlen hL hpos hgap hSmem hLmem hall)
  rcases hall u hu with rfl | rfl <;> omega

end IrRemote
