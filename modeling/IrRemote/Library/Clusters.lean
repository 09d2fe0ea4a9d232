import Mathlib.Algebra.BigOperators.Intervals
import Mathlib.Algebra.BigOperators.Ring.Finset
import Mathlib.Algebra.Order.BigOperators.Group.Finset

/-!
# Clusters of a histogram

Measured values scatter around a few true ones. A cluster is a maximal block of neighbouring
values that all occur, and it stands for the rounded weighted mean of its values, which lies
inside it. The clusters of a finite histogram are found in one pass.

## Main definitions

* `Clusters.IsCluster` — a maximal block
* `Clusters.mean` — its rounded weighted mean
* `Clusters.clusters` — the pass over the histogram

## Main results

* `Clusters.mem_clusters_iff` — the pass finds the clusters and nothing else
* `Clusters.pairwise_clusters` — in ascending order
* `Clusters.IsCluster.mean_mem` — where the mean lies
-/

set_option autoImplicit false

namespace Clusters

/-- A maximal block of neighbouring values that all occur; its end is not part of it. -/
structure IsCluster (f : ℕ → ℕ) (a b : ℕ) : Prop where
  lt : a < b
  occurs : ∀ j, a ≤ j → j < b → f j ≠ 0
  left : a = 0 ∨ f (a - 1) = 0
  right : f b = 0

/-- How many entries a block has. -/
def total (f : ℕ → ℕ) (a b : ℕ) : ℕ := ∑ j ∈ Finset.Ico a b, f j

/-- The sum of the entries of a block. -/
def weight (f : ℕ → ℕ) (a b : ℕ) : ℕ := ∑ j ∈ Finset.Ico a b, f j * j

/-- The weighted mean of a block, rounded. -/
def mean (f : ℕ → ℕ) (c : ℕ × ℕ) : ℕ :=
  (weight f c.1 c.2 + total f c.1 c.2 / 2) / total f c.1 c.2

/-- The pass over so many values from `i` on, when the block from `a` on is open. -/
def clustersFrom (f : ℕ → ℕ) : ℕ → ℕ → ℕ → List (ℕ × ℕ)
  | 0, i, a => if a < i then [(a, i)] else []
  | n + 1, i, a =>
    if f i = 0 then (if a < i then [(a, i)] else []) ++ clustersFrom f n (i + 1) (i + 1)
    else clustersFrom f n (i + 1) a

/-- The clusters of a histogram of so many values. -/
def clusters (f : ℕ → ℕ) (n : ℕ) : List (ℕ × ℕ) := clustersFrom f n 0 0

variable {f : ℕ → ℕ} {a b i j n : ℕ} {c : ℕ × ℕ}

/-! ## Blocks -/

@[simp] theorem total_self : total f a a = 0 := by simp [total]

@[simp] theorem weight_self : weight f a a = 0 := by simp [weight]

theorem total_succ (h : a ≤ b) : total f a (b + 1) = total f a b + f b :=
  Finset.sum_Ico_succ_top h f

theorem weight_succ (h : a ≤ b) : weight f a (b + 1) = weight f a b + f b * b :=
  Finset.sum_Ico_succ_top h fun j => f j * j

theorem total_pos (h : a < b) (hoccurs : ∀ j, a ≤ j → j < b → f j ≠ 0) : 0 < total f a b :=
  Finset.sum_pos (fun j hj => by
    obtain ⟨hle, hlt⟩ := Finset.mem_Ico.mp hj
    exact Nat.pos_of_ne_zero (hoccurs j hle hlt)) (Finset.nonempty_Ico.mpr h)

/-- Every entry of a block weighs at least its start. -/
theorem mul_total_le_weight : a * total f a b ≤ weight f a b := by
  rw [total, weight, Finset.mul_sum]
  refine Finset.sum_le_sum fun j hj => ?_
  rw [Nat.mul_comm]
  exact Nat.mul_le_mul_left _ (Finset.mem_Ico.mp hj).1

/-- Every entry of a block weighs less than its end. -/
theorem weight_le_mul_total : weight f a b ≤ (b - 1) * total f a b := by
  rw [total, weight, Finset.mul_sum]
  refine Finset.sum_le_sum fun j hj => ?_
  rw [Nat.mul_comm]
  have hlt := (Finset.mem_Ico.mp hj).2
  exact Nat.mul_le_mul_right _ (by omega)

/-- The mean of a block lies inside it. -/
theorem mean_mem (hpos : 0 < total f c.1 c.2) (hlt : c.1 < c.2) :
    c.1 ≤ mean f c ∧ mean f c < c.2 := by
  have hlow : c.1 * total f c.1 c.2 ≤ weight f c.1 c.2 := mul_total_le_weight
  have hhigh : weight f c.1 c.2 ≤ (c.2 - 1) * total f c.1 c.2 := weight_le_mul_total
  constructor
  · rw [mean, Nat.le_div_iff_mul_le hpos]
    omega
  · rw [mean, Nat.div_lt_iff_lt_mul hpos]
    calc weight f c.1 c.2 + total f c.1 c.2 / 2
        < (c.2 - 1) * total f c.1 c.2 + total f c.1 c.2 := by omega
      _ = c.2 * total f c.1 c.2 := by
        rw [← Nat.succ_mul, Nat.succ_eq_add_one, Nat.sub_add_cancel (by omega)]

theorem IsCluster.mean_mem (h : IsCluster f c.1 c.2) : c.1 ≤ mean f c ∧ mean f c < c.2 :=
  Clusters.mean_mem (total_pos h.lt h.occurs) h.lt

/-- A cluster ends where nothing occurs any more. -/
theorem IsCluster.end_le (h : IsCluster f a b) (hzero : ∀ j, n ≤ j → f j = 0) : b ≤ n := by
  by_contra hlt
  have hstart := h.lt
  exact h.occurs (b - 1) (by omega) (by omega) (hzero _ (by omega))

/-- The entries of a list that lie in a block. -/
theorem total_count_le (l : List ℕ) : total (fun t => l.count t) a b ≤ l.length := by
  induction l with
  | nil => simp [total]
  | cons t l ih =>
    have hone : ∑ j ∈ Finset.Ico a b, (if t = j then 1 else 0) ≤ 1 := by
      rw [Finset.sum_ite_eq]
      split_ifs <;> omega
    calc total (fun u => (t :: l).count u) a b
        = total (fun u => l.count u) a b + ∑ j ∈ Finset.Ico a b, (if t = j then 1 else 0) := by
          rw [total, total, ← Finset.sum_add_distrib]
          exact Finset.sum_congr rfl fun j _ => by rw [List.count_cons]; simp
      _ ≤ l.length + 1 := Nat.add_le_add ih hone

/-! ## The pass -/

/-- The block from `a` on is open in front of `i`: all its values occur, and none may be
added at its start. -/
structure Open (f : ℕ → ℕ) (a i : ℕ) : Prop where
  le : a ≤ i
  occurs : ∀ j, a ≤ j → j < i → f j ≠ 0
  left : a = 0 ∨ f (a - 1) = 0

theorem open_zero : Open f 0 0 := ⟨le_rfl, fun _ _ h => absurd h (Nat.not_lt_zero _), .inl rfl⟩

theorem open_succ (h : f i = 0) : Open f (i + 1) (i + 1) :=
  ⟨le_rfl, fun _ hle hlt => absurd hlt (Nat.not_lt.mpr hle), .inr h⟩

theorem Open.succ (h : Open f a i) (hi : f i ≠ 0) : Open f a (i + 1) where
  le := Nat.le_succ_of_le h.le
  occurs j hle hlt := by
    rcases Nat.lt_succ_iff_lt_or_eq.mp hlt with hlt | rfl
    · exact h.occurs j hle hlt
    · exact hi
  left := h.left

/-- A cluster that ends where a value is missing is the open block. -/
theorem Open.isCluster_iff (h : Open f a i) (hi : f i = 0) :
    IsCluster f j i ↔ a < i ∧ j = a := by
  constructor
  · intro hc
    have hlast : f (i - 1) ≠ 0 := hc.occurs (i - 1) (by have := hc.lt; omega) (by
      have := hc.lt
      omega)
    have ha : a < i := by
      refine Nat.lt_of_le_of_ne h.le ?_
      rintro rfl
      rcases h.left with hzero | hgap
      · exact absurd hc.lt (by omega)
      · exact hlast hgap
    refine ⟨ha, ?_⟩
    -- neither start may lie inside the other block
    rcases Nat.lt_trichotomy j a with hlt | heq | hgt
    · rcases h.left with hzero | hgap
      · omega
      · exact absurd hgap (hc.occurs (a - 1) (by omega) (by omega))
    · exact heq
    · rcases hc.left with hzero | hgap
      · omega
      · exact absurd hgap (h.occurs (j - 1) (by omega) (by have := hc.lt; omega))
  · rintro ⟨ha, rfl⟩
    exact ⟨ha, h.occurs, h.left, hi⟩

theorem mem_closed_iff (h : Open f a i) (hi : f i = 0) :
    c ∈ (if a < i then [(a, i)] else []) ↔ IsCluster f c.1 c.2 ∧ c.2 = i := by
  obtain ⟨x, y⟩ := c
  constructor
  · intro hmem
    split_ifs at hmem with ha
    · obtain ⟨rfl, rfl⟩ := Prod.mk.inj (List.mem_singleton.mp hmem)
      exact ⟨(h.isCluster_iff hi).mpr ⟨ha, rfl⟩, rfl⟩
    · exact absurd hmem List.not_mem_nil
  · rintro ⟨hc, rfl⟩
    obtain ⟨ha, rfl⟩ := (h.isCluster_iff hi).mp hc
    rw [if_pos ha]
    exact List.mem_singleton_self _

/-- The pass finds the clusters that end at or behind its index. -/
theorem mem_clustersFrom_iff (h : Open f a i) (hzero : ∀ j, i + n ≤ j → f j = 0) :
    c ∈ clustersFrom f n i a ↔ IsCluster f c.1 c.2 ∧ i ≤ c.2 := by
  induction n generalizing i a with
  | zero =>
    rw [clustersFrom, mem_closed_iff h (hzero i le_rfl)]
    -- nothing occurs from here on
    exact and_congr_right fun hc =>
      ⟨fun heq => heq.ge, fun hle => Nat.le_antisymm (hc.end_le hzero) hle⟩
  | succ n ih =>
    have hzero' : ∀ j, i + 1 + n ≤ j → f j = 0 := fun j hj => hzero j (by omega)
    rw [clustersFrom]
    by_cases hi : f i = 0
    · rw [if_pos hi, List.mem_append, mem_closed_iff h hi, ih (open_succ hi) hzero', ← and_or_left]
      exact and_congr_right fun _ => by omega
    · rw [if_neg hi, ih (h.succ hi) hzero']
      refine and_congr_right fun hc => ⟨fun hle => by omega, fun hle => ?_⟩
      -- a cluster does not end in front of a value that occurs
      refine Nat.lt_of_le_of_ne hle ?_
      rintro rfl
      exact hi hc.right

theorem clustersFrom_of_eq_zero (hi : f i = 0) :
    clustersFrom f (n + 1) i a =
      (if a < i then [(a, i)] else []) ++ clustersFrom f n (i + 1) (i + 1) := if_pos hi

theorem clustersFrom_of_ne_zero (hi : f i ≠ 0) :
    clustersFrom f (n + 1) i a = clustersFrom f n (i + 1) a := if_neg hi

/-- No block is open. -/
theorem clustersFrom_zero_self : clustersFrom f 0 i i = [] := if_neg (Nat.lt_irrefl i)

/-- A value that occurs belongs to the open block. -/
theorem occurs_succ (hoccurs : ∀ j, a ≤ j → j < i → f j ≠ 0) (hi : f i ≠ 0) :
    ∀ j, a ≤ j → j < i + 1 → f j ≠ 0 := by
  intro j hle hlt
  rcases Nat.lt_succ_iff_lt_or_eq.mp hlt with hlt | rfl
  · exact hoccurs j hle hlt
  · exact hi

/-- In front of a missing value, or of the end, the pass closes the open block. -/
theorem clustersFrom_of_ends (h : a ≤ i) (hoccurs : ∀ j, a ≤ j → j < i → f j ≠ 0)
    (hends : f i = 0 ∨ n = 0) :
    ∃ b, a ≤ b ∧ b ≤ i + 1 ∧ (∀ j, a ≤ j → j < b → f j ≠ 0) ∧
      total f a b = total f a (i + 1) ∧ weight f a b = weight f a (i + 1) ∧
      clustersFrom f (n + 1) i a =
        (if a < b then [(a, b)] else []) ++ clustersFrom f n (i + 1) (i + 1) := by
  by_cases hi : f i = 0
  · refine ⟨i, h, Nat.le_succ i, hoccurs, ?_, ?_, clustersFrom_of_eq_zero hi⟩
    · rw [total_succ h, hi, Nat.add_zero]
    · rw [weight_succ h, hi, Nat.zero_mul, Nat.add_zero]
  · obtain rfl : n = 0 := hends.resolve_left hi
    refine ⟨i + 1, Nat.le_succ_of_le h, le_rfl, occurs_succ hoccurs hi, rfl, rfl, ?_⟩
    rw [clustersFrom_of_ne_zero hi, clustersFrom_zero_self, List.append_nil]
    rfl

theorem mem_closed (hc : c ∈ (if a < i then [(a, i)] else [])) : c = (a, i) := by
  split_ifs at hc
  · exact List.mem_singleton.mp hc
  · exact absurd hc List.not_mem_nil

/-- Where the clusters lie. -/
theorem bounds_of_mem_clustersFrom (h : a ≤ i) (hc : c ∈ clustersFrom f n i a) :
    a ≤ c.1 ∧ c.2 ≤ i + n := by
  induction n generalizing i a with
  | zero =>
    obtain rfl := mem_closed hc
    exact ⟨le_rfl, le_rfl⟩
  | succ n ih =>
    by_cases hi : f i = 0
    · rw [clustersFrom_of_eq_zero hi, List.mem_append] at hc
      obtain hc | hc := hc
      · obtain rfl := mem_closed hc
        exact ⟨le_rfl, Nat.le_add_right i (n + 1)⟩
      · obtain ⟨hstart, hend⟩ := ih le_rfl hc
        omega
    · rw [clustersFrom_of_ne_zero hi] at hc
      obtain ⟨hstart, hend⟩ := ih (Nat.le_succ_of_le h) hc
      omega

/-- The pass may go on behind the last value. -/
theorem clustersFrom_add (hzero : ∀ j, i + n ≤ j → f j = 0) (m : ℕ) :
    clustersFrom f (n + m) i a = clustersFrom f n i a := by
  induction n generalizing i a with
  | zero =>
    rw [Nat.zero_add]
    induction m generalizing i a with
    | zero => rfl
    | succ m ih =>
      rw [clustersFrom_of_eq_zero (hzero i le_rfl), ih fun j hj => hzero j (by omega),
        clustersFrom_zero_self, List.append_nil]
      rfl
  | succ n ih =>
    have hzero' : ∀ j, i + 1 + n ≤ j → f j = 0 := fun j hj => hzero j (by omega)
    rw [Nat.succ_add]
    by_cases hi : f i = 0
    · rw [clustersFrom_of_eq_zero hi, clustersFrom_of_eq_zero hi, ih hzero']
    · rw [clustersFrom_of_ne_zero hi, clustersFrom_of_ne_zero hi, ih hzero']

theorem mem_clusters_iff (hzero : ∀ j, n ≤ j → f j = 0) :
    c ∈ clusters f n ↔ IsCluster f c.1 c.2 := by
  rw [clusters, mem_clustersFrom_iff open_zero (by simpa using hzero)]
  exact and_iff_left (Nat.zero_le _)

/-- The clusters are found in ascending order. -/
theorem pairwise_clustersFrom (h : Open f a i) (hzero : ∀ j, i + n ≤ j → f j = 0) :
    (clustersFrom f n i a).Pairwise fun c d => c.2 < d.1 := by
  induction n generalizing i a with
  | zero =>
    rw [clustersFrom]
    split_ifs <;> simp
  | succ n ih =>
    have hzero' : ∀ j, i + 1 + n ≤ j → f j = 0 := fun j hj => hzero j (by omega)
    rw [clustersFrom]
    by_cases hi : f i = 0
    · rw [if_pos hi, List.pairwise_append]
      refine ⟨by split_ifs <;> simp, ih (open_succ hi) hzero', fun c hc d hd => ?_⟩
      obtain ⟨-, hend⟩ := (mem_closed_iff h hi).mp hc
      obtain ⟨hcluster, hle⟩ := (mem_clustersFrom_iff (open_succ hi) hzero').mp hd
      rw [hend]
      -- the missing value lies between the two
      by_contra hlt
      exact hcluster.occurs i (by omega) (by omega) hi
    · rw [if_neg hi]
      exact ih (h.succ hi) hzero'

theorem pairwise_clusters (hzero : ∀ j, n ≤ j → f j = 0) :
    (clusters f n).Pairwise fun c d => c.2 < d.1 :=
  pairwise_clustersFrom open_zero (by simpa using hzero)

/-- A value that occurs lies in a cluster. -/
theorem exists_mem_clustersFrom (h : Open f a i) (hzero : ∀ j, i + n ≤ j → f j = 0)
    (hle : a ≤ j) (hj : f j ≠ 0) : ∃ c ∈ clustersFrom f n i a, c.1 ≤ j ∧ j < c.2 := by
  induction n generalizing i a with
  | zero =>
    have hlt : j < i := Nat.not_le.mp fun hge => hj (hzero j hge)
    rw [clustersFrom, if_pos (by omega)]
    exact ⟨_, List.mem_singleton_self _, hle, hlt⟩
  | succ n ih =>
    have hzero' : ∀ j, i + 1 + n ≤ j → f j = 0 := fun j hj => hzero j (by omega)
    rw [clustersFrom]
    by_cases hi : f i = 0
    · rw [if_pos hi]
      rcases Nat.lt_trichotomy j i with hlt | rfl | hgt
      · rw [if_pos (by omega)]
        exact ⟨_, List.mem_append_left _ (List.mem_singleton_self _), hle, hlt⟩
      · exact absurd hi hj
      · obtain ⟨c, hc, hin⟩ := ih (open_succ hi) hzero' hgt
        exact ⟨c, List.mem_append_right _ hc, hin⟩
    · rw [if_neg hi]
      exact ih (h.succ hi) hzero' hle

theorem exists_mem_clusters (hzero : ∀ j, n ≤ j → f j = 0) (hj : f j ≠ 0) :
    ∃ c ∈ clusters f n, c.1 ≤ j ∧ j < c.2 :=
  exists_mem_clustersFrom open_zero (by simpa using hzero) (Nat.zero_le j) hj

end Clusters
