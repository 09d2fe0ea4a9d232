import Mathlib.Data.Fin.Tuple.Basic
import Mathlib.Logic.Function.Basic

/-!
# Tables of slots

An array of fixed length whose slots hold a record under a key, or nothing. When no key is
used twice, the table is a finite map: putting a record into a free slot under a new key
updates the map, and so does emptying a slot.

## Main definitions

* `SlotTable.Distinct` — no key is used twice
* `SlotTable.find`, `SlotTable.free` — the first slot under a key, and the first free slot
* `SlotTable.toMap` — the map from the keys to the records

## Main results

* `SlotTable.toMap_set`, `SlotTable.toMap_map` — what the updates do to the map
* `SlotTable.exists_injective` — a full table uses as many keys as it has slots
-/

set_option autoImplicit false

namespace SlotTable

variable {α β κ : Type*} {n : ℕ} {key : α → Option κ} {table : Vector α n} {a : α} {i : Fin n}
  {k k' : κ}

/-- Two slots in use have different keys. -/
def Distinct (key : α → Option κ) (table : Vector α n) : Prop :=
  ∀ (i j : Fin n) (k : κ), key (table.get i) = some k → key (table.get j) = some k → i = j

theorem get_set (i : Fin n) (a : α) (j : Fin n) :
    (table.set i a i.isLt).get j = if i = j then a else table.get j := by
  refine (Vector.getElem_set i.isLt j.isLt).trans ?_
  simp only [Fin.ext_iff]
  rfl

theorem get_map (f : α → β) (i : Fin n) : (table.map f).get i = f (table.get i) :=
  Vector.getElem_map f i.isLt

theorem mem_iff : a ∈ table ↔ ∃ i : Fin n, table.get i = a := by
  rw [Vector.mem_iff_getElem]
  constructor
  · rintro ⟨i, hi, rfl⟩
    exact ⟨⟨i, hi⟩, rfl⟩
  · rintro ⟨i, rfl⟩
    exact ⟨i, i.isLt, rfl⟩

theorem get_mem (i : Fin n) : table.get i ∈ table := mem_iff.mpr ⟨i, rfl⟩

/-- A loop over the slots visits the slots before a slot, the slot, and the slots behind it. -/
theorem finRange_eq_append (i : Fin n) :
    ∃ before after, List.finRange n = before ++ i :: after ∧
      (∀ j, j ∈ before ↔ j < i) ∧ ∀ j ∈ after, i < j := by
  obtain ⟨before, after, hsplit⟩ := List.append_of_mem (List.mem_finRange i)
  have hsorted := List.pairwise_lt_finRange n
  rw [hsplit, List.pairwise_append, List.pairwise_cons] at hsorted
  obtain ⟨-, ⟨hafter, -⟩, hbefore⟩ := hsorted
  refine ⟨before, after, hsplit, fun j => ⟨fun hj => hbefore j hj i List.mem_cons_self, ?_⟩,
    hafter⟩
  intro hj
  have hmem : j ∈ before ++ i :: after := hsplit ▸ List.mem_finRange j
  rcases List.mem_append.mp hmem with hmem | hmem
  · exact hmem
  · rcases List.mem_cons.mp hmem with rfl | hmem
    · exact absurd hj (lt_irrefl j)
    · exact absurd (hafter j hmem) hj.asymm

/-- A free slot takes a record under a new key. -/
theorem Distinct.set (h : Distinct key table) (hk : key a = some k)
    (hnew : ∀ j, key (table.get j) = some k → j = i) : Distinct key (table.set i a i.isLt) := by
  intro j l k' hj hl
  rw [get_set] at hj hl
  split_ifs at hj hl with hij hil hil
  · exact hij.symm.trans hil
  · rw [hk] at hj
    exact hij.symm.trans (hnew l (hj ▸ hl)).symm
  · rw [hk] at hl
    exact (hnew j (hl ▸ hj)).trans hil
  · exact h j l k' hj hl

/-- A slot is emptied. -/
theorem Distinct.set_none (h : Distinct key table) (ha : key a = none) :
    Distinct key (table.set i a i.isLt) := by
  intro j l k hj hl
  rw [get_set] at hj hl
  split_ifs at hj hl with hij hil hil
  · rw [ha] at hj
    cases hj
  · rw [ha] at hj
    cases hj
  · rw [ha] at hl
    cases hl
  · exact h j l k hj hl

/-- Some slots are emptied. -/
theorem Distinct.map {f : α → α} (h : Distinct key table)
    (hf : ∀ a k, key (f a) = some k → key a = some k) : Distinct key (table.map f) := by
  intro i j k hi hj
  rw [get_map] at hi hj
  exact h i j k (hf _ k hi) (hf _ k hj)

/-- A table without a record. -/
theorem Distinct.of_empty (h : ∀ i : Fin n, key (table.get i) = none) : Distinct key table := by
  intro i j k hi
  rw [h i] at hi
  cases hi

/-! ## Scans -/

/-- The first slot that is not in use. -/
def free (key : α → Option κ) (table : Vector α n) : Option (Fin n) :=
  Fin.find? fun i => key (table.get i) = none

theorem key_of_free (h : free key table = some i) : key (table.get i) = none := by
  rw [free, Fin.find?_eq_some_iff] at h
  exact of_decide_eq_true h.1

theorem free_eq_none_iff : free key table = none ↔ ∀ i : Fin n, key (table.get i) ≠ none := by
  rw [free, Fin.find?_eq_none_iff]
  simp only [decide_eq_false_iff_not, ne_eq]

section Find

variable [DecidableEq κ]

/-- The first slot in use under a key. -/
def find (key : α → Option κ) (table : Vector α n) (k : κ) : Option (Fin n) :=
  Fin.find? fun i => key (table.get i) = some k

theorem key_of_find (h : find key table k = some i) : key (table.get i) = some k := by
  rw [find, Fin.find?_eq_some_iff] at h
  exact of_decide_eq_true h.1

theorem find_eq_none_iff : find key table k = none ↔ ∀ i : Fin n, key (table.get i) ≠ some k := by
  rw [find, Fin.find?_eq_none_iff]
  simp only [decide_eq_false_iff_not, ne_eq]

/-- Where no key is used twice, the first slot under a key is the only one. -/
theorem Distinct.find_eq_some_iff (h : Distinct key table) :
    find key table k = some i ↔ key (table.get i) = some k := by
  constructor
  · exact key_of_find
  · intro hi
    cases hfind : find key table k with
    | none => exact absurd hi (find_eq_none_iff.mp hfind i)
    | some j => rw [h j i k (key_of_find hfind) hi]

/-! ## The map of a table -/

/-- What the table holds under a key. -/
def toMap (key : α → Option κ) (val : α → β) (table : Vector α n) (k : κ) : Option β :=
  (find key table k).map fun i => val (table.get i)

variable {val : α → β}

theorem toMap_eq_none_iff :
    toMap key val table k = none ↔ ∀ i : Fin n, key (table.get i) ≠ some k := by
  rw [toMap, Option.map_eq_none_iff, find_eq_none_iff]

theorem toMap_of_empty (h : ∀ i : Fin n, key (table.get i) = none) :
    toMap key val table = fun _ => none := by
  funext k
  rw [toMap_eq_none_iff]
  intro i hi
  rw [h i] at hi
  cases hi

theorem Distinct.toMap_eq_some (h : Distinct key table) (hi : key (table.get i) = some k) :
    toMap key val table k = some (val (table.get i)) := by
  rw [toMap, h.find_eq_some_iff.mpr hi, Option.map_some]

/-- Two tables whose slots under a key agree. -/
theorem Distinct.toMap_congr {table' : Vector α n} (h : Distinct key table)
    (h' : Distinct key table')
    (hkey : ∀ i : Fin n, key (table.get i) = some k ↔ key (table'.get i) = some k)
    (hval : ∀ i : Fin n, key (table.get i) = some k → val (table.get i) = val (table'.get i)) :
    toMap key val table k = toMap key val table' k := by
  cases hfind : find key table k with
  | none =>
    have hnone : toMap key val table' k = none := by
      rw [toMap_eq_none_iff]
      intro i hi
      exact find_eq_none_iff.mp hfind i ((hkey i).mpr hi)
    rw [hnone, toMap, hfind, Option.map_none]
  | some i =>
    have hi := key_of_find hfind
    rw [h.toMap_eq_some hi, h'.toMap_eq_some ((hkey i).mp hi), hval i hi]

/-- A record is put into a free slot under a new key. -/
theorem Distinct.toMap_set (h : Distinct key table) (hfree : key (table.get i) = none)
    (hk : key a = some k) (hnew : ∀ j : Fin n, key (table.get j) ≠ some k) :
    toMap key val (table.set i a i.isLt) =
      Function.update (toMap key val table) k (some (val a)) := by
  have hset : Distinct key (table.set i a i.isLt) := h.set hk fun j hj => absurd hj (hnew j)
  have hself : (table.set i a i.isLt).get i = a := by rw [get_set, if_pos rfl]
  have hkey : key ((table.set i a i.isLt).get i) = some k := by rw [hself, hk]
  funext k'
  by_cases hkk' : k' = k
  · rw [hkk', Function.update_self, hset.toMap_eq_some hkey, hself]
  · rw [Function.update_of_ne hkk']
    apply hset.toMap_congr h
    -- neither the old record of the slot nor the new one is under the other key
    · intro j
      rw [get_set]
      split_ifs with hij
      · rw [hk, ← hij, hfree]
        simp only [Option.some.injEq, reduceCtorEq, iff_false]
        exact fun heq => hkk' heq.symm
      · rfl
    · intro j hj
      rw [get_set] at hj ⊢
      split_ifs at hj ⊢ with hij
      · rw [hk] at hj
        exact absurd (Option.some.inj hj).symm hkk'
      · rfl

/-- Every slot under a key is emptied. -/
theorem toMap_map {f : α → α} (hdrop : ∀ a, key a = some k → key (f a) = none)
    (hkeep : ∀ a, key a ≠ some k → f a = a) :
    toMap key val (table.map f) = Function.update (toMap key val table) k none := by
  funext k'
  by_cases hkk' : k' = k
  · rw [hkk', Function.update_self, toMap_eq_none_iff]
    intro i hi
    rw [get_map] at hi
    -- no slot is left under the key
    by_cases hdropped : key (table.get i) = some k
    · rw [hdrop _ hdropped] at hi
      cases hi
    · rw [hkeep _ hdropped] at hi
      exact hdropped hi
  · -- a slot under another key is kept, and the scan stops at the same slot
    have hfind : find key (table.map f) k' = find key table k' := by
      unfold find
      congr 1
      funext i
      rw [decide_eq_decide, get_map]
      by_cases hdropped : key (table.get i) = some k
      · rw [hdrop _ hdropped, hdropped]
        simp only [reduceCtorEq, Option.some.injEq, false_iff]
        exact fun heq => hkk' heq.symm
      · rw [hkeep _ hdropped]
    rw [Function.update_of_ne hkk', toMap, toMap, hfind]
    cases hslot : find key table k' with
    | none => rfl
    | some i =>
      have hkept : key (table.get i) ≠ some k := by
        rw [key_of_find hslot]
        exact fun heq => hkk' (Option.some.inj heq)
      rw [Option.map_some, Option.map_some, get_map, hkeep _ hkept]

end Find

/-- A full table uses as many keys as it has slots. -/
theorem Distinct.exists_injective (h : Distinct key table)
    (hfull : ∀ i : Fin n, key (table.get i) ≠ none) :
    ∃ keys : Fin n → κ,
      Function.Injective keys ∧ ∀ i : Fin n, key (table.get i) = some (keys i) := by
  have hused : ∀ i : Fin n, ∃ k, key (table.get i) = some k := fun i =>
    Option.ne_none_iff_exists'.mp (hfull i)
  choose keys hkeys using hused
  refine ⟨keys, ?_, hkeys⟩
  intro i j hij
  exact h i j (keys i) (hkeys i) (hij ▸ hkeys j)

end SlotTable
