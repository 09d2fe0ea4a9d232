import Mathlib.Data.List.Chain
import Mathlib.Data.List.DropRight
import Mathlib.Data.Nat.ModEq

/-!
# Signals on a line

A line is at one of several levels, and a signal is a list of pulses, each a level and the
time it is held. What an observer of the line sees are its runs: adjacent pulses of one
level cannot be told apart, and the idle level before the first and after the last other
pulse does not belong to the signal. Signals whose durations are multiples of a unit are
words over the levels.

## Main definitions

* `Pulse` — a level and a duration
* `merge` — the runs of a signal
* `trim` — a signal without the idle level around it
* `Alternates` — signals that are their own runs
* `units` — the level of every unit

## Main results

* `alternates_merge`, `merge_of_alternates` — the signals that are their own runs
* `units_merge` — merging changes no unit
* `replicate_isInfix_units` — a run of `k` units is `k` equal levels in succession
* `units_trim` — only idle units are trimmed
* `duration_div_lt` — where no level is held for `n` units, runs have less than `n`
-/

set_option autoImplicit false

universe u

namespace LineSignal

/-- A level, and the time it is held. -/
structure Pulse (L : Type u) where
  level : L
  duration : ℕ
  deriving DecidableEq, Repr

variable {L : Type u} {a b : Pulse L} {l : List (Pulse L)} {idle : L} {unit : ℕ}

/-- Adjacent pulses have different levels. -/
def Alternates (l : List (Pulse L)) : Prop := l.IsChain fun a b => a.level ≠ b.level

/-- The level of every unit of time. -/
def units (unit : ℕ) (l : List (Pulse L)) : List L :=
  l.flatMap fun a => List.replicate (a.duration / unit) a.level

@[simp] theorem units_nil : units unit ([] : List (Pulse L)) = [] := rfl

@[simp] theorem units_cons :
    units unit (a :: l) = List.replicate (a.duration / unit) a.level ++ units unit l := rfl

theorem units_append (l l' : List (Pulse L)) :
    units unit (l ++ l') = units unit l ++ units unit l' :=
  List.flatMap_append

/-- A run of `k` units is `k` equal levels in succession. -/
theorem replicate_isInfix_units (ha : a ∈ l) :
    List.replicate (a.duration / unit) a.level <:+: units unit l := by
  obtain ⟨before, after, rfl⟩ := List.append_of_mem ha
  rw [units_append, units_cons]
  exact ⟨units unit before, units unit after, by rw [List.append_assoc]⟩

theorem units_of_forall_level (unit : ℕ) (h : ∀ a ∈ l, a.level = idle) :
    ∃ k, units unit l = List.replicate k idle := by
  induction l with
  | nil => exact ⟨0, rfl⟩
  | cons a l ih =>
    obtain ⟨ha, hl⟩ := List.forall_mem_cons.mp h
    obtain ⟨k, hk⟩ := ih hl
    exact ⟨a.duration / unit + k, by rw [units_cons, hk, ha, List.replicate_add]⟩

/-- No level is held for `n` units in succession. -/
def NoRun (n : ℕ) (levels : List L) : Prop := ∀ x, ¬List.replicate n x <:+: levels

theorem noRun_nil {n : ℕ} : NoRun (n + 1) ([] : List L) := by
  intro x h
  simp at h

theorem noRun_cons {n : ℕ} {x : L} {levels : List L} :
    NoRun (n + 1) (x :: levels) ↔ ¬List.replicate n x <+: levels ∧ NoRun (n + 1) levels := by
  constructor
  · intro h
    refine ⟨fun hhead => h x ?_, fun y hsub => h y (hsub.trans (List.suffix_cons _ _).isInfix)⟩
    rw [List.replicate_succ]
    exact (List.prefix_cons_inj x |>.mpr hhead).isInfix
  · rintro ⟨hhead, hrest⟩ y hsub
    rcases List.infix_cons_iff.mp hsub with hfirst | hsub
    · rw [List.replicate_succ] at hfirst
      obtain ⟨rfl, htail⟩ := List.cons_prefix_cons.mp hfirst
      exact hhead htail
    · exact hrest y hsub

theorem NoRun.of_append {n : ℕ} {levels after : List L} (h : NoRun n (levels ++ after)) :
    NoRun n levels :=
  fun x hsub => h x (hsub.trans (List.prefix_append _ _).isInfix)

/-- A run is shorter than the successions of one level that do not occur. -/
theorem duration_div_lt {n : ℕ} (h : NoRun n (units unit l)) (ha : a ∈ l) :
    a.duration / unit < n := by
  by_contra hge
  apply h a.level
  refine List.IsInfix.trans ?_ (replicate_isInfix_units ha)
  obtain ⟨k, hk⟩ := Nat.exists_eq_add_of_le (Nat.le_of_not_lt hge)
  rw [hk, List.replicate_add]
  exact (List.prefix_append _ _).isInfix

variable [DecidableEq L]

/-- A pulse in front of a signal, one with the first pulse when they have the same level. -/
def mergeCons (a : Pulse L) : List (Pulse L) → List (Pulse L)
  | [] => [a]
  | b :: l =>
    if a.level = b.level then ⟨a.level, a.duration + b.duration⟩ :: l else a :: b :: l

/-- The runs of a signal. -/
def merge (l : List (Pulse L)) : List (Pulse L) := l.foldr mergeCons []

/-- The signal without the idle level at its ends. -/
def trim (idle : L) (l : List (Pulse L)) : List (Pulse L) :=
  (l.dropWhile fun a => a.level = idle).rdropWhile fun a => a.level = idle

@[simp] theorem merge_nil : merge ([] : List (Pulse L)) = [] := rfl

@[simp] theorem merge_cons : merge (a :: l) = mergeCons a (merge l) := rfl

/-! ### Runs -/

theorem head?_mergeCons : ∃ d, (mergeCons a l).head? = some ⟨a.level, d⟩ := by
  cases l with
  | nil => exact ⟨a.duration, rfl⟩
  | cons b l =>
    rw [mergeCons]
    split_ifs
    · exact ⟨_, rfl⟩
    · exact ⟨a.duration, rfl⟩

theorem alternates_mergeCons (h : Alternates l) : Alternates (mergeCons a l) := by
  cases l with
  | nil => exact List.isChain_singleton a
  | cons b l =>
    rw [mergeCons]
    split_ifs with hab
    · cases l with
      | nil => exact List.isChain_singleton _
      | cons c l =>
        obtain ⟨hbc, hl⟩ := List.isChain_cons_cons.mp h
        exact List.isChain_cons_cons.mpr ⟨hab ▸ hbc, hl⟩
    · exact List.isChain_cons_cons.mpr ⟨hab, h⟩

theorem alternates_merge (l : List (Pulse L)) : Alternates (merge l) := by
  induction l with
  | nil => exact List.isChain_nil
  | cons a l ih => exact alternates_mergeCons ih

theorem merge_of_alternates (h : Alternates l) : merge l = l := by
  induction l with
  | nil => rfl
  | cons a l ih =>
    rw [merge_cons, ih h.tail]
    cases l with
    | nil => rfl
    | cons b l => rw [mergeCons, if_neg (List.isChain_cons_cons.mp h).1]

/-- A pulse that ends before the rest of the signal begins is a run of its own. -/
theorem merge_cons_of_ne (h : a.level ≠ b.level) : merge (a :: b :: l) = a :: merge (b :: l) := by
  rw [merge_cons]
  obtain ⟨d, hd⟩ := head?_mergeCons (a := b) (l := merge l)
  rw [merge_cons]
  cases hm : mergeCons b (merge l) with
  | nil => rfl
  | cons c l' =>
    rw [hm, List.head?_cons, Option.some.injEq] at hd
    rw [mergeCons, if_neg (by rw [hd]; exact h)]

theorem length_merge_le (l : List (Pulse L)) : (merge l).length ≤ l.length := by
  induction l with
  | nil => exact le_rfl
  | cons a l ih =>
    rw [merge_cons, List.length_cons]
    cases hm : merge l with
    | nil => exact Nat.succ_le_succ (Nat.zero_le _)
    | cons b m =>
      rw [hm, List.length_cons] at ih
      rw [mergeCons]
      split_ifs <;> simp only [List.length_cons] <;> omega

/-- A property of durations that sums preserve holds of the runs. -/
theorem forall_duration_merge {P : ℕ → Prop} (hadd : ∀ m n, P m → P n → P (m + n))
    (h : ∀ a ∈ l, P a.duration) : ∀ a ∈ merge l, P a.duration := by
  induction l with
  | nil => exact nofun
  | cons a l ih =>
    have hrest := ih fun b hb => h b (List.mem_cons_of_mem a hb)
    have ha := h a (List.mem_cons_self ..)
    rw [merge_cons]
    cases hm : merge l with
    | nil =>
      intro c hc
      rw [mergeCons, List.mem_singleton] at hc
      exact hc ▸ ha
    | cons b m =>
      rw [hm, List.forall_mem_cons] at hrest
      rw [mergeCons]
      split_ifs
      · exact List.forall_mem_cons.mpr ⟨hadd _ _ ha hrest.1, hrest.2⟩
      · exact List.forall_mem_cons.mpr ⟨ha, List.forall_mem_cons.mpr hrest⟩

/-! ### Units -/

theorem units_mergeCons (ha : unit ∣ a.duration) (h : ∀ b ∈ l, unit ∣ b.duration) :
    units unit (mergeCons a l) = List.replicate (a.duration / unit) a.level ++ units unit l := by
  cases l with
  | nil => rfl
  | cons b l =>
    rw [mergeCons]
    split_ifs with hab
    · have hdiv : (a.duration + b.duration) / unit = a.duration / unit + b.duration / unit :=
        Nat.add_div_of_dvd_right ha
      rw [units_cons, units_cons, hdiv, List.replicate_add, List.append_assoc, ← hab]
    · rfl

theorem units_merge (h : ∀ a ∈ l, unit ∣ a.duration) : units unit (merge l) = units unit l := by
  induction l with
  | nil => rfl
  | cons a l ih =>
    obtain ⟨ha, hl⟩ := List.forall_mem_cons.mp h
    rw [merge_cons, units_mergeCons ha (forall_duration_merge (fun _ _ => Nat.dvd_add) hl), ih hl]
    rfl

/-! ### Trimming -/

theorem trim_cons_of_eq (h : a.level = idle) : trim idle (a :: l) = trim idle l := by
  rw [trim, List.dropWhile_cons_of_pos (by simpa using h)]
  rfl

/-- From a signal that does not begin idle only the end is trimmed. -/
theorem trim_cons_of_ne (h : a.level ≠ idle) :
    trim idle (a :: l) = (a :: l).rdropWhile fun a => a.level = idle := by
  rw [trim, List.dropWhile_cons_of_neg (by simpa using h)]

/-- Only idle units are trimmed. -/
theorem units_trim (unit : ℕ) (l : List (Pulse L)) (h : a.level ≠ idle) :
    ∃ k, units unit (a :: l) = units unit (trim idle (a :: l)) ++ List.replicate k idle := by
  have hsplit : ((a :: l).rdropWhile fun b => b.level = idle) ++
      ((a :: l).rtakeWhile fun b => b.level = idle) = a :: l := List.rdropWhile_append_rtakeWhile
  have hidle : ∀ b ∈ (a :: l).rtakeWhile fun b => b.level = idle, b.level = idle := by
    intro b hb
    simpa using List.mem_rtakeWhile_imp hb
  obtain ⟨k, hk⟩ := units_of_forall_level unit hidle
  refine ⟨k, ?_⟩
  rw [trim_cons_of_ne h, ← hk, ← units_append, hsplit]

theorem forall_duration_trim {P : ℕ → Prop} (h : ∀ a ∈ l, P a.duration) :
    ∀ a ∈ trim idle l, P a.duration := by
  intro a ha
  have hhead : trim idle l <+: l.dropWhile fun a => a.level = idle :=
    List.rdropWhile_prefix _ _
  have hsuffix : (l.dropWhile fun a => a.level = idle) <:+ l := List.dropWhile_suffix _
  exact h a (hsuffix.subset (hhead.subset ha))

theorem length_trim_le (l : List (Pulse L)) : (trim idle l).length ≤ l.length := by
  have hhead : trim idle l <+: l.dropWhile fun a => a.level = idle :=
    List.rdropWhile_prefix _ _
  have hsuffix : (l.dropWhile fun a => a.level = idle) <:+ l := List.dropWhile_suffix _
  exact hhead.length_le.trans hsuffix.length_le

/-- What comes in front of a pulse that is not idle is not trimmed at the end. -/
theorem trim_cons_append {before : List (Pulse L)} (hb : b.level ≠ idle) (ha : a.level ≠ idle) :
    trim idle (b :: before ++ a :: l) = b :: before ++ trim idle (a :: l) := by
  have hrest : ((a :: l).reverse.dropWhile fun c => c.level = idle) ≠ [] := by
    intro hnil
    have hidle := List.dropWhile_eq_nil_iff.mp hnil a (by simp)
    exact ha (by simpa using hidle)
  rw [List.cons_append, trim_cons_of_ne hb, trim_cons_of_ne ha, ← List.cons_append,
    List.rdropWhile, List.rdropWhile, List.reverse_append, List.dropWhile_append,
    if_neg (by simpa using hrest), List.reverse_append, List.reverse_reverse]

theorem exists_trim_eq_cons (l : List (Pulse L)) (h : a.level ≠ idle) :
    ∃ l', trim idle (a :: l) = a :: l' := by
  rw [trim_cons_of_ne h]
  have hhead : (a :: l).rdropWhile (fun c => c.level = idle) <+: a :: l :=
    List.rdropWhile_prefix _ _
  cases hdrop : (a :: l).rdropWhile (fun c => c.level = idle) with
  | nil =>
    have hidle := List.rdropWhile_eq_nil_iff.mp hdrop a (List.mem_cons_self ..)
    simp [h] at hidle
  | cons c l' =>
    rw [hdrop] at hhead
    obtain ⟨rfl, -⟩ := List.cons_prefix_cons.mp hhead
    exact ⟨l', rfl⟩

/-- The first run has the level the signal begins with, if it does not begin idle. -/
theorem level_of_head?_merge_trim (h : a.level ≠ idle)
    (hb : b ∈ (merge (trim idle (a :: l))).head?) : b.level = a.level := by
  obtain ⟨l', hl'⟩ := exists_trim_eq_cons l h
  rw [hl', merge_cons] at hb
  obtain ⟨d, hd⟩ := head?_mergeCons (a := a) (l := merge l')
  rw [hd] at hb
  obtain rfl := Option.some.inj hb
  rfl

/-- A signal that neither begins nor ends idle is not trimmed. -/
theorem trim_of_ne (h : a.level ≠ idle) (hb : b.level ≠ idle) :
    trim idle (a :: l ++ [b]) = a :: l ++ [b] := by
  rw [List.cons_append, trim_cons_of_ne h, ← List.cons_append,
    List.rdropWhile_concat_neg _ _ _ (by simpa using hb)]

/-- Idle time at the end is trimmed. -/
theorem trim_concat_of_eq (h : a.level = idle) : trim idle (l ++ [a]) = trim idle l := by
  rw [trim, trim, List.dropWhile_append]
  split_ifs with hnil
  · rw [List.dropWhile_cons_of_pos (by simpa using h), List.isEmpty_iff.mp hnil]
    rfl
  · rw [List.rdropWhile_concat_pos _ _ _ (by simpa using h)]

/-- A signal of which neither end is idle is not trimmed. -/
theorem trim_eq_self (hhead : ∀ a ∈ l.head?, a.level ≠ idle)
    (hlast : ∀ a ∈ l.getLast?, a.level ≠ idle) : trim idle l = l := by
  have hdrop : (l.dropWhile fun a => a.level = idle) = l := by
    cases l with
    | nil => rfl
    | cons a l => exact List.dropWhile_cons_of_neg (by simpa using hhead a rfl)
  rw [trim, hdrop, List.rdropWhile_eq_self_iff]
  intro hne
  have hmem := hlast (l.getLast hne) (List.getLast?_eq_getLast_of_ne_nil hne)
  simpa using hmem

end LineSignal
