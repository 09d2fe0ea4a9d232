import Mathlib.Data.List.Basic

/-!
# Machines whose steps may fault

A deterministic machine takes labels one at a time; a step returns `none` when it
has no defined result. A run feeds a list of labels in order and faults with its
first faulting step. An invariant that every step preserves without faulting is
preserved by every run, and then no run faults.

## Main definitions

* `FaultMachine.run` — the run of a list of labels
* `FaultMachine.Reachable` — the states some run reaches
* `FaultMachine.Preserves` — a step neither faults nor leaves the invariant
* `FaultMachine.Throughout`, `FaultMachine.Along` — every state that a run passes has a
  property, and every step that it takes meets a condition
* `FaultMachine.recorded` — the machine next to a record of its run

## Main results

* `run_append` — runs compose
* `run_of_forall_mem`, `Preserves.run` — an invariant of the steps is an invariant of the runs
* `Preserves.reachable` — it holds in every reachable state
* `run_invariant`, `throughout_of_invariant` — an invariant of the steps that have a result
* `Along.throughout`, `Along.throughout_iff`, `throughout_iff_along` — a condition of the steps
  that is sufficient, or necessary and sufficient, for a property of the states
-/

set_option autoImplicit false

namespace FaultMachine

variable {α σ : Type*} {step : α → σ → Option σ} {labels rest : List α} {a : α} {s t u : σ}

/-- Feed the labels to the machine in order, faulting with the first fault. -/
def run (step : α → σ → Option σ) (labels : List α) (s : σ) : Option σ :=
  labels.foldlM (fun s a => step a s) s

@[simp] theorem run_nil : run step [] s = some s := rfl

@[simp] theorem run_cons : run step (a :: labels) s = (step a s).bind (run step labels) := by
  rw [run, List.foldlM_cons]
  rfl

theorem run_append :
    run step (labels ++ rest) s = (run step labels s).bind (run step rest) := by
  induction labels generalizing s with
  | nil => simp
  | cons a labels ih =>
    rw [List.cons_append, run_cons, run_cons, Option.bind_assoc]
    exact Option.bind_congr fun u _ => ih

/-- The state after a run that is continued by a second run. -/
theorem run_append_of_eq (first : run step labels s = some t) (second : run step rest t = some u) :
    run step (labels ++ rest) s = some u := by
  rw [run_append, first, Option.bind_some, second]

/-- One more label in front of a run. -/
theorem run_cons_of_eq (first : step a s = some t) (second : run step labels t = some u) :
    run step (a :: labels) s = some u := by
  rw [run_cons, first, Option.bind_some, second]

/-- Some run from `init` ends in the state. -/
def Reachable (step : α → σ → Option σ) (init s : σ) : Prop :=
  ∃ labels, run step labels init = some s

theorem Reachable.refl : Reachable step s s := ⟨[], rfl⟩

theorem Reachable.run (h : Reachable step s t) (hrun : run step labels t = some u) :
    Reachable step s u := by
  obtain ⟨before, hbefore⟩ := h
  exact ⟨before ++ labels, run_append_of_eq hbefore hrun⟩

theorem Reachable.tail (h : Reachable step s t) (hstep : step a t = some u) :
    Reachable step s u :=
  h.run (run_cons_of_eq hstep run_nil)

/-- From a state of the invariant every step is defined and stays in it. -/
def Preserves (step : α → σ → Option σ) (Inv : σ → Prop) : Prop :=
  ∀ a s, Inv s → ∃ t, step a s = some t ∧ Inv t

variable {Inv : σ → Prop}

/-- What the steps of a run preserve, the run preserves, and it does not fault. -/
theorem run_of_forall_mem (h : ∀ a ∈ labels, ∀ s, Inv s → ∃ t, step a s = some t ∧ Inv t)
    (hs : Inv s) : ∃ t, run step labels s = some t ∧ Inv t := by
  induction labels generalizing s with
  | nil => exact ⟨s, rfl, hs⟩
  | cons a labels ih =>
    obtain ⟨hfirst, hlabels⟩ := List.forall_mem_cons.mp h
    obtain ⟨t, hstep, ht⟩ := hfirst s hs
    obtain ⟨u, hrun, hu⟩ := ih hlabels ht
    exact ⟨u, run_cons_of_eq hstep hrun, hu⟩

/-- What every step preserves, every run preserves, and no run faults. -/
theorem Preserves.run (h : Preserves step Inv) (labels : List α) (hs : Inv s) :
    ∃ t, run step labels s = some t ∧ Inv t :=
  run_of_forall_mem (fun a _ => h a) hs

/-- What every step with a result preserves, every run with a result preserves. -/
theorem run_invariant (h : ∀ a s t, Inv s → step a s = some t → Inv t) (hs : Inv s)
    (hrun : run step labels s = some t) : Inv t := by
  induction labels generalizing s with
  | nil => exact Option.some.inj hrun ▸ hs
  | cons a labels ih =>
    rw [run_cons, Option.bind_eq_some_iff] at hrun
    obtain ⟨u, hstep, hrun⟩ := hrun
    exact ih (h a s u hs hstep) hrun

theorem Preserves.reachable (h : Preserves step Inv) (hs : Inv s) (ht : Reachable step s t) :
    Inv t := by
  obtain ⟨labels, hrun⟩ := ht
  obtain ⟨u, hu, hinv⟩ := h.run labels hs
  rw [hrun] at hu
  exact Option.some.inj hu ▸ hinv

/-! ## Conditions along a run -/

/-- Every state that the run passes has the property, the first and the last one included. -/
def Throughout (step : α → σ → Option σ) (P : σ → Prop) : List α → σ → Prop
  | [], s => P s
  | a :: labels, s => P s ∧ ∀ t, step a s = some t → Throughout step P labels t

/-- Every step that the run takes meets the condition, in the state in which it is taken. -/
def Along (step : α → σ → Option σ) (C : α → σ → Prop) : List α → σ → Prop
  | [], _ => True
  | a :: labels, s => C a s ∧ ∀ t, step a s = some t → Along step C labels t

variable {P : σ → Prop} {C : α → σ → Prop}

theorem Throughout.head (h : Throughout step P labels s) : P s := by
  cases labels with
  | nil => exact h
  | cons a labels => exact h.1

/-- The property holds behind every part of the run. -/
theorem throughout_iff :
    Throughout step P labels s ↔
      ∀ first, first <+: labels → ∀ t, run step first s = some t → P t := by
  induction labels generalizing s with
  | nil =>
    simp only [Throughout, List.prefix_nil, forall_eq, run_nil, Option.some.injEq, forall_eq']
  | cons a labels ih =>
    rw [Throughout]
    constructor
    · rintro ⟨hs, hlabels⟩ first hfirst t hrun
      cases first with
      | nil => exact Option.some.inj hrun ▸ hs
      | cons b first =>
        obtain ⟨rfl, hrest⟩ := List.cons_prefix_cons.mp hfirst
        rw [run_cons, Option.bind_eq_some_iff] at hrun
        obtain ⟨u, hstep, hrun⟩ := hrun
        exact ih.mp (hlabels u hstep) first hrest t hrun
    · intro h
      refine ⟨h [] (List.nil_prefix) s rfl, fun t hstep => ih.mpr ?_⟩
      intro first hfirst u hrun
      exact h (a :: first) (List.cons_prefix_cons.mpr ⟨rfl, hfirst⟩) u
        (run_cons_of_eq hstep hrun)

/-- The property holds at the end of the run. -/
theorem Throughout.last (h : Throughout step P labels s) (hrun : run step labels s = some t) :
    P t :=
  throughout_iff.mp h labels List.prefix_rfl t hrun

theorem Throughout.mono {Q : σ → Prop} (h : Throughout step P labels s)
    (hpq : ∀ t, P t → Q t) : Throughout step Q labels s :=
  throughout_iff.mpr fun first hfirst t hrun => hpq t (throughout_iff.mp h first hfirst t hrun)

theorem along_cons_of_none (hstep : step a s = none) :
    Along step C (a :: labels) s ↔ C a s := by
  rw [Along, hstep]
  exact and_iff_left fun t ht => by cases ht

theorem along_cons_of_some (hstep : step a s = some t) :
    Along step C (a :: labels) s ↔ C a s ∧ Along step C labels t := by
  rw [Along, hstep]
  exact and_congr_right fun _ => ⟨fun h => h t rfl, fun h u hu => Option.some.inj hu ▸ h⟩

/-- The condition of a run can be evaluated, step by step. -/
instance decidableAlong [∀ a s, Decidable (C a s)] :
    (labels : List α) → (s : σ) → Decidable (Along step C labels s)
  | [], _ => isTrue trivial
  | a :: labels, s =>
    match hstep : step a s with
    | none => decidable_of_iff _ (along_cons_of_none hstep).symm
    | some t =>
      have := decidableAlong labels t
      decidable_of_iff _ (along_cons_of_some hstep).symm

/-- Under the condition the steps keep the invariant, which implies the property. -/
theorem Along.throughout (Inv : σ → Prop)
    (hstep : ∀ a s t, Inv s → C a s → step a s = some t → Inv t) (hinv : ∀ s, Inv s → P s)
    (h : Along step C labels s) (hs : Inv s) :
    Throughout step P labels s := by
  induction labels generalizing s with
  | nil => exact hinv s hs
  | cons a labels ih => exact ⟨hinv s hs, fun t ht => ih (h.2 t ht) (hstep a s t hs h.1 ht)⟩

/-- An invariant of the steps holds throughout every run. -/
theorem throughout_of_invariant (Inv : σ → Prop)
    (hstep : ∀ a s t, Inv s → step a s = some t → Inv t) (hinv : ∀ s, Inv s → P s) (hs : Inv s)
    (labels : List α) : Throughout step P labels s :=
  throughout_iff.mpr fun _ _ t hrun => hinv t (run_invariant hstep hs hrun)

/-- A condition that the labels meet in every state. -/
theorem along_of_forall (h : ∀ a ∈ labels, ∀ s, C a s) (s : σ) : Along step C labels s := by
  induction labels generalizing s with
  | nil => trivial
  | cons a labels ih =>
    obtain ⟨ha, hlabels⟩ := List.forall_mem_cons.mp h
    exact ⟨ha s, fun t _ => ih hlabels t⟩

/-- Under the condition the steps do not fault, and so the run does not. -/
theorem Along.run (Inv : σ → Prop)
    (hstep : ∀ a s, Inv s → C a s → ∃ t, step a s = some t ∧ Inv t)
    (h : Along step C labels s) (hs : Inv s) :
    ∃ t, run step labels s = some t ∧ Inv t := by
  induction labels generalizing s with
  | nil => exact ⟨s, rfl, hs⟩
  | cons a labels ih =>
    obtain ⟨t, ht, hinv⟩ := hstep a s hs h.1
    obtain ⟨u, hrun, hu⟩ := ih (h.2 t ht) hinv
    exact ⟨u, run_cons_of_eq ht hrun, hu⟩

/-- The condition is exact for a property that a step outside of it ends at once, in a run whose
steps meet an assumption. -/
theorem Along.throughout_iff {A : α → σ → Prop} (hA : Along step A labels s) (Inv : σ → Prop)
    (hstep : ∀ a s t, Inv s → A a s → C a s → step a s = some t → Inv t)
    (hinv : ∀ s, Inv s → P s)
    (hexact : ∀ a s, Inv s → A a s → ¬C a s → ∃ t, step a s = some t ∧ ¬P t) (hs : Inv s) :
    Throughout step P labels s ↔ Along step C labels s := by
  induction labels generalizing s with
  | nil => exact iff_of_true (hinv s hs) trivial
  | cons a labels ih =>
    obtain ⟨ha, hrest⟩ := hA
    constructor
    · rintro ⟨-, h⟩
      have hc : C a s := by
        by_contra hc
        obtain ⟨t, ht, hnot⟩ := hexact a s hs ha hc
        exact hnot (h t ht).head
      exact ⟨hc, fun t ht => (ih (hrest t ht) (hstep a s t hs ha hc ht)).mp (h t ht)⟩
    · rintro ⟨hc, h⟩
      exact ⟨hinv s hs, fun t ht => (ih (hrest t ht) (hstep a s t hs ha hc ht)).mpr (h t ht)⟩

/-- The condition is exact in every run. -/
theorem throughout_iff_along (Inv : σ → Prop)
    (hstep : ∀ a s t, Inv s → C a s → step a s = some t → Inv t) (hinv : ∀ s, Inv s → P s)
    (hexact : ∀ a s, Inv s → ¬C a s → ∃ t, step a s = some t ∧ ¬P t) (hs : Inv s) :
    Throughout step P labels s ↔ Along step C labels s :=
  (along_of_forall (C := fun _ _ => True) (fun _ _ _ => trivial) s).throughout_iff Inv
    (fun a s t hs _ => hstep a s t hs) hinv (fun a s hs _ => hexact a s hs) hs

/-! ## Records of a run -/

section Recorded

variable {η : Type*} {note : α → σ → σ → η → η} {r r' : σ × η}

/-- The machine next to a record, which it does not read: `note a s t` is what the step from `s`
to `t` makes of the record. -/
def recorded (step : α → σ → Option σ) (note : α → σ → σ → η → η) (a : α) (r : σ × η) :
    Option (σ × η) :=
  (step a r.1).map fun t => (t, note a r.1 t r.2)

theorem recorded_eq_some_iff :
    recorded step note a r = some r' ↔ step a r.1 = some r'.1 ∧ r'.2 = note a r.1 r'.1 r.2 := by
  rw [recorded, Option.map_eq_some_iff]
  constructor
  · rintro ⟨t, ht, rfl⟩
    exact ⟨ht, rfl⟩
  · rintro ⟨ht, hnote⟩
    exact ⟨r'.1, ht, Prod.ext rfl hnote.symm⟩

/-- The record changes no run. -/
theorem run_of_run_recorded (h : run (recorded step note) labels r = some r') :
    run step labels r.1 = some r'.1 := by
  induction labels generalizing r with
  | nil => exact congrArg (Option.map Prod.fst) h
  | cons a labels ih =>
    rw [run_cons, Option.bind_eq_some_iff] at h
    obtain ⟨u, hstep, hrun⟩ := h
    exact run_cons_of_eq (recorded_eq_some_iff.mp hstep).1 (ih hrun)

end Recorded

end FaultMachine
