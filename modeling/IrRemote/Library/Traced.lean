import Mathlib.Logic.Basic

/-!
# Computations that record what they read

A computation over a memory may fail, and it leaves a record of the places it has read,
also when it fails. Erasing the record gives the computation back.

## Main definitions

* `Traced` — a result and the places read for it
* `Traced.ReadsIn` — every place read satisfies a predicate

## Main results

* `Traced.result_bind` — erasure commutes with sequencing
* `Traced.ReadsIn.bind` — a sequence reads what its parts read
-/

set_option autoImplicit false

/-- A result, `none` for a failure, and the places read on the way to it. -/
structure Traced (ι α : Type) where
  result : Option α
  reads : List ι

namespace Traced

variable {ι α β : Type}

/-- A failure. -/
def fail : Traced ι α := ⟨none, []⟩

/-- Fetch the value at a place. -/
def read (fetch : ι → Option α) (i : ι) : Traced ι α := ⟨fetch i, [i]⟩

/-- The second computation runs when the first has succeeded. -/
protected def bind (x : Traced ι α) (f : α → Traced ι β) : Traced ι β :=
  match x.result with
  | none => ⟨none, x.reads⟩
  | some a => ⟨(f a).result, x.reads ++ (f a).reads⟩

instance : Monad (Traced ι) where
  pure a := ⟨some a, []⟩
  bind := Traced.bind

/-! ## Erasure -/

@[simp] theorem result_pure (a : α) : (pure a : Traced ι α).result = some a := rfl

@[simp] theorem result_read (fetch : ι → Option α) (i : ι) : (read fetch i).result = fetch i := rfl

@[simp] theorem result_bind (x : Traced ι α) (f : α → Traced ι β) :
    (x >>= f).result = x.result >>= fun a => (f a).result := by
  change (Traced.bind x f).result = _
  unfold Traced.bind
  cases x.result <;> rfl

@[simp] theorem result_ite (c : Prop) [Decidable c] (x y : Traced ι α) :
    (if c then x else y).result = if c then x.result else y.result :=
  apply_ite result c x y

/-! ## Places read -/

/-- Every place read satisfies the predicate. -/
def ReadsIn (P : ι → Prop) (x : Traced ι α) : Prop := ∀ i ∈ x.reads, P i

variable {P : ι → Prop} {x : Traced ι α} {f : α → Traced ι β}

theorem ReadsIn.pure (a : α) : ReadsIn P (pure a : Traced ι α) := fun _ hi =>
  absurd hi List.not_mem_nil

theorem ReadsIn.fail : ReadsIn P (fail : Traced ι α) := fun _ hi => absurd hi List.not_mem_nil

theorem ReadsIn.read {fetch : ι → Option α} {i : ι} (h : P i) : ReadsIn P (read fetch i) :=
  fun _ hi => List.mem_singleton.mp hi ▸ h

/-- The second computation is only asked about results of the first. -/
theorem ReadsIn.bind (hx : ReadsIn P x) (hf : ∀ a, x.result = some a → ReadsIn P (f a)) :
    ReadsIn P (x >>= f) := by
  change ReadsIn P (Traced.bind x f)
  unfold Traced.bind
  cases hresult : x.result with
  | none => exact hx
  | some a =>
    intro i hi
    rcases List.mem_append.mp hi with hi | hi
    · exact hx i hi
    · exact hf a hresult i hi

theorem ReadsIn.ite {c : Prop} [Decidable c] {x y : Traced ι α} (hx : c → ReadsIn P x)
    (hy : ¬c → ReadsIn P y) : ReadsIn P (if c then x else y) := by
  by_cases h : c
  · rw [if_pos h]
    exact hx h
  · rw [if_neg h]
    exact hy h

end Traced
