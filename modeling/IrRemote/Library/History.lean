import Mathlib.Data.List.Basic

/-!
# Histories

A history lists the events of a run, the last one first. The two past operators of temporal logic
speak about an event together with the history before it.

## Main definitions

* `History.Since` — an event of a kind has happened, and none behind it has ended this
* `History.Always` — every event has a property

## Main results

* `History.since_cons`, `History.always_cons` — what the last event does
-/

set_option autoImplicit false

namespace History

variable {α : Type*} {ends : α → Prop} {P : α → List α → Prop} {a : α} {history : List α}

/-- An event with `P` has happened, and no event behind it ends this. -/
def Since (ends : α → Prop) (P : α → List α → Prop) : List α → Prop
  | [] => False
  | a :: history => P a history ∨ ¬ends a ∧ Since ends P history

/-- Every event has `P`. -/
def Always (P : α → List α → Prop) : List α → Prop
  | [] => True
  | a :: history => P a history ∧ Always P history

theorem since_cons :
    Since ends P (a :: history) ↔ P a history ∨ ¬ends a ∧ Since ends P history := Iff.rfl

theorem always_cons : Always P (a :: history) ↔ P a history ∧ Always P history := Iff.rfl

/-- The event itself. -/
theorem Since.head (h : P a history) : Since ends P (a :: history) := .inl h

/-- An event that ends nothing changes nothing. -/
theorem Since.cons (h : Since ends P history) (ha : ¬ends a) : Since ends P (a :: history) :=
  .inr ⟨ha, h⟩

end History
