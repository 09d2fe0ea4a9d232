import Mathlib.Data.Nat.Notation
import Mathlib.Tactic.Common
import Mathlib.Tactic.SplitIfs

/-!
# Attempts and chains of attempts

An attempt takes a state and either accepts or refuses, changing the state in both
cases, or has no defined result. A chain tries its attempts in order until one
accepts. What an attempt guarantees is a pair of postconditions, one for an
acceptance and one for a refusal, with a rule for every construct an attempt is
written with; the guarantees of a chain follow from those of its members.

## Main definitions

* `Attempt` — a function from a state to an answer and a state
* `Attempt.Ensures` — the postconditions of a result
* `Attempt.Defined` — there is a result
* `Attempt.firstOf` — the chain

## Main results

* `Ensures.accept`, `Ensures.refuse`, `Ensures.bind`, `Ensures.ite` — the rules
* `firstOf_cons_of_refuse`, `firstOf_cons_of_accept`, `firstOf_append` — running a chain
* `Ensures.firstOf_cons`, `Ensures.firstOf` — the guarantee of a chain
-/

set_option autoImplicit false

universe u

/-- A state is either accepted or refused. -/
abbrev Attempt (σ : Type u) := σ → Option (Bool × σ)

namespace Attempt

variable {α σ : Type u} {P Q P' Q' : σ → Prop} {r r' : Option (Bool × σ)} {s t : σ}

/-- Every defined result is an acceptance with the first or a refusal with the second
postcondition. -/
def Ensures (P Q : σ → Prop) (r : Option (Bool × σ)) : Prop :=
  ∀ b s, r = some (b, s) → if b then P s else Q s

theorem Ensures.accept (h : P s) : Ensures P Q (some (true, s)) := by
  rintro b t ⟨⟩
  exact h

theorem Ensures.refuse (h : Q s) : Ensures P Q (some (false, s)) := by
  rintro b t ⟨⟩
  exact h

theorem Ensures.bind {x : Option α} {f : α → Option (Bool × σ)}
    (h : ∀ a, x = some a → Ensures P Q (f a)) : Ensures P Q (x >>= f) := by
  intro b t ht
  obtain ⟨a, hx, hf⟩ := Option.bind_eq_some_iff.mp ht
  exact h a hx b t hf

theorem Ensures.ite {c : Prop} [Decidable c] (hpos : c → Ensures P Q r)
    (hneg : ¬c → Ensures P Q r') : Ensures P Q (if c then r else r') := by
  split_ifs with hc
  · exact hpos hc
  · exact hneg hc

theorem Ensures.mono (h : Ensures P Q r) (hP : ∀ s, P s → P' s) (hQ : ∀ s, Q s → Q' s) :
    Ensures P' Q' r := by
  intro b t ht
  have hpost := h b t ht
  cases b
  · exact hQ t hpost
  · exact hP t hpost

/-- Only the refusal matters. -/
theorem Ensures.refusal (h : Ensures P Q r) (hQ : ∀ s, Q s → Q' s) :
    Ensures (fun _ => True) Q' r :=
  h.mono (fun _ _ => trivial) hQ

/-- Both halves apart. -/
theorem Ensures.of_halves (hP : ∀ s, r = some (true, s) → P s)
    (hQ : Ensures (fun _ => True) Q r) : Ensures P Q r := by
  intro b t ht
  cases b
  · exact hQ false t ht
  · exact hP t ht

theorem Ensures.of_accept (h : Ensures P Q r) (hr : r = some (true, s)) : P s :=
  h true s hr

theorem Ensures.of_refuse (h : Ensures P Q r) (hr : r = some (false, s)) : Q s :=
  h false s hr

/-! ### Totality -/

/-- The result is defined. -/
def Defined (x : Option α) : Prop := ∃ a, x = some a

theorem Defined.some (a : α) : Defined (some a) := ⟨a, rfl⟩

theorem Defined.bind {β : Type u} {x : Option α} {f : α → Option β} (hx : Defined x)
    (hf : ∀ a, x = Option.some a → Defined (f a)) : Defined (x >>= f) := by
  obtain ⟨a, rfl⟩ := hx
  exact hf a rfl

theorem Defined.ite {c : Prop} [Decidable c] {x y : Option α} (hpos : c → Defined x)
    (hneg : ¬c → Defined y) : Defined (if c then x else y) := by
  split_ifs with hc
  · exact hpos hc
  · exact hneg hc

/-! ### Chains -/

/-- The first attempt that accepts; each sees the state its predecessors left. -/
def firstOf : List (Attempt σ) → Attempt σ
  | [], s => some (false, s)
  | a :: rest, s => do
    let (accepted, s) ← a s
    if accepted then some (true, s) else firstOf rest s

variable {a : Attempt σ} {rest before : List (Attempt σ)}

theorem firstOf_cons_of_refuse (h : a s = some (false, t)) :
    firstOf (a :: rest) s = firstOf rest t := by
  simp [firstOf, h]

theorem firstOf_cons_of_accept (h : a s = some (true, t)) :
    firstOf (a :: rest) s = some (true, t) := by
  simp [firstOf, h]

/-- The later attempts are only tried when the first ones have all refused. -/
theorem firstOf_append (before rest : List (Attempt σ)) (s : σ) :
    firstOf (before ++ rest) s =
      (firstOf before s).bind fun r => if r.1 then some (true, r.2) else firstOf rest r.2 := by
  induction before generalizing s with
  | nil => rfl
  | cons a before ih =>
    rw [List.cons_append, firstOf, firstOf, Option.bind_eq_bind, Option.bind_assoc]
    apply Option.bind_congr
    rintro ⟨accepted, t⟩ -
    cases accepted
    · exact ih t
    · rfl

theorem firstOf_append_of_refuse (h : firstOf before s = some (false, t)) :
    firstOf (before ++ rest) s = firstOf rest t := by
  rw [firstOf_append, h]
  rfl

theorem firstOf_append_of_accept (h : firstOf before s = some (true, t)) :
    firstOf (before ++ rest) s = some (true, t) := by
  rw [firstOf_append, h]
  rfl

theorem Ensures.firstOf_cons {R : σ → Prop} (ha : Ensures P R (a s))
    (hrest : ∀ t, R t → Ensures P Q (Attempt.firstOf rest t)) :
    Ensures P Q (Attempt.firstOf (a :: rest) s) := by
  refine .bind fun ⟨b, t⟩ hat => .ite (fun hb => .accept ?_) fun hb => hrest t ?_
  · subst hb
    exact ha.of_accept hat
  · obtain rfl : b = false := by simpa using hb
    exact ha.of_refuse hat

/-- A chain is defined when its members are. -/
theorem Defined.firstOf {attempts : List (Attempt σ)} (h : ∀ a ∈ attempts, ∀ s, Defined (a s))
    (s : σ) : Defined (Attempt.firstOf attempts s) := by
  induction attempts generalizing s with
  | nil => exact .some _
  | cons a rest ih =>
    obtain ⟨ha, hrest⟩ := List.forall_mem_cons.mp h
    exact .bind (ha s) fun _ _ => .ite (fun _ => .some _) fun _ => ih hrest _

/-- What the members of a chain guarantee in every state their predecessors may leave, the
chain guarantees. -/
theorem Ensures.firstOf {attempts : List (Attempt σ)}
    (h : ∀ a ∈ attempts, ∀ s, Q s → Ensures P Q (a s)) (hs : Q s) :
    Ensures P Q (Attempt.firstOf attempts s) := by
  induction attempts generalizing s with
  | nil => exact .refuse hs
  | cons a rest ih =>
    obtain ⟨ha, hrest⟩ := List.forall_mem_cons.mp h
    exact .firstOf_cons (ha s hs) fun t ht => ih hrest ht

end Attempt
