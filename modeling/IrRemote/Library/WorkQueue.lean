import Mathlib.Data.List.Basic

/-!
# Work queues

The events of a work queue are handled in their order, one at a time, and an event leaves
the queue when its handler has returned. What the state comes to when everything that waits
has been handled is not changed by handling, and an event that is put at the end is handled
last.

## Main definitions

* `WorkQueue` — the pending events, of which the first may be running
* `WorkQueue.push`, `WorkQueue.start`, `WorkQueue.finish` — the operations
* `WorkQueue.settle` — the state when the waiting events have been handled

## Main results

* `WorkQueue.settle_push`, `WorkQueue.settle_start`, `WorkQueue.settle_finish`
-/

set_option autoImplicit false

/-- Pending events. The first one stays in the queue while its handler is running. -/
@[ext] structure WorkQueue (ε : Type*) where
  pending : List ε
  running : Bool
  ne_nil : running = true → pending ≠ []
deriving DecidableEq

namespace WorkQueue

variable {ε σ : Type*} {q : WorkQueue ε} {e : ε} {f : σ → ε → σ} {s : σ}

def empty : WorkQueue ε := ⟨[], false, nofun⟩

/-- Put an event at the end. -/
def push (q : WorkQueue ε) (e : ε) : WorkQueue ε :=
  ⟨q.pending ++ [e], q.running, fun _ => by simp⟩

/-- The event whose handler is the next to run. -/
def next? (q : WorkQueue ε) : Option ε := if q.running then none else q.pending.head?

/-- The handler of the first event runs. -/
def start (q : WorkQueue ε) : WorkQueue ε :=
  ⟨q.pending, !q.pending.isEmpty, fun h hnil => by simp [hnil] at h⟩

/-- The handler has returned, and its event leaves the queue. -/
def finish (q : WorkQueue ε) : WorkQueue ε :=
  if q.running then ⟨q.pending.tail, false, nofun⟩ else q

/-- The events whose handlers have not run yet. -/
def waiting (q : WorkQueue ε) : List ε := if q.running then q.pending.tail else q.pending

/-- The state when the handlers of the waiting events have run. -/
def settle (f : σ → ε → σ) (q : WorkQueue ε) (s : σ) : σ := q.waiting.foldl f s

theorem mem_of_next? (h : q.next? = some e) : e ∈ q.pending := by
  rw [next?] at h
  split_ifs at h
  exact List.mem_of_head? h

theorem pending_finish_sublist : q.finish.pending.Sublist q.pending := by
  rw [finish]
  split_ifs
  · exact List.tail_sublist _
  · exact List.Sublist.refl _

theorem settle_of_nil (h : q.pending = []) : settle f q s = s := by
  rw [settle, waiting, h]
  split_ifs <;> rfl

theorem waiting_push : (q.push e).waiting = q.waiting ++ [e] := by
  rw [waiting, waiting, push]
  split_ifs with h
  -- the event that is running stands in front of the new one
  · exact List.tail_append_of_ne_nil (q.ne_nil h)
  · rfl

/-- The event that was put last is handled last. -/
theorem settle_push : settle f (q.push e) s = f (settle f q s) e := by
  rw [settle, waiting_push, List.foldl_append]
  rfl

theorem settle_start (h : q.next? = some e) : settle f q.start (f s e) = settle f q s := by
  obtain ⟨pending, running, hne⟩ := q
  cases running with
  | true => simp [next?] at h
  | false =>
    cases pending with
    -- an empty queue has no next event
    | nil => simp [next?] at h
    | cons a rest =>
      obtain rfl : a = e := Option.some.inj h
      rfl

theorem settle_finish : settle f q.finish s = settle f q s := by
  rw [settle, settle, finish]
  split_ifs with h
  · rw [waiting, waiting, if_pos h]
    rfl
  · rfl

end WorkQueue
