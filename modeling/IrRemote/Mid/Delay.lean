import Mathlib.Algebra.Order.Ring.Nat
import Mathlib.Data.List.Basic

/-!
# Delays and marks

A delay polls the microseconds of the system timer, and a mark switches the carrier on and
off between its polls. The timer is a 32-bit counter of 16 ticks to a microsecond; what a
delay reads of it is a list of captures. The results are the poll at which a function
returns, if the captures reach so far, and what it writes to the pin.

## Main definitions

* `sysTimerGetUsValue` — the microseconds of a capture
* `customDelayMicroseconds`, `space` — waiting
* `mark` — the carrier
-/

set_option autoImplicit false

namespace IrRemote

/-- The microseconds of a capture of the 16 MHz counter. -/
def sysTimerGetUsValue (capture : ℕ) : ℕ := capture / 16

/-- The difference of two `uint32_t`. -/
def subMicros (a b : ℕ) : ℕ := (a + 4294967296 - b) % 4294967296

/-- The polls of the delay, each with a capture. -/
def customDelayPolls (start aMicroseconds : ℕ) : List ℕ → Option ℕ
  | [] => none
  | capture :: captures =>
    if subMicros (sysTimerGetUsValue capture) start < aMicroseconds then
      (customDelayPolls start aMicroseconds captures).map (· + 1)
    else some 0

/-- The poll at which a delay returns that has started at a capture. -/
def customDelayMicroseconds (aMicroseconds capture : ℕ) (captures : List ℕ) : Option ℕ :=
  customDelayPolls (sysTimerGetUsValue capture) aMicroseconds captures

def space (aSpaceMicros capture : ℕ) (captures : List ℕ) : Option ℕ :=
  customDelayMicroseconds aSpaceMicros capture captures

/-- What a mark writes to the pin, and the poll at which it returns. -/
@[ext] structure MarkRun where
  pinWrites : List Bool
  returned : Option ℕ
deriving DecidableEq, Repr

/-- The carrier is on and off again at the start of a period. -/
def MarkRun.pulse (r : MarkRun) : MarkRun := { r with pinWrites := true :: false :: r.pinWrites }

/-- One more poll in front. -/
def MarkRun.poll (r : MarkRun) : MarkRun := { r with returned := r.returned.map (· + 1) }

/-- The polls of a mark between the end of an on time and the return. -/
def markPolls (periodTimeMicros aMarkMicros tStartMicros : ℕ) : ℕ → List ℕ → MarkRun
  | _, [] => ⟨[], none⟩
  | tNextPeriodEnding, capture :: captures =>
    let tMicros := sysTimerGetUsValue capture
    -- the difference is assigned to a `uint16_t`
    let tDeltaMicros := subMicros tMicros tStartMicros % 65536
    if aMarkMicros ≤ tDeltaMicros then ⟨[], some 0⟩
    -- an ordered comparison, unlike the one for the end of the mark
    else if tMicros < tNextPeriodEnding then
      (markPolls periodTimeMicros aMarkMicros tStartMicros tNextPeriodEnding captures).poll
    else
      (markPolls periodTimeMicros aMarkMicros tStartMicros
        ((tNextPeriodEnding + periodTimeMicros) % 4294967296) captures).pulse.poll

/-- A mark that has started at a capture. -/
def mark (periodTimeMicros aMarkMicros capture : ℕ) (captures : List ℕ) : MarkRun :=
  let tStartMicros := sysTimerGetUsValue capture
  (markPolls periodTimeMicros aMarkMicros tStartMicros
    ((tStartMicros + periodTimeMicros) % 4294967296) captures).pulse

/-! ## Polls -/

theorem findIdx?_congr_of_mem {α : Type*} {p q : α → Bool} {l : List α}
    (h : ∀ a ∈ l, p a = q a) : l.findIdx? p = l.findIdx? q := by
  induction l with
  | nil => rfl
  | cons a l ih =>
    obtain ⟨ha, hl⟩ := List.forall_mem_cons.mp h
    rw [List.findIdx?_cons, List.findIdx?_cons, ha, ih hl]

/-- Of polls in ascending order, the first that is chosen is no later than any other. -/
theorem exists_findIdx?_of_mem {p : ℕ → Bool} {l : List ℕ} {e : ℕ}
    (hsorted : l.Pairwise (· ≤ ·)) (hmem : e ∈ l) (hp : p e = true) :
    ∃ k a, l.findIdx? p = some k ∧ l[k]? = some a ∧ a ≤ e := by
  induction l with
  | nil => exact absurd hmem List.not_mem_nil
  | cons a l ih =>
    obtain ⟨hfirst, hsorted⟩ := List.pairwise_cons.mp hsorted
    rw [List.findIdx?_cons]
    by_cases ha : p a = true
    · -- the first poll is chosen, and no other is earlier
      refine ⟨0, a, if_pos ha, rfl, ?_⟩
      rcases List.mem_cons.mp hmem with rfl | hmem
      · exact le_rfl
      · exact hfirst e hmem
    · have hrest : e ∈ l := (List.mem_cons.mp hmem).resolve_left fun h => ha (h ▸ hp)
      obtain ⟨k, b, hk, hb, hle⟩ := ih hsorted hrest
      refine ⟨k + 1, b, ?_, hb, hle⟩
      rw [if_neg ha, hk]
      rfl

variable {start aMicroseconds periodTimeMicros aMarkMicros tStartMicros : ℕ}
  {captures : List ℕ}

/-- A delay returns at the first poll at which it is over. -/
theorem customDelayPolls_eq : customDelayPolls start aMicroseconds captures =
    captures.findIdx? fun capture =>
      decide (aMicroseconds ≤ subMicros (sysTimerGetUsValue capture) start) := by
  induction captures with
  | nil => rfl
  | cons capture captures ih =>
    rw [customDelayPolls, List.findIdx?_cons, ih]
    by_cases h : aMicroseconds ≤ subMicros (sysTimerGetUsValue capture) start
    · rw [if_neg (Nat.not_lt.mpr h), if_pos (decide_eq_true h)]
    · rw [if_pos (Nat.not_le.mp h), if_neg (by simpa using h)]

/-- A mark returns at the first poll at which it is over, whatever the carrier does. -/
theorem returned_markPolls (tNextPeriodEnding : ℕ) :
    (markPolls periodTimeMicros aMarkMicros tStartMicros tNextPeriodEnding captures).returned =
      captures.findIdx? fun capture =>
        decide (aMarkMicros ≤ subMicros (sysTimerGetUsValue capture) tStartMicros % 65536) := by
  induction captures generalizing tNextPeriodEnding with
  | nil => rfl
  | cons capture captures ih =>
    rw [markPolls, List.findIdx?_cons]
    by_cases h : aMarkMicros ≤ subMicros (sysTimerGetUsValue capture) tStartMicros % 65536
    · rw [if_pos h, if_pos (decide_eq_true h)]
    · have hover : ¬decide (aMarkMicros ≤
          subMicros (sysTimerGetUsValue capture) tStartMicros % 65536) = true := by simpa using h
      rw [if_neg h, if_neg hover]
      split_ifs
      · exact congrArg (Option.map (· + 1)) (ih _)
      · exact congrArg (Option.map (· + 1)) (ih _)

end IrRemote
