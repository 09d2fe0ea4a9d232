import IrRemote.Receiver.Interrupt

/-!
# The receiver invariant

The mark branch of the interrupt handler writes the buffer without a bounds check.
That this is safe rests on a parity relation between the state, `rawlen` and the
even length of the buffer, which every operation preserves. The same invariant
bounds the recorded durations on which the decoders rely.

## Main results

* `ReceiverInv.isr`, `ReceiverInv.resume`, `ReceiverInv.tick` — the step lemmas
* `receiverStep_preserves` — one operation of a run
* `receiver_run_invariant` — every run from power-up
-/

set_option autoImplicit false

namespace IrRemote

variable {p q : IrParams} {i t level : ℕ}

/-- What the receiver record satisfies between any two operations. -/
structure ReceiverInv (p : IrParams) : Prop where
  rawlen_le : p.rawlen ≤ rawBufferLength
  mark_odd : p.stateForISR = .mark → p.rawlen % 2 = 1
  space_even : p.stateForISR = .space → p.rawlen % 2 = 0 ∧ 2 ≤ p.rawlen
  stop_even : p.stateForISR = .stop → p.rawlen % 2 = 0 ∧ 2 ≤ p.rawlen
  stop_overflow : p.stateForISR = .stop → p.overflowFlag = true → p.rawlen = rawBufferLength
  gap : p.stateForISR ≠ .idle → ∀ t, p.raw 0 = some t → recordGapTicks < t
  entry_pos : ∀ i t, 1 ≤ i → i < p.rawlen → p.raw i = some t → 1 ≤ t
  space_le : ∀ i t, 2 ≤ i → i < p.rawlen → i % 2 = 0 → p.raw i = some t → t ≤ recordGapTicks + 1
  tick_le : p.tickCounterForISR ≤ uint16MaxCustom
  /-- A space that is still running is shorter than a gap. -/
  space_tick : p.stateForISR = .space → p.tickCounterForISR ≤ recordGapTicks
  /-- The flag of an earlier frame is cleared by the first mark of the next. -/
  no_overflow : p.stateForISR = .mark ∨ p.stateForISR = .space → p.overflowFlag = false

theorem receiverInv_zero : ReceiverInv IrParams.zero := by
  constructor <;> simp [IrParams.zero]

theorem ReceiverInv.tick (h : ReceiverInv p) {n : ℕ} (hn : n ≤ uint16MaxCustom)
    (hspace : p.stateForISR = .space → n ≤ recordGapTicks) :
    ReceiverInv { p with tickCounterForISR := n } :=
  { h with tick_le := hn, space_tick := hspace }

theorem ReceiverInv.resume (h : ReceiverInv p) : ReceiverInv (irRemoteResume p) := by
  unfold irRemoteResume
  split
  · exact { h with
      mark_odd := nofun, space_even := nofun, stop_even := nofun, stop_overflow := nofun
      gap := fun hne => absurd rfl hne, space_tick := nofun, no_overflow := nofun }
  · exact h

theorem ReceiverInv.nextTick_le (h : ReceiverInv p) :
    nextTick p.tickCounterForISR ≤ uint16MaxCustom := by
  rw [nextTick_eq h.tick_le]
  exact Nat.min_le_right _ _

theorem ReceiverInv.nextTick_pos (h : ReceiverInv p) : 1 ≤ nextTick p.tickCounterForISR := by
  rw [nextTick_eq h.tick_le]
  exact Nat.le_min.mpr ⟨Nat.le_add_left _ _, by decide⟩

/-- A new entry respects the bounds when its own value does. -/
theorem ReceiverInv.entries_record (h : ReceiverInv p) (hq : p.record t = some q) (ht : 1 ≤ t)
    (hspace : p.rawlen % 2 = 0 → t ≤ recordGapTicks + 1) :
    (∀ i u, 1 ≤ i → i < q.rawlen → q.raw i = some u → 1 ≤ u) ∧
      ∀ i u, 2 ≤ i → i < q.rawlen → i % 2 = 0 → q.raw i = some u → u ≤ recordGapTicks + 1 := by
  have hlen := IrParams.rawlen_record hq
  constructor
  · intro i u hi hlt hu
    rw [IrParams.raw_record hq] at hu
    split_ifs at hu with hlast
    · exact Option.some.inj hu ▸ ht
    · exact h.entry_pos i u hi (by omega) hu
  · intro i u hi hlt heven hu
    rw [IrParams.raw_record hq] at hu
    split_ifs at hu with hlast
    · exact Option.some.inj hu ▸ hspace (hlast ▸ heven)
    · exact h.space_le i u hi (by omega) heven hu

theorem ReceiverInv.gap_record (h : ReceiverInv p) (hq : p.record t = some q)
    (hs : p.stateForISR ≠ .idle) (hlen : p.rawlen ≠ 0) (u : ℕ) (hu : q.raw 0 = some u) :
    recordGapTicks < u := by
  rw [IrParams.raw_record hq, if_neg hlen.symm] at hu
  exact h.gap hs u hu

theorem ReceiverInv.isr_idle (h : ReceiverInv p) (hs : p.stateForISR = .idle) (level : ℕ) :
    ∃ q, timerLedEventHandler .compare0 level p = some q ∧ ReceiverInv q := by
  by_cases hl : level = inputMark
  · subst hl
    rcases Nat.lt_or_ge recordGapTicks (nextTick p.tickCounterForISR) with hgap | hgap
    · refine ⟨_, isr_idle_start hs hgap, ?_⟩
      -- the new frame holds nothing but its gap
      exact {
        rawlen_le := by simp only [rawBufferLength]; omega
        mark_odd := fun _ => rfl
        space_even := nofun
        stop_even := nofun
        stop_overflow := nofun
        gap := by
          intro _ t ht
          simp only [IrParams.raw, Vector.getElem?_set_self, Option.some.injEq] at ht
          exact ht ▸ hgap
        entry_pos := fun i t hi hlt => absurd hlt (Nat.not_lt.mpr hi)
        space_le := fun i t hi hlt => absurd hlt (by simp only; omega)
        tick_le := Nat.zero_le _
        space_tick := nofun
        no_overflow := fun _ => rfl }
    · exact ⟨_, isr_idle_short hs hgap, h.tick (Nat.zero_le _) (by simp [hs])⟩
  · exact ⟨_, isr_idle_space hs hl, h.tick h.nextTick_le (by simp [hs])⟩

theorem ReceiverInv.isr_mark (h : ReceiverInv p) (hs : p.stateForISR = .mark) (level : ℕ) :
    ∃ q, timerLedEventHandler .compare0 level p = some q ∧ ReceiverInv q := by
  by_cases hl : level = inputMark
  · subst hl
    exact ⟨_, isr_mark_mark hs, h.tick h.nextTick_le (by simp [hs])⟩
  · have hodd := h.mark_odd hs
    have hle := h.rawlen_le
    -- an odd length is never the full, even one
    have inside : p.rawlen < rawBufferLength := by
      unfold rawBufferLength at *
      omega
    obtain ⟨q, hq⟩ : ∃ q, p.record (nextTick p.tickCounterForISR) = some q :=
      ⟨_, IrParams.record_eq inside⟩
    have hlen := IrParams.rawlen_record hq
    obtain ⟨hpos, hspace⟩ := h.entries_record hq h.nextTick_pos (by omega)
    refine ⟨_, isr_mark_space hs hl hq, ?_⟩
    exact {
      rawlen_le := by simp only; omega
      mark_odd := nofun
      space_even := fun _ => by simp only; omega
      stop_even := nofun
      stop_overflow := nofun
      gap := fun _ u hu => h.gap_record hq (by simp [hs]) (by omega) u hu
      entry_pos := hpos
      space_le := hspace
      tick_le := Nat.zero_le _
      space_tick := fun _ => Nat.zero_le _
      no_overflow := fun _ => (IrParams.overflowFlag_record hq).trans (h.no_overflow (.inl hs)) }

theorem ReceiverInv.isr_space (h : ReceiverInv p) (hs : p.stateForISR = .space) (level : ℕ) :
    ∃ q, timerLedEventHandler .compare0 level p = some q ∧ ReceiverInv q := by
  have hle := h.rawlen_le
  obtain ⟨heven, htwo⟩ := h.space_even hs
  have hshort := h.space_tick hs
  have hnext := nextTick_eq h.tick_le
  have hflag := h.no_overflow (.inr hs)
  by_cases hl : level = inputMark
  · subst hl
    -- the end of a space is recorded while there is room, else the frame overflows
    rcases Nat.lt_or_ge p.rawlen rawBufferLength with inside | full
    · obtain ⟨q, hq⟩ : ∃ q, p.record (nextTick p.tickCounterForISR) = some q :=
        ⟨_, IrParams.record_eq inside⟩
      have hlen := IrParams.rawlen_record hq
      obtain ⟨hpos, hspace⟩ := h.entries_record hq h.nextTick_pos (by omega)
      refine ⟨_, isr_space_mark hs hq, ?_⟩
      exact {
        rawlen_le := by simp only; omega
        mark_odd := fun _ => by simp only; omega
        space_even := nofun
        stop_even := nofun
        stop_overflow := nofun
        gap := fun _ u hu => h.gap_record hq (by simp [hs]) (by omega) u hu
        entry_pos := hpos
        space_le := hspace
        tick_le := Nat.zero_le _
        space_tick := nofun
        no_overflow := fun _ => (IrParams.overflowFlag_record hq).trans hflag }
    · exact ⟨_, isr_space_full hs full, { h with
        mark_odd := nofun, space_even := nofun, stop_even := fun _ => ⟨heven, htwo⟩
        stop_overflow := fun _ _ => Nat.le_antisymm hle full
        gap := fun _ => h.gap (by simp [hs])
        tick_le := Nat.zero_le _, space_tick := nofun, no_overflow := nofun }⟩
  -- the space goes on, and may have become the gap behind the frame
  · rcases Nat.lt_or_ge recordGapTicks (nextTick p.tickCounterForISR) with hgap | hgap
    · exact ⟨_, isr_space_gap hs hl hgap, { h with
        mark_odd := nofun, space_even := nofun, stop_even := fun _ => ⟨heven, htwo⟩
        stop_overflow := fun _ hset => absurd hset (by simp [hflag])
        gap := fun _ => h.gap (by simp [hs])
        tick_le := h.nextTick_le, space_tick := nofun, no_overflow := nofun }⟩
    · exact ⟨_, isr_space_space hs hl hgap, h.tick h.nextTick_le fun _ => hgap⟩

/-- No interrupt leaves the buffer, whatever the pin shows. -/
theorem ReceiverInv.isr (h : ReceiverInv p) (eventType : NrfTimerEvent) (level : ℕ) :
    ∃ q, timerLedEventHandler eventType level p = some q ∧ ReceiverInv q := by
  cases eventType with
  | other => exact ⟨p, rfl, h⟩
  | compare0 =>
    cases hs : p.stateForISR with
    | idle => exact h.isr_idle hs level
    | mark => exact h.isr_mark hs level
    | space => exact h.isr_space hs level
    | stop =>
      obtain ⟨n, hn, hstep⟩ := isr_stop hs level
      exact ⟨_, hstep, h.tick (Nat.le_trans hn h.nextTick_le) (by simp [hs])⟩

/-- Every operation of a receiver run keeps the invariant and writes inside the buffer. -/
theorem receiverStep_preserves :
    FaultMachine.Preserves receiverStep fun s => ReceiverInv s.irparams := by
  intro op s h
  cases op with
  | isr eventType level =>
    obtain ⟨q, hq, hinv⟩ := h.isr eventType level
    exact ⟨{ s with irparams := q }, by simp [receiverStep, hq], hinv⟩
  | resume => exact ⟨_, rfl, h.resume⟩
  | startScan => exact ⟨_, rfl, h.tick (Nat.zero_le _) fun _ => Nat.zero_le _⟩

/-- A receiver record that some run produces satisfies the invariant. -/
theorem ReachableReceiver.inv (h : ReachableReceiver p) : ReceiverInv p := by
  obtain ⟨s, hs, rfl⟩ := h
  exact receiverStep_preserves.reachable receiverInv_zero hs

/-- Every run from power-up, with any samples and with resumes and scan starts in any
order, stays inside the buffer, ends in the invariant, and its next tick is the
saturating successor. -/
theorem receiver_run_invariant (ops : List ReceiverOp) :
    ∃ s, FaultMachine.run receiverStep ops ScanState.zero = some s ∧ ReceiverInv s.irparams ∧
      nextTick s.irparams.tickCounterForISR =
        min (s.irparams.tickCounterForISR + 1) uint16MaxCustom := by
  obtain ⟨s, hrun, hinv⟩ := receiverStep_preserves.run (s := ScanState.zero) ops receiverInv_zero
  exact ⟨s, hrun, hinv, nextTick_eq hinv.tick_le⟩

end IrRemote
