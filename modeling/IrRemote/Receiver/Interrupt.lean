import IrRemote.Mid.Receiver
import Mathlib.Tactic.Common
import Mathlib.Tactic.SplitIfs

/-!
# What one interrupt does

One equation for every branch of `timer_led_event_handler`, and one case of `IsrStep`. The
invariant and the capture theorem are derived from these and never unfold the handler.
-/

set_option autoImplicit false

namespace IrRemote

variable {p q : IrParams} {i t level : ℕ}

/-! ### The tick counter -/

theorem nextTick_eq (h : t ≤ uint16MaxCustom) : nextTick t = min (t + 1) uint16MaxCustom := by
  unfold nextTick
  unfold uint16MaxCustom at *
  split_ifs <;> omega

theorem le_nextTick (t : ℕ) : min (t + 1) uint16MaxCustom ≤ nextTick t := by
  unfold nextTick uint16MaxCustom
  split_ifs <;> omega

/-! ### The buffer -/

theorem IrParams.record_eq (h : p.rawlen < rawBufferLength) :
    p.record t = some { p with
      rawbuf := p.rawbuf.set p.rawlen t h
      rawlen := p.rawlen + 1 } := by
  simp [IrParams.record, h]

/-- A record appends one entry and leaves the others alone. -/
theorem IrParams.raw_record (hq : p.record t = some q) (i : ℕ) :
    q.raw i = if i = p.rawlen then some t else p.raw i := by
  unfold IrParams.record at hq
  split_ifs at hq with inside
  obtain rfl := Option.some.inj hq
  by_cases hi : i = p.rawlen
  · subst hi
    simp [IrParams.raw]
  · simp [IrParams.raw, hi, Ne.symm hi]

theorem IrParams.rawlen_record (hq : p.record t = some q) : q.rawlen = p.rawlen + 1 := by
  unfold IrParams.record at hq
  split_ifs at hq with inside
  obtain rfl := Option.some.inj hq
  rfl

theorem IrParams.overflowFlag_record (hq : p.record t = some q) :
    q.overflowFlag = p.overflowFlag := by
  unfold IrParams.record at hq
  split_ifs at hq with inside
  obtain rfl := Option.some.inj hq
  rfl

/-! ### Idle -/

theorem isr_idle_space (hs : p.stateForISR = .idle) (hl : level ≠ inputMark) :
    timerLedEventHandler .compare0 level p =
      some { p with tickCounterForISR := nextTick p.tickCounterForISR } := by
  simp [timerLedEventHandler, hs, hl]

theorem isr_idle_short (hs : p.stateForISR = .idle)
    (hgap : nextTick p.tickCounterForISR ≤ recordGapTicks) :
    timerLedEventHandler .compare0 inputMark p = some { p with tickCounterForISR := 0 } := by
  simp [timerLedEventHandler, hs, Nat.not_lt.mpr hgap]

/-- The first mark after a long gap opens a frame. -/
theorem isr_idle_start (hs : p.stateForISR = .idle)
    (hgap : recordGapTicks < nextTick p.tickCounterForISR) :
    timerLedEventHandler .compare0 inputMark p = some
      { stateForISR := .mark
        tickCounterForISR := 0
        overflowFlag := false
        rawlen := 1
        rawbuf := p.rawbuf.set 0 (nextTick p.tickCounterForISR) (by decide) } := by
  simp [timerLedEventHandler, hs, hgap]

/-! ### Mark -/

theorem isr_mark_mark (hs : p.stateForISR = .mark) :
    timerLedEventHandler .compare0 inputMark p =
      some { p with tickCounterForISR := nextTick p.tickCounterForISR } := by
  simp [timerLedEventHandler, hs]

/-- The end of a mark records it without a bounds check. -/
theorem isr_mark_space (hs : p.stateForISR = .mark) (hl : level ≠ inputMark)
    (hq : p.record (nextTick p.tickCounterForISR) = some q) :
    timerLedEventHandler .compare0 level p =
      some { q with stateForISR := .space, tickCounterForISR := 0 } := by
  unfold IrParams.record at hq
  split_ifs at hq with inside
  obtain rfl := Option.some.inj hq
  simp [timerLedEventHandler, hs, hl, IrParams.record, inside]

/-- The end of a mark is recorded, or the interrupt has no result. -/
theorem exists_record_of_isr_mark (hs : p.stateForISR = .mark) (hl : level ≠ inputMark)
    (h : timerLedEventHandler .compare0 level p = some q) :
    ∃ r, p.record (nextTick p.tickCounterForISR) = some r ∧
      q = { r with stateForISR := .space, tickCounterForISR := 0 } := by
  cases hr : p.record (nextTick p.tickCounterForISR) with
  | some r =>
    rw [isr_mark_space hs hl hr] at h
    exact ⟨r, rfl, (Option.some.inj h).symm⟩
  | none =>
    simp only [timerLedEventHandler, hs, IrParams.record] at h hr
    split_ifs at hr with inside
    simp [inside, hl] at h

/-! ### Space -/

/-- The end of a space finds the buffer full. -/
theorem isr_space_full (hs : p.stateForISR = .space) (hfull : rawBufferLength ≤ p.rawlen) :
    timerLedEventHandler .compare0 inputMark p =
      some { p with overflowFlag := true, stateForISR := .stop, tickCounterForISR := 0 } := by
  simp [timerLedEventHandler, hs, hfull]

theorem isr_space_mark (hs : p.stateForISR = .space)
    (hq : p.record (nextTick p.tickCounterForISR) = some q) :
    timerLedEventHandler .compare0 inputMark p =
      some { q with stateForISR := .mark, tickCounterForISR := 0 } := by
  unfold IrParams.record at hq
  split_ifs at hq with inside
  obtain rfl := Option.some.inj hq
  simp [timerLedEventHandler, hs, IrParams.record, inside, Nat.not_le.mpr inside]

/-- A space as long as a gap ends the frame. -/
theorem isr_space_gap (hs : p.stateForISR = .space) (hl : level ≠ inputMark)
    (hgap : recordGapTicks < nextTick p.tickCounterForISR) :
    timerLedEventHandler .compare0 level p = some { p with
      stateForISR := .stop
      tickCounterForISR := nextTick p.tickCounterForISR } := by
  simp [timerLedEventHandler, hs, hl, hgap]

theorem isr_space_space (hs : p.stateForISR = .space) (hl : level ≠ inputMark)
    (hgap : nextTick p.tickCounterForISR ≤ recordGapTicks) :
    timerLedEventHandler .compare0 level p =
      some { p with tickCounterForISR := nextTick p.tickCounterForISR } := by
  simp [timerLedEventHandler, hs, hl, Nat.not_lt.mpr hgap]

/-! ### Stop -/

theorem isr_stop_mark (hs : p.stateForISR = .stop) :
    timerLedEventHandler .compare0 inputMark p = some { p with tickCounterForISR := 0 } := by
  simp [timerLedEventHandler, hs]

theorem isr_stop_space (hs : p.stateForISR = .stop) (hl : level ≠ inputMark) :
    timerLedEventHandler .compare0 level p =
      some { p with tickCounterForISR := nextTick p.tickCounterForISR } := by
  simp [timerLedEventHandler, hs, hl]

/-- A stopped receiver only keeps its gap counter. -/
theorem isr_stop (hs : p.stateForISR = .stop) (level : ℕ) :
    ∃ n ≤ nextTick p.tickCounterForISR, timerLedEventHandler .compare0 level p =
      some { p with tickCounterForISR := n } := by
  by_cases hl : level = inputMark
  · exact ⟨0, Nat.zero_le _, hl ▸ isr_stop_mark hs⟩
  · exact ⟨_, Nat.le_refl _, isr_stop_space hs hl⟩

/-! ### Inversion -/

/-- What an interrupt of the timer has done, by the state before it and the level. -/
inductive IsrStep : ℕ → IrParams → IrParams → Prop where
  | idleSpace {level : ℕ} {p : IrParams} (hs : p.stateForISR = .idle) (hl : level ≠ inputMark) :
      IsrStep level p { p with tickCounterForISR := nextTick p.tickCounterForISR }
  | idleShort {p : IrParams} (hs : p.stateForISR = .idle)
      (hgap : nextTick p.tickCounterForISR ≤ recordGapTicks) :
      IsrStep inputMark p { p with tickCounterForISR := 0 }
  | idleStart {p : IrParams} (hs : p.stateForISR = .idle)
      (hgap : recordGapTicks < nextTick p.tickCounterForISR) :
      IsrStep inputMark p
        { stateForISR := .mark
          tickCounterForISR := 0
          overflowFlag := false
          rawlen := 1
          rawbuf := p.rawbuf.set 0 (nextTick p.tickCounterForISR) (by decide) }
  | markMark {p : IrParams} (hs : p.stateForISR = .mark) :
      IsrStep inputMark p { p with tickCounterForISR := nextTick p.tickCounterForISR }
  | markSpace {level : ℕ} {p q : IrParams} (hs : p.stateForISR = .mark) (hl : level ≠ inputMark)
      (hq : p.record (nextTick p.tickCounterForISR) = some q) :
      IsrStep level p { q with stateForISR := .space, tickCounterForISR := 0 }
  | spaceFull {p : IrParams} (hs : p.stateForISR = .space) (hfull : rawBufferLength ≤ p.rawlen) :
      IsrStep inputMark p
        { p with overflowFlag := true, stateForISR := .stop, tickCounterForISR := 0 }
  | spaceMark {p q : IrParams} (hs : p.stateForISR = .space) (inside : p.rawlen < rawBufferLength)
      (hq : p.record (nextTick p.tickCounterForISR) = some q) :
      IsrStep inputMark p { q with stateForISR := .mark, tickCounterForISR := 0 }
  | spaceGap {level : ℕ} {p : IrParams} (hs : p.stateForISR = .space) (hl : level ≠ inputMark)
      (hgap : recordGapTicks < nextTick p.tickCounterForISR) :
      IsrStep level p
        { p with stateForISR := .stop, tickCounterForISR := nextTick p.tickCounterForISR }
  | spaceSpace {level : ℕ} {p : IrParams} (hs : p.stateForISR = .space) (hl : level ≠ inputMark)
      (hgap : nextTick p.tickCounterForISR ≤ recordGapTicks) :
      IsrStep level p { p with tickCounterForISR := nextTick p.tickCounterForISR }
  | stopMark {p : IrParams} (hs : p.stateForISR = .stop) :
      IsrStep inputMark p { p with tickCounterForISR := 0 }
  | stopSpace {level : ℕ} {p : IrParams} (hs : p.stateForISR = .stop) (hl : level ≠ inputMark) :
      IsrStep level p { p with tickCounterForISR := nextTick p.tickCounterForISR }

/-- An interrupt with a result has taken one of these steps. -/
theorem isrStep_of_isr (h : timerLedEventHandler .compare0 level p = some q) :
    IsrStep level p q := by
  cases hs : p.stateForISR with
  | idle =>
    by_cases hl : level = inputMark
    · subst hl
      rcases Nat.lt_or_ge recordGapTicks (nextTick p.tickCounterForISR) with hgap | hgap
      · obtain rfl := Option.some.inj ((isr_idle_start hs hgap).symm.trans h)
        exact .idleStart hs hgap
      · obtain rfl := Option.some.inj ((isr_idle_short hs hgap).symm.trans h)
        exact .idleShort hs hgap
    · obtain rfl := Option.some.inj ((isr_idle_space hs hl).symm.trans h)
      exact .idleSpace hs hl
  | mark =>
    by_cases hl : level = inputMark
    · subst hl
      obtain rfl := Option.some.inj ((isr_mark_mark hs).symm.trans h)
      exact .markMark hs
    · obtain ⟨r, hr, rfl⟩ := exists_record_of_isr_mark hs hl h
      exact .markSpace hs hl hr
  | space =>
    by_cases hl : level = inputMark
    · subst hl
      rcases Nat.lt_or_ge p.rawlen rawBufferLength with inside | hfull
      · have hr := IrParams.record_eq inside (t := nextTick p.tickCounterForISR)
        obtain rfl := Option.some.inj ((isr_space_mark hs hr).symm.trans h)
        exact .spaceMark hs inside hr
      · obtain rfl := Option.some.inj ((isr_space_full hs hfull).symm.trans h)
        exact .spaceFull hs hfull
    · rcases Nat.lt_or_ge recordGapTicks (nextTick p.tickCounterForISR) with hgap | hgap
      · obtain rfl := Option.some.inj ((isr_space_gap hs hl hgap).symm.trans h)
        exact .spaceGap hs hl hgap
      · obtain rfl := Option.some.inj ((isr_space_space hs hl hgap).symm.trans h)
        exact .spaceSpace hs hl hgap
  | stop =>
    by_cases hl : level = inputMark
    · subst hl
      obtain rfl := Option.some.inj ((isr_stop_mark hs).symm.trans h)
      exact .stopMark hs
    · obtain rfl := Option.some.inj ((isr_stop_space hs hl).symm.trans h)
      exact .stopSpace hs hl

end IrRemote
