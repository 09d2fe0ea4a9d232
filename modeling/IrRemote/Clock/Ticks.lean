import IrRemote.Clock.TimeStamp
import IrRemote.Command.Queue
import IrRemote.Library.FaultMachine
import IrRemote.Library.WorkQueue
import IrRemote.Sched.Events

/-!
# Ticks of the clock

Every second an event is put into the queue of the scheduler, and its handler advances the
clock. The queue is shared with the scans of the keys, one every 20 ms, and with the
commands; the main loop takes the events out, but not while it transmits or writes to the
flash. An event that finds 24 others in the queue is refused, and nobody looks at the
answer.

## Main definitions

* `TickState`, `tickStep` — the timers, the writes and the two halves of a handler
* `KeepsTime` — no tick is lost
* `TickAccepted` — an expiration that finds a free place

## Main results

* `Conserved.step` — the clock, the ticks that wait and the refused ones add up
* `keepsTime_throughout` — runs without a refused tick, and the exact condition
-/

set_option autoImplicit false

namespace IrRemote

/-! ## The scheduler -/

/-- What the handler does to the clock. -/
def SchedHandler.runClock (clock : RtcState) : SchedHandler → Option RtcState
  | .midRTCHandle => some (IrRemote.midRTCHandle clock)
  | .midDecodeRTCSet pEventData => IrRemote.midDecodeRTCSet pEventData
  | .midKeyHandler | .midDecodeTimeBasedScheduling _
  | .appControlStartEmitIR _ | .appControlStartEmitIRWithID _ => some clock

/-- The commands that set the clock. -/
def SchedHandler.IsSet : SchedHandler → Prop
  | .midDecodeRTCSet _ => True
  | _ => False

instance : DecidablePred SchedHandler.IsSet
  | .midDecodeRTCSet _ => isTrue trivial
  | .midKeyHandler | .midRTCHandle | .midDecodeTimeBasedScheduling _
  | .appControlStartEmitIR _ | .appControlStartEmitIRWithID _ => isFalse id

/-- An event of the queue. The number of expirations in front of it is not part of the event
and is read by no step. -/
structure SchedEvent where
  handler : SchedHandler
  queuedAt : ℕ
  deriving DecidableEq

/-- The timers, the queue and the clock. The fields behind the clock record the run: the
expirations of `SysTimer1000msCall`, the last value of `Mid_RTCSetUnit` and the expirations
in front of its command, and the ticks refused since a command of this kind was accepted. -/
structure TickState where
  ubCount20ms : ℕ
  queue : WorkQueue SchedEvent
  clock : RtcState
  expirations : ℕ
  setValue : BitVec 64
  setAt : ℕ
  refused : ℕ
  deriving DecidableEq

/-- The clock is 0 at boot. -/
def TickState.boot : TickState where
  ubCount20ms := 0
  queue := .empty
  clock := .zero
  expirations := 0
  setValue := 0
  setAt := 0
  refused := 0

/-- The event is accepted. -/
def TickState.Accepts (handler : SchedHandler) (s : TickState) : Prop :=
  SchedAccepts handler.eventDataSize s.queue.pending.length

instance {handler : SchedHandler} {s : TickState} : Decidable (s.Accepts handler) :=
  inferInstanceAs (Decidable (SchedAccepts _ _))

/-- `app_sched_event_put`. -/
def TickState.appSchedEventPut (handler : SchedHandler) (s : TickState) : TickState :=
  if s.Accepts handler then
    { s with
      queue := s.queue.push ⟨handler, s.expirations⟩
      refused := if handler.IsSet then 0 else s.refused }
  else
    -- no caller looks at the error code
    { s with refused := if handler = .midRTCHandle then s.refused + 1 else s.refused }

/-- `SysTimer10msCall`. -/
def TickState.sysTimer10msCall (s : TickState) : TickState :=
  let s := if 2 ≤ s.ubCount20ms then
    { s.appSchedEventPut .midKeyHandler with ubCount20ms := 0 } else s
  -- the count goes on in the same call, so the next event is two expirations away
  { s with ubCount20ms := (s.ubCount20ms + 1) % 256 }

/-- The part of `SysTimer1000msCall` that has to do with the queue. -/
def TickState.sysTimer1000msCall (s : TickState) : TickState :=
  { s with expirations := s.expirations + 1 }.appSchedEventPut .midRTCHandle

/-- The characteristics of the service. -/
inductive CommandIndex where
  | rtcSet
  | motSens
  | motTout
  | schedule
  | battVol
  | irLearn
  | irEmmit
  | irErase
  | feedBack
  deriving DecidableEq, Repr

/-- The event that `on_write` has for a write, directly or by `Mid_DecodeCommand`. -/
def CommandIndex.handler (pData : List (BitVec 8)) : CommandIndex → Option SchedHandler
  -- `Mid_DecodeCommand` gets the length in a byte
  | .rtcSet => some (.midDecodeRTCSet (pData.take (pData.length % 256)))
  | .motTout | .schedule =>
    some (.midDecodeTimeBasedScheduling (pData.take (pData.length % 256)))
  | .irEmmit => some (.appControlStartEmitIR pData)
  | .motSens | .battVol | .irLearn | .irErase | .feedBack => none

/-- The handler of the first event runs, up to its return. -/
def TickState.handle (s : TickState) : Option TickState :=
  match s.queue.next? with
  | none => some s
  | some e => (e.handler.runClock s.clock).map fun clock =>
    { s with
      queue := s.queue.start
      clock := clock
      setValue := if e.handler.IsSet then clock.ullUnixTimeStamp else s.setValue
      setAt := if e.handler.IsSet then e.queuedAt else s.setAt }

/-- The timers, a write, an alarm that is due, and the main loop: the handler of the first
event has run, or the event has left the queue. -/
inductive TickStep where
  | sysTimer10ms
  | sysTimer1000ms
  | write (ubCommandIndex : CommandIndex) (pData : List (BitVec 8))
  | alarm (uwIrCode : BitVec 8)
  | handle
  | remove
  deriving DecidableEq

/-- A text whose conversion divides by zero has no result. -/
def tickStep : TickStep → TickState → Option TickState
  | .sysTimer10ms, s => some s.sysTimer10msCall
  | .sysTimer1000ms, s => some s.sysTimer1000msCall
  | .write ubCommandIndex pData, s =>
    some ((ubCommandIndex.handler pData).elim s fun handler => s.appSchedEventPut handler)
  | .alarm uwIrCode, s => some (s.appSchedEventPut (.appControlStartEmitIRWithID uwIrCode))
  | .handle, s => s.handle
  | .remove, s => some { s with queue := s.queue.finish }

/-- Whenever the queue is empty, the clock shows the last value that it was set to and the
expirations since that command was queued. -/
def KeepsTime (s : TickState) : Prop :=
  s.queue.pending = [] →
    s.clock.ullUnixTimeStamp = s.setValue + BitVec.ofNat 64 (s.expirations - s.setAt)

/-- An expiration finds a free place in the queue. -/
def TickAccepted (a : TickStep) (s : TickState) : Prop :=
  a = .sysTimer1000ms → s.queue.pending.length < schedQueueSize

/-- Whenever the queue is empty, no tick was refused since a command that sets the clock was
accepted, or as many as the clock has values. -/
def NoneRefused (s : TickState) : Prop :=
  s.queue.pending = [] → s.refused % 18446744073709551616 = 0

/-! ## Conservation -/

/-- What the clock shows, what it was set to, and the expirations in front of that command. -/
structure ClockReading where
  time : BitVec 64
  value : BitVec 64
  setAt : ℕ

/-- The reading behind the handler of an event. -/
def ClockReading.after (r : ClockReading) (e : SchedEvent) : ClockReading :=
  match e.handler with
  | .midRTCHandle => { r with time := r.time + 1 }
  | .midDecodeRTCSet pEventData =>
    (midDecodeRTCSet pEventData).elim r fun clock =>
      ⟨clock.ullUnixTimeStamp, clock.ullUnixTimeStamp, e.queuedAt⟩
  | .midKeyHandler | .midDecodeTimeBasedScheduling _
  | .appControlStartEmitIR _ | .appControlStartEmitIRWithID _ => r

def TickState.reading (s : TickState) : ClockReading :=
  ⟨s.clock.ullUnixTimeStamp, s.setValue, s.setAt⟩

/-- The reading when every event that waits has been handled. -/
def TickState.settled (s : TickState) : ClockReading := s.queue.settle .after s.reading

/-- With the refused ticks, a reading shows what the clock was set to and the expirations
since. -/
structure ClockReading.Balanced (r : ClockReading) (expirations refused : ℕ) : Prop where
  setAt_le : r.setAt ≤ expirations
  adds_up : r.time + BitVec.ofNat 64 refused = r.value + BitVec.ofNat 64 (expirations - r.setAt)

/-- The reading balances that the clock comes to when the ticks that wait are handled. -/
structure Conserved (s : TickState) : Prop where
  sizes : ∀ e ∈ s.queue.pending, e.handler.eventDataSize ≤ schedMaxEventDataSize
  balanced : s.settled.Balanced s.expirations s.refused

namespace ClockReading

variable {r : ClockReading} {expirations refused : ℕ}

theorem Balanced.set (value : BitVec 64) (expirations : ℕ) :
    Balanced ⟨value, value, expirations⟩ expirations 0 where
  setAt_le := le_rfl
  adds_up := by rw [Nat.sub_self]

/-- An expiration that is counted by the clock. -/
theorem Balanced.tick (h : r.Balanced expirations refused) :
    Balanced { r with time := r.time + 1 } (expirations + 1) refused where
  setAt_le := Nat.le_succ_of_le h.setAt_le
  adds_up := by
    have hcount : r.time + 1 + BitVec.ofNat 64 refused = r.time + BitVec.ofNat 64 refused + 1 := by
      rw [BitVec.add_assoc, BitVec.add_comm 1, ← BitVec.add_assoc]
    rw [Nat.succ_sub h.setAt_le, Nat.succ_eq_add_one, BitVec.ofNat_add, ← BitVec.add_assoc,
      ← h.adds_up]
    exact hcount

/-- An expiration that is refused. -/
theorem Balanced.refuse (h : r.Balanced expirations refused) :
    r.Balanced (expirations + 1) (refused + 1) where
  setAt_le := Nat.le_succ_of_le h.setAt_le
  adds_up := by
    rw [Nat.succ_sub h.setAt_le, Nat.succ_eq_add_one, BitVec.ofNat_add, BitVec.ofNat_add,
      ← BitVec.add_assoc, ← BitVec.add_assoc, h.adds_up]

end ClockReading

variable {s t : TickState} {a : TickStep} {labels : List TickStep} {handler : SchedHandler}

theorem conserved_boot : Conserved .boot := ⟨nofun, .set 0 0⟩

/-- A short text is converted. -/
theorem timeStampDigits_defined (pData : List (BitVec 8)) (hlen : pData.length ≤ 24)
    (t : BitVec 64) : ∃ v, timeStampDigits pData t = some v := by
  induction pData generalizing t with
  | nil => exact ⟨t, rfl⟩
  | cons c pData ih =>
    rw [List.length_cons] at hlen
    rw [timeStampDigits]
    split_ifs with hspace
    -- ten to the power of the bytes that are left is no multiple of a word
    · simp only [power_ne_zero _ hlen, if_false]
      exact ih (by omega) _
    · exact ih (by omega) _

theorem runClock_defined (hsize : handler.eventDataSize ≤ schedMaxEventDataSize)
    (clock : RtcState) : ∃ c, handler.runClock clock = some c := by
  cases handler with
  | midDecodeRTCSet pEventData =>
    have hlen : pEventData.length ≤ 24 := hsize
    have htake : (pEventData.take (pEventData.length % 256)).length ≤ 24 :=
      (List.length_take_le' _ _).trans hlen
    obtain ⟨v, hv⟩ := timeStampDigits_defined _ htake 0
    exact ⟨midRTCSetUnit v, by rw [SchedHandler.runClock, midDecodeRTCSet,
      convertStringToTimeStamp, hv]; rfl⟩
  | midRTCHandle => exact ⟨_, rfl⟩
  | midKeyHandler | midDecodeTimeBasedScheduling _
  | appControlStartEmitIR _ | appControlStartEmitIRWithID _ =>
    exact ⟨clock, rfl⟩

/-! ### Steps -/

theorem settled_put (h : s.Accepts handler) :
    (s.appSchedEventPut handler).settled = s.settled.after ⟨handler, s.expirations⟩ := by
  rw [TickState.appSchedEventPut, if_pos h]
  exact WorkQueue.settle_push

theorem settled_put_refused (h : ¬s.Accepts handler) :
    (s.appSchedEventPut handler).settled = s.settled := by
  rw [TickState.appSchedEventPut, if_neg h]
  rfl

theorem expirations_put : (s.appSchedEventPut handler).expirations = s.expirations := by
  rw [TickState.appSchedEventPut]
  split_ifs <;> rfl

theorem sizes_put
    (h : ∀ e ∈ s.queue.pending, e.handler.eventDataSize ≤ schedMaxEventDataSize) :
    ∀ e ∈ (s.appSchedEventPut handler).queue.pending,
      e.handler.eventDataSize ≤ schedMaxEventDataSize := by
  rw [TickState.appSchedEventPut]
  by_cases haccepts : s.Accepts handler
  · rw [if_pos haccepts]
    exact List.forall_mem_append.mpr ⟨h, List.forall_mem_singleton.mpr haccepts.1⟩
  · rw [if_neg haccepts]
    exact h

theorem refused_put (h : s.Accepts handler) :
    (s.appSchedEventPut handler).refused = if handler.IsSet then 0 else s.refused := by
  rw [TickState.appSchedEventPut, if_pos h]

theorem refused_put_refused (h : ¬s.Accepts handler) : (s.appSchedEventPut handler).refused =
    if handler = .midRTCHandle then s.refused + 1 else s.refused := by
  rw [TickState.appSchedEventPut, if_neg h]

/-- The events other than a tick. -/
theorem Conserved.put (h : Conserved s) (htick : handler ≠ .midRTCHandle) :
    Conserved (s.appSchedEventPut handler) := by
  refine ⟨sizes_put h.sizes, ?_⟩
  rw [expirations_put]
  by_cases haccepts : s.Accepts handler
  · rw [settled_put haccepts, refused_put haccepts]
    cases handler with
    | midRTCHandle => exact absurd rfl htick
    | midDecodeRTCSet pEventData =>
      obtain ⟨clock, hclock⟩ := runClock_defined haccepts.1 s.clock
      have hafter : s.settled.after ⟨.midDecodeRTCSet pEventData, s.expirations⟩ =
          ⟨clock.ullUnixTimeStamp, clock.ullUnixTimeStamp, s.expirations⟩ :=
        congrArg (fun c => Option.elim c _ _) hclock
      -- the command that is handled last decides, and no expiration follows it yet
      rw [hafter]
      exact .set _ _
    | midKeyHandler | midDecodeTimeBasedScheduling _
    | appControlStartEmitIR _ | appControlStartEmitIRWithID _ =>
      exact h.balanced
  · rw [settled_put_refused haccepts, refused_put_refused haccepts, if_neg htick]
    exact h.balanced

/-- An expiration, whether its tick is accepted or refused. -/
theorem Conserved.sysTimer1000msCall (h : Conserved s) : Conserved s.sysTimer1000msCall := by
  refine ⟨sizes_put h.sizes, ?_⟩
  rw [TickState.sysTimer1000msCall, expirations_put]
  by_cases haccepts : TickState.Accepts .midRTCHandle { s with expirations := s.expirations + 1 }
  · rw [settled_put haccepts, refused_put haccepts]
    exact h.balanced.tick
  · rw [settled_put_refused haccepts, refused_put_refused haccepts, if_pos rfl]
    exact h.balanced.refuse

theorem Conserved.sysTimer10msCall (h : Conserved s) : Conserved s.sysTimer10msCall := by
  unfold TickState.sysTimer10msCall
  split_ifs
  · have hput : Conserved (s.appSchedEventPut .midKeyHandler) := h.put nofun
    exact ⟨hput.sizes, hput.balanced⟩
  · exact ⟨h.sizes, h.balanced⟩

/-- The reading behind the handler that runs is the one that was predicted. -/
theorem reading_handle {e : SchedEvent} {clock : RtcState}
    (h : e.handler.runClock s.clock = some clock) :
    s.reading.after e = ⟨clock.ullUnixTimeStamp,
      if e.handler.IsSet then clock.ullUnixTimeStamp else s.setValue,
      if e.handler.IsSet then e.queuedAt else s.setAt⟩ := by
  obtain ⟨handler, queuedAt⟩ := e
  cases handler with
  | midRTCHandle => exact Option.some.inj h ▸ rfl
  | midDecodeRTCSet pEventData => exact congrArg (fun c => Option.elim c _ _) h
  | midKeyHandler | midDecodeTimeBasedScheduling _
  | appControlStartEmitIR _ | appControlStartEmitIRWithID _ =>
    exact Option.some.inj h ▸ rfl

theorem Conserved.handle (h : Conserved s) : ∃ t, s.handle = some t ∧ Conserved t := by
  rw [TickState.handle]
  cases hnext : s.queue.next? with
  | none => exact ⟨s, rfl, h⟩
  | some e =>
    obtain ⟨clock, hclock⟩ := runClock_defined (h.sizes e (WorkQueue.mem_of_next? hnext)) s.clock
    simp only [hclock, Option.map_some]
    refine ⟨_, rfl, h.sizes, ?_⟩
    -- the handler does what the prediction had it do first
    have hsettled : s.queue.start.settle .after (s.reading.after e) = s.settled :=
      WorkQueue.settle_start hnext
    rw [reading_handle hclock] at hsettled
    have hbalanced := h.balanced
    rw [← hsettled] at hbalanced
    exact hbalanced

theorem Conserved.remove (h : Conserved s) : Conserved { s with queue := s.queue.finish } where
  sizes e he := h.sizes e (WorkQueue.pending_finish_sublist.subset he)
  balanced := by
    have hsettled : s.queue.finish.settle .after s.reading = s.settled := WorkQueue.settle_finish
    have hbalanced := h.balanced
    rw [← hsettled] at hbalanced
    exact hbalanced

/-- No step faults, and every step conserves the ticks. -/
theorem Conserved.step (h : Conserved s) (a : TickStep) :
    ∃ t, tickStep a s = some t ∧ Conserved t := by
  cases a with
  | sysTimer10ms => exact ⟨_, rfl, h.sysTimer10msCall⟩
  | sysTimer1000ms => exact ⟨_, rfl, h.sysTimer1000msCall⟩
  | write ubCommandIndex pData =>
    refine ⟨_, rfl, ?_⟩
    cases ubCommandIndex with
    | rtcSet | motTout | schedule | irEmmit => exact h.put nofun
    | motSens | battVol | irLearn | irErase | feedBack => exact h
  | alarm uwIrCode => exact ⟨_, rfl, h.put nofun⟩
  | handle => exact h.handle
  | remove => exact ⟨_, rfl, h.remove⟩

/-! ## Runs -/

/-- The clock is right when the queue is empty exactly when no tick is missing. -/
theorem Conserved.keepsTime_iff (h : Conserved s) : KeepsTime s ↔ NoneRefused s := by
  unfold KeepsTime NoneRefused
  refine imp_congr_right fun hempty => ?_
  -- nothing waits, so the clock shows what was predicted
  have hsettled : s.settled = s.reading := WorkQueue.settle_of_nil hempty
  have hsum : s.clock.ullUnixTimeStamp + BitVec.ofNat 64 s.refused =
      s.setValue + BitVec.ofNat 64 (s.expirations - s.setAt) := by
    have hbalanced := h.balanced
    rw [hsettled] at hbalanced
    exact hbalanced.adds_up
  rw [← hsum, BitVec.self_eq_add_right, ← BitVec.toNat_inj, BitVec.toNat_ofNat]
  rfl

theorem conserved_of_run (h : FaultMachine.run tickStep labels .boot = some t) : Conserved t :=
  FaultMachine.Preserves.reachable (fun a _ hs => hs.step a) conserved_boot ⟨labels, h⟩

/-- An event that is no tick does not add to the refused ticks. -/
theorem refused_put_of_ne (hs : s.refused = 0) (h : handler ≠ .midRTCHandle) :
    (s.appSchedEventPut handler).refused = 0 := by
  by_cases haccepts : s.Accepts handler
  · rw [refused_put haccepts, hs, ite_self]
  · rw [refused_put_refused haccepts, if_neg h, hs]

/-- No tick is refused by a step that meets the condition. -/
theorem TickAccepted.refused (h : TickAccepted a s) (hs : s.refused = 0)
    (hstep : tickStep a s = some t) : t.refused = 0 := by
  cases a with
  | sysTimer10ms =>
    obtain rfl := Option.some.inj hstep
    unfold TickState.sysTimer10msCall
    split_ifs
    · have hput : (s.appSchedEventPut .midKeyHandler).refused = 0 := refused_put_of_ne hs nofun
      exact hput
    · exact hs
  | sysTimer1000ms =>
    obtain rfl := Option.some.inj hstep
    -- a tick is short enough for the queue
    have haccepts : TickState.Accepts .midRTCHandle { s with expirations := s.expirations + 1 } :=
      ⟨by decide, h rfl⟩
    rw [TickState.sysTimer1000msCall, refused_put haccepts]
    exact hs
  | write ubCommandIndex pData =>
    obtain rfl := Option.some.inj hstep
    cases ubCommandIndex with
    | rtcSet | motTout | schedule | irEmmit => exact refused_put_of_ne hs nofun
    | motSens | battVol | irLearn | irErase | feedBack => exact hs
  | alarm uwIrCode =>
    obtain rfl := Option.some.inj hstep
    exact refused_put_of_ne hs nofun
  | handle =>
    rw [tickStep, TickState.handle] at hstep
    split at hstep
    · exact Option.some.inj hstep ▸ hs
    · obtain ⟨clock, -, rfl⟩ := Option.map_eq_some_iff.mp hstep
      exact hs
  | remove => exact Option.some.inj hstep ▸ hs

/-- From boot on no run faults. The clock is right in every run whose expirations all find a
free place in the queue; and it is right in a run exactly when no refused tick is missing
while the queue is empty. -/
theorem keepsTime_throughout (labels : List TickStep) :
    (∃ t, FaultMachine.run tickStep labels .boot = some t) ∧
    (FaultMachine.Along tickStep TickAccepted labels .boot →
      FaultMachine.Throughout tickStep KeepsTime labels .boot) ∧
    (FaultMachine.Throughout tickStep KeepsTime labels .boot ↔
      FaultMachine.Throughout tickStep NoneRefused labels .boot) := by
  have hpreserves : FaultMachine.Preserves tickStep Conserved := fun a s hs => hs.step a
  refine ⟨?_, fun h => ?_, ?_⟩
  · obtain ⟨t, ht, -⟩ := hpreserves.run labels conserved_boot
    exact ⟨t, ht⟩
  · apply h.throughout fun s => Conserved s ∧ s.refused = 0
    · rintro a s t ⟨hs, hrefused⟩ ha hstep
      obtain ⟨u, hu, hconserved⟩ := hs.step a
      obtain rfl := Option.some.inj (hu.symm.trans hstep)
      exact ⟨hconserved, ha.refused hrefused hstep⟩
    · rintro s ⟨hs, hrefused⟩
      exact hs.keepsTime_iff.mpr fun _ => by rw [hrefused]
    · exact ⟨conserved_boot, rfl⟩
  · rw [FaultMachine.throughout_iff, FaultMachine.throughout_iff]
    refine forall_congr' fun first => imp_congr_right fun _ => forall_congr' fun t => ?_
    exact imp_congr_right fun hrun => (conserved_of_run hrun).keepsTime_iff

/-- The main loop is busy for half a second, in which 24 scans of the keys are queued, and a
second elapses. -/
def lostTickRun : List TickStep :=
  List.replicate 49 .sysTimer10ms ++ .sysTimer1000ms ::
    (List.replicate 24 [.handle, .remove]).flatten

/-- When the queue is empty again, the clock still shows 0. -/
theorem tick_lost_behind_key_scans : ∃ t, FaultMachine.run tickStep lostTickRun .boot = some t ∧
    t.queue.pending = [] ∧ t.expirations = 1 ∧ t.setAt = 0 ∧ t.clock.ullUnixTimeStamp = 0 ∧
    ¬KeepsTime t := by
  -- the date is left out: no handler that computes one runs
  have hrun : (FaultMachine.run tickStep lostTickRun .boot).map (fun t =>
      (t.queue.pending, t.expirations, t.setAt, t.setValue, t.clock.ullUnixTimeStamp)) =
      some ([], 1, 0, 0, 0) := by decide +kernel
  obtain ⟨t, ht, hfields⟩ := Option.map_eq_some_iff.mp hrun
  obtain ⟨hempty, hexpirations, hsetAt, hvalue, htime⟩ := by
    simpa only [Prod.mk.injEq] using hfields
  refine ⟨t, ht, hempty, hexpirations, hsetAt, htime, fun h => ?_⟩
  have hkept := h hempty
  rw [htime, hvalue, hexpirations, hsetAt] at hkept
  exact absurd hkept (by decide)

end IrRemote
