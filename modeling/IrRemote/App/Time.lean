import IrRemote.App.Safety

/-!
# The time of the firmware

The clock is advanced by events of the scheduler, and the whole firmware shares the scheduler with
it: the scans of the keys, the commands and the requests of the app and of the alarms wait in the
same queue, and the main loop takes events out of it only between two rounds of `ProcessMain`. As
far as the queue and the clock go, the firmware is the machine of the ticks, and keeps their
balance.

## Main definitions

* `ticksOf`, `noteTickSteps` — what a step of the firmware is to that machine
* `TickState.Shows` — a state of it has the queue and the clock of the firmware
* `KeepsBalance` — what is promised of every state

## Main results

* `TickState.Shows.step` — the simulation of a step
* `firmware_keeps_time` — the clock and the refused ticks add up in every run
-/

set_option autoImplicit false

namespace IrRemote

/-! ## The simulation -/

/-- The event of an alarm. -/
def alarmTick (e : EmitEvent) : TickStep := .alarm e.uwIrCode

/-- What a step does to the queue and to the clock. -/
def ticksOf (a : FirmwareStep) (s : Firmware) : List TickStep :=
  match a with
  | .main _ _ =>
    match s.point with
    | .handle => [.handle]
    | .nextEvent => [.remove]
    | .process _ | .testQueue | .execute _ => []
  | .write ubCommandIndex pData len => [.write ubCommandIndex ((List.range len.toNat).map pData)]
  | .sysTimer10ms => [.sysTimer10ms]
  | .sysTimer100ms => s.alarms100ms.2.map alarmTick
  | .sysTimer1000ms => .sysTimer1000ms :: s.alarms1000ms.2.2.map alarmTick
  | .sample _ _ | .motion _ | .reboot => []

/-- The steps since the start. -/
def noteTickSteps (a : FirmwareStep) (s _t : Firmware) (ticks : List TickStep) : List TickStep :=
  match a with
  | .reboot => []
  | _ => ticks ++ ticksOf a s

/-- The handler of the first event has run. -/
def LoopPoint.running : LoopPoint → Bool
  | .execute _ | .nextEvent => true
  | .process _ | .testQueue | .handle => false

/-- The queue and the clock are those of the firmware. -/
structure TickState.Shows (t : TickState) (s : Firmware) : Prop where
  queue : t.queue.pending.map SchedEvent.handler = s.queue
  running : t.queue.running = s.point.running
  clock : t.clock = s.clock
  count : t.ubCount20ms = s.ubCount20ms

/-- The ticks since the start lead to the queue and the clock of the firmware, and when the queue is
empty, the clock with the refused ticks shows the last value that it was set to and the expirations
since. -/
def KeepsBalance (r : Firmware × List TickStep) : Prop :=
  ∃ t, FaultMachine.run tickStep r.2 .boot = some t ∧ t.Shows r.1 ∧
    (r.1.queue = [] → r.1.clock.ullUnixTimeStamp + BitVec.ofNat 64 t.refused =
      t.setValue + BitVec.ofNat 64 (t.expirations - t.setAt))

namespace TickState.Shows

variable {t : TickState} {s s' : Firmware}

/-- A step that touches neither the queue nor the clock. -/
theorem of_frame (h : t.Shows s) (hqueue : s'.queue = s.queue)
    (hrunning : s'.point.running = s.point.running) (hclock : s'.clock = s.clock)
    (hcount : s'.ubCount20ms = s.ubCount20ms) : t.Shows s' :=
  ⟨h.queue.trans hqueue.symm, h.running.trans hrunning.symm, h.clock.trans hclock.symm,
    h.count.trans hcount.symm⟩

/-- An event finds a place in both queues or in none. -/
theorem appSchedEventPut (h : t.Shows s) (handler : SchedHandler) :
    (t.appSchedEventPut handler).Shows (s.appSchedEventPut handler) := by
  have hlength : t.queue.pending.length = s.queue.length := by
    rw [← h.queue, List.length_map]
  have haccepts : t.Accepts handler ↔ SchedAccepts handler.eventDataSize s.queue.length := by
    rw [TickState.Accepts, hlength]
  rw [TickState.appSchedEventPut, Firmware.appSchedEventPut]
  by_cases hput : SchedAccepts handler.eventDataSize s.queue.length
  · rw [schedEventPut_of_accepts hput, if_pos (haccepts.mpr hput)]
    refine ⟨?_, h.running, h.clock, h.count⟩
    dsimp only [WorkQueue.push]
    rw [List.map_append, h.queue, List.map_singleton]
  · rw [schedEventPut_of_not_accepts hput, if_neg fun hput' => hput (haccepts.mp hput')]
    exact ⟨h.queue, h.running, h.clock, h.count⟩

theorem putAlarms (h : t.Shows s) (events : List EmitEvent) :
    ∃ t', FaultMachine.run tickStep (events.map alarmTick) t = some t' ∧
      t'.Shows (s.putAlarms events) := by
  induction events generalizing t s with
  | nil => exact ⟨t, rfl, h⟩
  | cons e events ih =>
    obtain ⟨t', hrun, ht'⟩ := ih (h.appSchedEventPut e.handler)
    exact ⟨t', FaultMachine.run_cons_of_eq rfl hrun, ht'⟩

theorem onWrite (h : t.Shows s) (ubCommandIndex : CommandIndex) (pData : ℕ → BitVec 8)
    (len : BitVec 16) :
    ∃ t', tickStep (.write ubCommandIndex ((List.range len.toNat).map pData)) t = some t' ∧
      t'.Shows (s.onWrite ubCommandIndex pData len) := by
  refine ⟨_, rfl, ?_⟩
  cases ubCommandIndex with
  | rtcSet | irEmmit => exact h.appSchedEventPut _
  | motTout =>
    have htype : t.Shows { s with ubTriggerType := .timeoutType } := h.of_frame rfl rfl rfl rfl
    exact htype.appSchedEventPut _
  | schedule =>
    have htype : t.Shows { s with ubTriggerType := .schedulingType } := h.of_frame rfl rfl rfl rfl
    exact htype.appSchedEventPut _
  | motSens | irLearn | irErase | battVol | feedBack => exact h.of_frame rfl rfl rfl rfl

/-- What the handler does to the clock. -/
theorem runClock_handle {handler : SchedHandler} {rest : List SchedHandler} {sample : KeySample}
    {stale : ℕ → BitVec 8} (hqueue : s.queue = handler :: rest)
    (h : s.handle sample stale = some s') : handler.runClock s.clock = some s'.clock := by
  rw [Firmware.handle, hqueue] at h
  cases handler with
  | midDecodeRTCSet pEventData =>
    obtain ⟨clock, hclock, rfl⟩ := Option.map_eq_some_iff.mp h
    exact hclock
  | midRTCHandle =>
    obtain rfl := Option.some.inj h
    rfl
  | midKeyHandler | midDecodeTimeBasedScheduling _ | appControlStartEmitIR _
    | appControlStartEmitIRWithID _ =>
    obtain ⟨_, -, rfl⟩ := Option.map_eq_some_iff.mp h
    rfl

/-- The handler of the first event. -/
theorem handle (h : t.Shows s) (hs : s.Inv) (hpoint : s.point = .handle) {sample : KeySample}
    {stale : ℕ → BitVec 8} (hmain : s.handle sample stale = some s') :
    ∃ t', tickStep .handle t = some t' ∧ t'.Shows s' := by
  obtain ⟨hqueue, hcount, htpoint⟩ := Firmware.handle_queue hmain
  obtain ⟨handler, rest, hcons⟩ := List.exists_cons_of_ne_nil (hs.handling (by rw [hpoint]; rfl))
  -- both queues begin with the event of this handler
  obtain ⟨e, events, hpending, rfl, -⟩ := List.map_eq_cons_iff.mp (h.queue.trans hcons)
  have hnext : t.queue.next? = some e := by
    rw [WorkQueue.next?, h.running, hpoint, hpending]
    rfl
  have hclock : e.handler.runClock t.clock = some s'.clock := by
    rw [h.clock]
    exact runClock_handle hcons hmain
  have htick : tickStep .handle t = some { t with
      queue := t.queue.start
      clock := s'.clock
      setValue := if e.handler.IsSet then s'.clock.ullUnixTimeStamp else t.setValue
      setAt := if e.handler.IsSet then e.queuedAt else t.setAt } := by
    rw [tickStep, TickState.handle, hnext]
    dsimp only
    rw [hclock, Option.map_some]
  refine ⟨_, htick, ?_, ?_, rfl, h.count.trans hcount.symm⟩
  · exact h.queue.trans hqueue.symm
  · dsimp only [WorkQueue.start]
    rw [hpending]
    obtain hnext | ⟨decoded, hexecute⟩ := htpoint
    · rw [hnext]
      rfl
    · rw [hexecute]
      rfl

/-- The main loop. -/
theorem main (h : t.Shows s) (hs : s.Inv) {sample : KeySample} {stale : ℕ → BitVec 8}
    (hmain : s.main sample stale = some s') :
    ∃ t', FaultMachine.run tickStep (ticksOf (.main sample stale) s) t = some t' ∧ t'.Shows s' := by
  rw [Firmware.main] at hmain
  rw [ticksOf]
  cases hpoint : s.point with
  | process pc =>
    rw [hpoint] at hmain
    obtain ⟨⟨pc', d'⟩, -, rfl⟩ := Option.map_eq_some_iff.mp hmain
    refine ⟨t, rfl, h.of_frame rfl ?_ rfl rfl⟩
    rw [hpoint]
    dsimp only
    split_ifs <;> rfl
  | testQueue =>
    rw [hpoint] at hmain
    obtain rfl := Option.some.inj hmain
    refine ⟨t, rfl, h.of_frame rfl ?_ rfl rfl⟩
    rw [hpoint]
    dsimp only
    split_ifs <;> rfl
  | handle =>
    rw [hpoint] at hmain
    obtain ⟨t', hstep, ht'⟩ := h.handle hs hpoint hmain
    exact ⟨t', FaultMachine.run_cons_of_eq hstep rfl, ht'⟩
  | execute decoded =>
    rw [hpoint] at hmain
    obtain rfl := Option.some.inj hmain
    exact ⟨t, rfl, h.of_frame rfl (by rw [hpoint]; rfl) rfl rfl⟩
  | nextEvent =>
    rw [hpoint] at hmain
    obtain rfl := Option.some.inj hmain
    refine ⟨_, FaultMachine.run_cons_of_eq rfl rfl, ?_⟩
    have hrunning : t.queue.running = true := by
      rw [h.running, hpoint]
      rfl
    refine ⟨?_, ?_, h.clock, h.count⟩
    · rw [WorkQueue.finish, if_pos hrunning, List.map_tail, h.queue]
    · rw [WorkQueue.finish, if_pos hrunning]
      rfl

/-- Every step but a reboot. -/
theorem step (h : t.Shows s) (hs : s.Inv) {a : FirmwareStep} (ha : a ≠ .reboot)
    (hstep : firmwareStep a s = some s') :
    ∃ t', FaultMachine.run tickStep (ticksOf a s) t = some t' ∧ t'.Shows s' := by
  cases a with
  | main sample stale => exact h.main hs hstep
  | write ubCommandIndex pData len =>
    obtain rfl := Option.some.inj hstep
    obtain ⟨t', htick, ht'⟩ := h.onWrite ubCommandIndex pData len
    exact ⟨t', FaultMachine.run_cons_of_eq htick rfl, ht'⟩
  | sample eventType tIRInputLevel =>
    obtain ⟨d, -, rfl⟩ := Option.map_eq_some_iff.mp hstep
    exact ⟨t, rfl, h.of_frame rfl rfl rfl rfl⟩
  | motion sample =>
    obtain rfl := Option.some.inj hstep
    exact ⟨t, rfl, h.of_frame rfl rfl rfl rfl⟩
  | sysTimer10ms =>
    obtain rfl := Option.some.inj hstep
    refine ⟨_, FaultMachine.run_cons_of_eq rfl rfl, ?_⟩
    rw [TickState.sysTimer10msCall, Firmware.sysTimer10msCall, h.count]
    split_ifs
    · have hput := h.appSchedEventPut .midKeyHandler
      exact ⟨hput.queue, hput.running, hput.clock, rfl⟩
    · exact ⟨h.queue, h.running, h.clock, congrArg (fun n => (n + 1) % 256) h.count⟩
  | sysTimer100ms =>
    obtain rfl := Option.some.inj hstep
    have hcounted : t.Shows { s with
        device := IrRemote.sysTimer100msCall s.device, alarm := s.alarms100ms.1 } :=
      h.of_frame rfl rfl rfl rfl
    exact hcounted.putAlarms s.alarms100ms.2
  | sysTimer1000ms =>
    obtain rfl := Option.some.inj hstep
    have hexpired : Shows { t with expirations := t.expirations + 1 } s :=
      ⟨h.queue, h.running, h.clock, h.count⟩
    have hticked := hexpired.appSchedEventPut .midRTCHandle
    have harmed : Shows t.sysTimer1000msCall { (s.appSchedEventPut .midRTCHandle).withStores
        { s.stores with atIRDataTrigger := s.alarms1000ms.2.1 } with
          alarm := s.alarms1000ms.1 } := hticked.of_frame rfl rfl rfl rfl
    obtain ⟨t', hrun, ht'⟩ := harmed.putAlarms s.alarms1000ms.2.2
    exact ⟨t', FaultMachine.run_cons_of_eq rfl hrun, ht'⟩
  | reboot => exact absurd rfl ha

end TickState.Shows

/-! ## The balance -/

/-- When nothing waits, the clock shows what was predicted. -/
theorem Conserved.balanced_of_nil {t : TickState} (h : Conserved t)
    (hempty : t.queue.pending = []) :
    t.clock.ullUnixTimeStamp + BitVec.ofNat 64 t.refused =
      t.setValue + BitVec.ofNat 64 (t.expirations - t.setAt) := by
  have hsettled : t.settled = t.reading := WorkQueue.settle_of_nil hempty
  have hbalanced := h.balanced
  rw [hsettled] at hbalanced
  exact hbalanced.adds_up

/-- A run of the ticks since the start that shows the firmware. -/
def TicksShown (r : Firmware × List TickStep) : Prop :=
  r.1.Inv ∧ ∃ t, FaultMachine.run tickStep r.2 .boot = some t ∧ t.Shows r.1

theorem TicksShown.step {a : FirmwareStep} {r r' : Firmware × List TickStep} (h : TicksShown r)
    (hstep : FaultMachine.recorded firmwareStep noteTickSteps a r = some r') : TicksShown r' := by
  obtain ⟨hs, t, hrun, hshows⟩ := h
  obtain ⟨hfirmware, hnote⟩ := FaultMachine.recorded_eq_some_iff.mp hstep
  refine ⟨hs.step hfirmware, ?_⟩
  by_cases ha : a = .reboot
  · subst ha
    rw [hnote, ← Option.some.inj hfirmware]
    exact ⟨.boot, rfl, rfl, rfl, rfl, rfl⟩
  · obtain ⟨t', hticks, ht'⟩ := hshows.step hs ha hfirmware
    have hlog : r'.2 = r.2 ++ ticksOf a r.1 := by
      rw [hnote]
      cases a with
      | reboot => exact absurd rfl ha
      | _ => rfl
    rw [hlog]
    exact ⟨t', FaultMachine.run_append_of_eq hrun hticks, ht'⟩

/-- In every run, the clock of the firmware is that of the machine of the ticks, run by the timers,
the writes, the alarms and the handlers since the start. So whenever the queue is empty, the clock
shows what it was set to last and the expirations since, but for the ticks that were refused. -/
theorem firmware_keeps_time (irparamsAddress : BitVec 32) (flash : Flash)
    (labels : List FirmwareStep) :
    FaultMachine.Throughout (FaultMachine.recorded firmwareStep noteTickSteps) KeepsBalance labels
      (firmwareAtBoot irparamsAddress flash, []) := by
  refine FaultMachine.throughout_of_invariant TicksShown (fun a r r' h hstep => ?_) ?_ ?_ labels
  · exact h.step hstep
  · rintro r ⟨-, t, hrun, hshows⟩
    refine ⟨t, hrun, hshows, fun hempty => ?_⟩
    rw [← hshows.clock]
    refine (conserved_of_run hrun).balanced_of_nil ?_
    exact List.map_eq_nil_iff.mp (hshows.queue.trans hempty)
  · exact ⟨.firmwareAtBoot irparamsAddress flash, .boot, rfl, rfl, rfl, rfl, rfl⟩

end IrRemote
