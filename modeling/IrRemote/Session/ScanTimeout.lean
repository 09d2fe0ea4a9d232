import IrRemote.App.Interleaving
import IrRemote.Store.Reboot

/-!
# The timeout of the receiver

While the receiver is sampled, the timer should be counting the five seconds behind which it stops
the sampling. `App_ControlHandle` clears the two flags of the count for the session whose frame it
takes up. When a new request has come in since that frame was decoded, it clears them for the new
session, and nothing stops the receiver any more.

## Main definitions

* `TimeoutPending` — the receiver is stopped, or the five seconds are counted
* `KeepsTimeout` — the flags are cleared with the receiver stopped, and it is started with them set

## Main results

* `receiver_timeout_iff` — the runs in which the receiver never runs without a timeout
-/

set_option autoImplicit false

namespace IrRemote

/-- The timeout will stop the receiver, if it is running. -/
def TimeoutPending (s : ProgramState) : Prop :=
  s.device.scan.timerLedEnabled = true →
    s.device.appStartLearnIRFlag = true ∧ s.device.appLearnIRCountStartFlag = true

/-- `App_ControlHandle` clears a flag of the count only while the receiver is stopped, and behind
the two seconds the receiver is started only while the five seconds are counted. -/
def KeepsTimeout (a : Activity) (s : ProgramState) : Prop :=
  match a with
  | .main =>
    ∀ known, s.pc = .clearStartLearn known ∨ s.pc = .clearCountStart known →
      s.device.scan.timerLedEnabled = false
  | .sysTimer100ms =>
    s.device.Restarts → s.device.appLearnIRCountStartFlag = true ∧ ¬s.device.TimesOut
  | _ => True

section Steps

variable {s t : ProgramState} {d : DeviceState}

theorem TimeoutPending.main (hs : TimeoutPending s) (hc : KeepsTimeout .main s)
    (h : programStep .main s = some t) : TimeoutPending t := by
  obtain ⟨⟨pc', d⟩, hmain, rfl⟩ := Option.map_eq_some_iff.mp h
  obtain ⟨pc, device⟩ := s
  cases pc with
  | clearStartLearn known =>
    cases hmain
    -- the flag is cleared, so the receiver has to be off
    intro hon
    rw [hc known (.inl rfl)] at hon
    cases hon
  | clearCountStart known =>
    cases hmain
    intro hon
    rw [hc known (.inr rfl)] at hon
    cases hon
  | insertCode =>
    cases hmain
    obtain ⟨notis, hinsert⟩ := exists_insertDecodedCode device
    rw [TimeoutPending, hinsert]
    exact hs
  | decode =>
    obtain ⟨r, -, hr⟩ := Option.map_eq_some_iff.mp hmain
    cases hr
    exact hs
  | stopScan =>
    cases hmain
    intro hon
    simp [midIrRemoteStopScan] at hon
  | _ =>
    cases hmain
    exact hs

/-- The timer keeps the timeout exactly where it does not start the receiver without one. -/
theorem timeoutPending_sysTimer100ms_iff (hs : TimeoutPending s) :
    TimeoutPending { s with device := sysTimer100msCall s.device } ↔
      KeepsTimeout .sysTimer100ms s := by
  obtain ⟨hrestarts, -, hstart, hcount, hled⟩ := countLearnTime_frame s.device
  obtain ⟨-, hstart', hcount', hled'⟩ := countDelayTime_frame (countLearnTime s.device)
  rw [TimeoutPending, KeepsTimeout, sysTimer100msCall, hled', hled, hrestarts, hstart', hstart,
    hcount', hcount]
  constructor
  · intro h hrestart
    exact (h (.inr hrestart)).2
  · rintro h (⟨hon, htime⟩ | hrestart)
    -- the receiver was running, and was not stopped
    · obtain ⟨hstart, hcount⟩ := hs hon
      exact ⟨hstart, hcount, htime⟩
    -- it was started again, which needs the session to go on
    · exact ⟨hrestart.2.1, h hrestart⟩

/-- The other activities leave the flags and the timer alone, or they set all three. -/
theorem TimeoutPending.programStep {a : Activity} (hs : TimeoutPending s) (hc : KeepsTimeout a s)
    (h : programStep a s = some t) : TimeoutPending t := by
  cases a with
  | main => exact hs.main hc h
  | startLearnIR uwIrID =>
    obtain rfl := Option.some.inj h
    exact fun _ => ⟨rfl, rfl⟩
  | eraseIR uwIrID =>
    obtain rfl := Option.some.inj h
    exact hs
  | sample eventType tIRInputLevel =>
    obtain ⟨d, hsample, rfl⟩ := Option.map_eq_some_iff.mp h
    obtain ⟨p, rfl, -⟩ := timerSample_eq_some hsample
    exact hs
  | sysTimer100ms =>
    obtain rfl := Option.some.inj h
    exact (timeoutPending_sysTimer100ms_iff hs).mpr hc

/-- Outside of the condition the next state is one with a receiver that nothing stops. -/
theorem exists_not_timeoutPending {a : Activity} (hs : TimeoutPending s) (hc : ¬KeepsTimeout a s) :
    ∃ t, IrRemote.programStep a s = some t ∧ ¬TimeoutPending t := by
  cases a with
  | main =>
    obtain ⟨pc, d⟩ := s
    simp only [KeepsTimeout, not_forall, Bool.not_eq_false] at hc
    obtain ⟨known, rfl | rfl, hon⟩ := hc
    · refine ⟨_, rfl, fun h => ?_⟩
      exact absurd (h hon).1 Bool.false_ne_true
    · refine ⟨_, rfl, fun h => ?_⟩
      exact absurd (h hon).2 Bool.false_ne_true
  | sysTimer100ms =>
    exact ⟨_, rfl, fun h => hc ((timeoutPending_sysTimer100ms_iff hs).mp h)⟩
  | startLearnIR => exact absurd trivial hc
  | eraseIR => exact absurd trivial hc
  | sample => exact absurd trivial hc

end Steps

/-- The receiver never runs without a timeout exactly in the runs that clear the flags of the count
with the receiver stopped, and start it again with the flags set. -/
theorem receiver_timeout_iff (irparamsAddress : BitVec 32) (stores : StoreState)
    (labels : List Activity) :
    FaultMachine.Throughout programStep TimeoutPending labels
        (programAtBoot irparamsAddress stores) ↔
      FaultMachine.Along programStep KeepsTimeout labels
        (programAtBoot irparamsAddress stores) := by
  refine FaultMachine.throughout_iff_along TimeoutPending (fun a s t hs hc h => ?_) (fun s hs => hs)
    (fun a s hs hc => ?_) ?_
  · exact hs.programStep hc h
  · exact exists_not_timeoutPending hs hc
  · intro hon
    cases hon

/-- A frame of one mark is captured for a first request and decoded; a second request comes in
before the main loop takes the frame up. -/
def requestBehindFrame : List Activity :=
  [.startLearnIR 1] ++ (frameLevels [1]).map (.sample .compare0) ++ List.replicate 11 .main ++
    [.startLearnIR 2] ++ List.replicate 5 .main

/-- The main loop ends the session of the second request, with the receiver running. -/
theorem receiver_left_running :
    ¬∀ (irparamsAddress : BitVec 32) (stores : StoreState) (labels : List Activity),
      FaultMachine.Throughout programStep TimeoutPending labels
        (programAtBoot irparamsAddress stores) := by
  intro h
  have hrun : (FaultMachine.run programStep requestBehindFrame (programAtBoot 0 blankStores)).map
      (fun s => (s.device.scan.timerLedEnabled, s.device.appStartLearnIRFlag)) =
        some (true, false) := by
    decide +kernel
  obtain ⟨s, hs, hflags⟩ := Option.map_eq_some_iff.mp hrun
  obtain ⟨hon, hoff⟩ := Prod.mk.inj hflags
  have hpending := (h 0 blankStores requestBehindFrame).last hs
  rw [(hpending hon).1] at hoff
  cases hoff

end IrRemote
