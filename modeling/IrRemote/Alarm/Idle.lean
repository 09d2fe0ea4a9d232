import IrRemote.Alarm.OnTime

/-!
# Triggers without a motion

A `TIMEOUT_TRIGGER` is due when the seconds without a motion reach its `ulTimeout`. The seconds are
counted while `MOTION_SENSOR_TIMEOUT_COUNT` is on, and the handler of the sensor sets this flag
also at a motion: it does so in the three seconds behind the sensing, when the sensor is disabled.
It also sets the flag when no `SysTimer1000msCall` has seen it off, and the count goes on.

## Main definitions

* `MotionDevice`, `IdleLabel`, `idleStep` — the sensor and the two timers in any order
* `IdleRecord`, `noteIdle` — the motions and the triggers, in calls of `SysTimer1000msCall`
* `FiresWithoutMotion` — a trigger has waited for its `ulTimeout`
* `SeesMotion` — no sample lets the count go on past a motion

## Main results

* `timeout_trigger_without_motion` — under this condition the triggers wait
* `timeout_trigger_during_motion` — a motion while the sensor is disabled
-/

set_option autoImplicit false

namespace IrRemote

/-! ## The sensor and the timers -/

/-- The variables of the alarms, and the triggers. -/
structure MotionDevice where
  alarm : AlarmState
  atIRDataTrigger : IRTriggerTable
  deriving DecidableEq

/-- A sample of the sensor, a call of a timer, and a command that changes the triggers. -/
inductive IdleLabel where
  | motionSample (sample : BitVec 16)
  | sysTimer100ms (date : DateTime)
  | sysTimer1000ms (date : DateTime)
  | command (table : IRTriggerTable)

/-- `SysTimer1000msCall`, without its events. -/
def MotionDevice.sysTimer1000ms (date : DateTime) (s : MotionDevice) : MotionDevice :=
  let (alarm, table, _) := sysTimer1000msAlarms date s.atIRDataTrigger s.alarm
  ⟨alarm, table⟩

/-- Its events. -/
def MotionDevice.timeoutEvents (date : DateTime) (s : MotionDevice) : List EmitEvent :=
  (sysTimer1000msAlarms date s.atIRDataTrigger s.alarm).2.2

theorem MotionDevice.alarm_sysTimer1000ms (date : DateTime) (s : MotionDevice) :
    (s.sysTimer1000ms date).alarm =
      { s.alarm with
        ulMotionTimeOffCount :=
          if s.alarm.motionSensorTimeoutCount then s.alarm.ulMotionTimeOffCount + 1 else 0
        motionSensorPreTimeoutCount := s.alarm.motionSensorTimeoutCount } :=
  sysTimer1000msAlarms_fst date s.atIRDataTrigger s.alarm

/-- One step. -/
def idleStep (a : IdleLabel) (s : MotionDevice) : Option MotionDevice :=
  match a with
  | .motionSample sample => some { s with alarm := midMotionSensorHandler sample s.alarm }
  | .sysTimer100ms date =>
    some { s with alarm := (sysTimer100msAlarms date s.atIRDataTrigger s.alarm).1 }
  | .sysTimer1000ms date => some (s.sysTimer1000ms date)
  | .command table => some { s with atIRDataTrigger := table }

/-- An event of `App_AlarmMotionTimeOutTrigger`: the `ulTimeout` of its slot, how many calls of
`SysTimer1000msCall` were made before the last motion, and the number of the call. -/
structure TimeoutFire where
  ulTimeout : BitVec 32
  lastMotion : Option ℕ
  call : ℕ
  deriving DecidableEq

/-- The calls of `SysTimer1000msCall`, how many of them were made before the last motion, and the
events. -/
structure IdleRecord where
  calls : ℕ
  lastMotion : Option ℕ
  fires : List TimeoutFire
  deriving DecidableEq

/-- The start. -/
def IdleRecord.zero : IdleRecord := ⟨0, none, []⟩

/-- What a step makes of the record. -/
def noteIdle (a : IdleLabel) (s _ : MotionDevice) (h : IdleRecord) : IdleRecord :=
  match a with
  | .motionSample sample =>
    { h with lastMotion := if IsMotion sample then some h.calls else h.lastMotion }
  | .sysTimer1000ms date =>
    { h with
      calls := h.calls + 1
      fires := h.fires ++ (s.timeoutEvents date).map fun e =>
        ⟨(s.atIRDataTrigger.get e.slot).ulTimeout, h.lastMotion, h.calls + 1⟩ }
  | _ => h

/-- The call of an event with `ulTimeout = T` is at least `T` calls behind the last motion: the
motion was handled before the call that is `T - 1` calls earlier. -/
def FiresWithoutMotion (r : MotionDevice × IdleRecord) : Prop :=
  ∀ fire ∈ r.2.fires, 2 ≤ fire.ulTimeout.toNat →
    ∀ calls ∈ fire.lastMotion, calls + fire.ulTimeout.toNat ≤ fire.call

/-- The sample sets `MOTION_SENSOR_TIMEOUT_COUNT`. -/
def AlarmState.SetsTimeoutCount (s : AlarmState) (sample : BitVec 16) : Prop :=
  ¬(IsMotion sample ∧ s.motionSensorDisable = false) ∧ s.motionSensorStartSensing = false

instance (s : AlarmState) (sample : BitVec 16) : Decidable (s.SetsTimeoutCount sample) :=
  inferInstanceAs (Decidable (_ ∧ _))

/-- A sample that sets `MOTION_SENSOR_TIMEOUT_COUNT` while the count is not zero is no motion, and
none was handled since the last `SysTimer1000msCall`. -/
def SeesMotion (a : IdleLabel) (r : MotionDevice × IdleRecord) : Prop :=
  match a with
  | .motionSample sample =>
    r.1.alarm.SetsTimeoutCount sample → r.1.alarm.ulMotionTimeOffCount ≠ 0 →
      ¬IsMotion sample ∧ r.2.lastMotion ≠ some r.2.calls
  | _ => True

instance (a : IdleLabel) (r : MotionDevice × IdleRecord) : Decidable (SeesMotion a r) :=
  match a with
  | .motionSample _ => inferInstanceAs (Decidable (_ → _ → _ ∧ _))
  | .sysTimer100ms _ => isTrue trivial
  | .sysTimer1000ms _ => isTrue trivial
  | .command _ => isTrue trivial

/-! ## The count and the last motion -/

/-- While the flag is on, the count does not reach back to the last motion. While it is off, the
count is zero or the motion has come since the last call. -/
structure IdleInv (r : MotionDevice × IdleRecord) : Prop where
  fires : FiresWithoutMotion r
  senses : r.1.alarm.SensesOrDisabled
  lastMotion : ∀ calls ∈ r.2.lastMotion, calls ≤ r.2.calls
  on : r.1.alarm.motionSensorTimeoutCount = true →
    ∀ calls ∈ r.2.lastMotion, calls + r.1.alarm.ulMotionTimeOffCount.toNat ≤ r.2.calls
  off : r.1.alarm.motionSensorTimeoutCount = false →
    r.1.alarm.ulMotionTimeOffCount = 0 ∨ r.2.lastMotion = some r.2.calls

section Invariant

variable {s : MotionDevice} {h : IdleRecord} {r r' : MotionDevice × IdleRecord} {a : IdleLabel}

/-- A motion of the sensing stops the count. -/
theorem IdleInv.motion (hr : IdleInv (s, h)) {sample : BitVec 16} (hmotion : IsMotion sample)
    (hdisable : s.alarm.motionSensorDisable = false) :
    IdleInv ({ s with alarm := midMotionSensorHandler sample s.alarm },
      { h with lastMotion := some h.calls }) := by
  have hstate : midMotionSensorHandler sample s.alarm = _ := if_pos ⟨hmotion, hdisable⟩
  refine ⟨hr.fires, sensesOrDisabled_midMotionSensorHandler hr.senses sample, ?_, ?_, ?_⟩
  · intro calls hcalls
    exact (Option.some.inj hcalls).ge
  · intro hon
    rw [hstate] at hon
    cases hon
  · exact fun _ => .inr rfl

/-- A sample that starts the count, or lets it go on. -/
theorem IdleInv.setsTimeoutCount (hr : IdleInv (s, h)) {sample : BitVec 16}
    (hsets : s.alarm.SetsTimeoutCount sample) (hsees : SeesMotion (.motionSample sample) (s, h)) :
    IdleInv ({ s with alarm := midMotionSensorHandler sample s.alarm },
      { h with lastMotion := if IsMotion sample then some h.calls else h.lastMotion }) := by
  have hstate : midMotionSensorHandler sample s.alarm =
      { s.alarm with ubMotionCount := 0, motionSensorTimeoutCount := true } :=
    (if_neg hsets.1).trans (if_pos hsets.2)
  have hlast : ∀ calls ∈ (if IsMotion sample then some h.calls else h.lastMotion),
      calls ≤ h.calls := by
    split_ifs with hmotion
    · exact fun calls hcalls => (Option.some.inj hcalls).ge
    · exact hr.lastMotion
  refine ⟨hr.fires, sensesOrDisabled_midMotionSensorHandler hr.senses sample, hlast, ?_, ?_⟩
  · intro _ calls hcalls
    rw [hstate]
    by_cases hcount : s.alarm.ulMotionTimeOffCount = 0
    · rw [hcount]
      exact hlast calls hcalls
    · obtain ⟨hmotion, hnone⟩ := hsees hsets hcount
      rw [if_neg hmotion] at hcalls
      refine hr.on ?_ calls hcalls
      -- were the flag off, the count or the last motion would tell
      by_contra hoff
      obtain hzero | hsince := hr.off (Bool.not_eq_true _ ▸ hoff)
      · exact hcount hzero
      · exact hnone hsince
  · intro hoff
    rw [hstate] at hoff
    cases hoff

/-- A sample of the sensor. -/
theorem IdleInv.motionSample (hr : IdleInv (s, h)) (sample : BitVec 16)
    (hsees : SeesMotion (.motionSample sample) (s, h)) :
    IdleInv ({ s with alarm := midMotionSensorHandler sample s.alarm },
      { h with lastMotion := if IsMotion sample then some h.calls else h.lastMotion }) := by
  by_cases hmotion : IsMotion sample ∧ s.alarm.motionSensorDisable = false
  · rw [if_pos hmotion.1]
    exact hr.motion hmotion.1 hmotion.2
  · by_cases hstart : s.alarm.motionSensorStartSensing = false
    · exact hr.setsTimeoutCount ⟨hmotion, hstart⟩ hsees
    · -- the sensor senses, so that it is not disabled
      have hdisable := hr.senses (Bool.not_eq_false _ ▸ hstart)
      have hstate : midMotionSensorHandler sample s.alarm = s.alarm :=
        (if_neg hmotion).trans (if_neg hstart)
      rw [if_neg fun h => hmotion ⟨h, hdisable⟩, hstate]
      exact hr

/-- The next count, while the flag is on. -/
theorem IdleInv.toNat_next (hr : IdleInv (s, h)) (hon : s.alarm.motionSensorTimeoutCount = true)
    {calls : ℕ} (hcalls : calls ∈ h.lastMotion) :
    calls + (s.alarm.ulMotionTimeOffCount + 1).toNat ≤ h.calls + 1 := by
  have hnext : (s.alarm.ulMotionTimeOffCount + 1).toNat ≤ s.alarm.ulMotionTimeOffCount.toNat + 1 :=
    (BitVec.toNat_add _ _).trans_le (Nat.mod_le _ _)
  have hle : calls + s.alarm.ulMotionTimeOffCount.toNat ≤ h.calls := hr.on hon calls hcalls
  omega

/-- A trigger that is due has waited for its `ulTimeout`. -/
theorem IdleInv.timeoutEvents (hr : IdleInv (s, h)) {date : DateTime} {e : EmitEvent}
    (he : e ∈ s.timeoutEvents date)
    (htwo : 2 ≤ (s.atIRDataTrigger.get e.slot).ulTimeout.toNat) {calls : ℕ}
    (hcalls : calls ∈ h.lastMotion) :
    calls + (s.atIRDataTrigger.get e.slot).ulTimeout.toNat ≤ h.calls + 1 := by
  rw [MotionDevice.timeoutEvents, sysTimer1000msAlarms_snd] at he
  obtain ⟨-, -, hdue, -⟩ := timesOut_of_mem_events he
  rw [ulTimeout_armTimeoutTriggers] at hdue
  have hle := BitVec.le_def.mp hdue
  cases hflag : s.alarm.motionSensorTimeoutCount with
  | false =>
    rw [hflag, if_neg Bool.false_ne_true] at hle
    exact absurd (htwo.trans hle) (by decide)
  | true =>
    rw [hflag, if_pos rfl] at hle
    exact (Nat.add_le_add_left hle calls).trans (hr.toNat_next hflag hcalls)

/-- A call of the timer that counts. -/
theorem IdleInv.sysTimer1000ms (hr : IdleInv (s, h)) (date : DateTime) :
    IdleInv (s.sysTimer1000ms date, noteIdle (.sysTimer1000ms date) s s h) := by
  refine ⟨?_, ?_, ?_, ?_, ?_⟩
  · intro fire hfire htwo calls hcalls
    obtain hfire | hfire := List.mem_append.mp hfire
    · exact hr.fires fire hfire htwo calls hcalls
    · obtain ⟨e, he, rfl⟩ := List.mem_map.mp hfire
      exact hr.timeoutEvents he htwo hcalls
  · change (s.sysTimer1000ms date).alarm.SensesOrDisabled
    rw [s.alarm_sysTimer1000ms]
    exact hr.senses
  · exact fun calls hcalls => (hr.lastMotion calls hcalls).trans (Nat.le_succ _)
  · change (s.sysTimer1000ms date).alarm.motionSensorTimeoutCount = true → ∀ calls ∈ h.lastMotion,
      calls + (s.sysTimer1000ms date).alarm.ulMotionTimeOffCount.toNat ≤ h.calls + 1
    rw [s.alarm_sysTimer1000ms]
    intro hon calls hcalls
    exact (if_pos hon).symm ▸ hr.toNat_next hon hcalls
  · change (s.sysTimer1000ms date).alarm.motionSensorTimeoutCount = false →
      (s.sysTimer1000ms date).alarm.ulMotionTimeOffCount = 0 ∨ h.lastMotion = some (h.calls + 1)
    rw [s.alarm_sysTimer1000ms]
    exact fun hoff => .inl (if_neg (Bool.not_eq_true _ ▸ hoff))

/-- The other timer. -/
theorem IdleInv.sysTimer100ms (hr : IdleInv (s, h)) (date : DateTime) :
    IdleInv ({ s with alarm := (sysTimer100msAlarms date s.atIRDataTrigger s.alarm).1 }, h) := by
  obtain ⟨hflag, -, hcount⟩ :=
    sameTimeout_sysTimer100msAlarms date s.atIRDataTrigger s.alarm
  refine ⟨hr.fires, sensesOrDisabled_sysTimer100msAlarms hr.senses, hr.lastMotion, ?_, ?_⟩
  · intro hon
    rw [hcount]
    exact hr.on (hflag ▸ hon)
  · intro hoff
    rw [hcount]
    exact hr.off (hflag ▸ hoff)

theorem IdleInv.step (hr : IdleInv r) (hsees : SeesMotion a r)
    (hrun : FaultMachine.recorded idleStep noteIdle a r = some r') : IdleInv r' := by
  obtain ⟨s, h⟩ := r
  cases a with
  | motionSample sample =>
    obtain rfl := Option.some.inj hrun
    exact hr.motionSample sample hsees
  | sysTimer100ms date =>
    obtain rfl := Option.some.inj hrun
    exact hr.sysTimer100ms date
  | sysTimer1000ms date =>
    obtain rfl := Option.some.inj hrun
    exact hr.sysTimer1000ms date
  | command table =>
    obtain rfl := Option.some.inj hrun
    exact ⟨hr.fires, hr.senses, hr.lastMotion, hr.on, hr.off⟩

end Invariant

/-- In a run in which the samples see the motions, from the start, every trigger has waited for
its `ulTimeout`. -/
theorem timeout_trigger_without_motion (table : IRTriggerTable) (labels : List IdleLabel)
    (h : FaultMachine.Along (FaultMachine.recorded idleStep noteIdle) SeesMotion labels
      (⟨.zero, table⟩, .zero)) :
    FaultMachine.Throughout (FaultMachine.recorded idleStep noteIdle) FiresWithoutMotion labels
      (⟨.zero, table⟩, .zero) :=
  h.throughout IdleInv (fun _ _ _ hr hsees hrun => hr.step hsees hrun) (fun _ hr => hr.fires)
    ⟨nofun, fun _ => rfl, nofun, nofun, fun _ => .inl rfl⟩

/-- A trigger on every day, behind two seconds without a motion. -/
def twoSeconds : IrDataTrigger where
  ubMode := timeoutTrigger
  uwTrigID := 1
  uwIrCode := 7
  ubDays := 0x7F
  tTime1 := ⟨0, 0⟩
  tTime2 := ⟨0, 0⟩
  ulTimeout := 2
  ubMotionSen := 0
  ubTriggerDone := 0

/-- A motion, and the two seconds of sensing. -/
def senseOneMotion (date : DateTime) : List IdleLabel :=
  .motionSample 0 :: List.replicate time2sBy100ms (.sysTimer100ms date)

/-- The sensor has rested for three calls. -/
theorem timeout_trigger_without_motion_rested :
    FaultMachine.Throughout (FaultMachine.recorded idleStep noteIdle) FiresWithoutMotion
      (senseOneMotion (midRTCConvertUnixToDate 0) ++
        [.sysTimer1000ms (midRTCConvertUnixToDate 0), .motionSample 100,
          .sysTimer1000ms (midRTCConvertUnixToDate 1), .sysTimer1000ms (midRTCConvertUnixToDate 2)])
      (⟨.zero, Vector.replicate maxIrCode twoSeconds⟩, .zero) :=
  timeout_trigger_without_motion _ _ (by decide +kernel)

/-- A motion while the sensor is disabled: the trigger does not wait for two seconds without a
motion. -/
theorem timeout_trigger_during_motion :
    ¬∀ (table : IRTriggerTable) (labels : List IdleLabel),
      FaultMachine.Throughout (FaultMachine.recorded idleStep noteIdle) FiresWithoutMotion labels
        (⟨.zero, table⟩, .zero) := by
  intro h
  have hlast := (h (Vector.replicate maxIrCode twoSeconds)
    (senseOneMotion (midRTCConvertUnixToDate 0) ++
      [.motionSample 100, .sysTimer1000ms (midRTCConvertUnixToDate 0), .motionSample 0,
        .sysTimer1000ms (midRTCConvertUnixToDate 1)])).last rfl
  have hfire := hlast ⟨2, some 1, 2⟩ (by decide +kernel) (by decide) 1 rfl
  revert hfire
  decide

end IrRemote
