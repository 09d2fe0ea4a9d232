import IrRemote.App.Device
import IrRemote.Mid.Rtc

/-!
# Alarms

The functions of `App_AlarmControl.c`, the handler of the motion sensor in `Mid_MotionSensor.c`
and the parts of `SysTimer100msCall` and `SysTimer1000msCall` in `main.c` that call them. A
trigger that is due puts `App_ControlStartEmitIRWithID` with its code. The queue of the scheduler is
not part of the state: an event stands for the call of `app_sched_event_put`, which the queue may
refuse.

## Main definitions

* `AlarmState` — the flags and counters of the alarms
* `appAlarmOnTimeHandler`, `appAlarmMotionTriggerHandler`, `appAlarmMotionTimeOutTrigger` — the
  three kinds of alarms
* `midMotionSensorHandler` — a sample of the motion sensor
* `sysTimer100msAlarms`, `sysTimer1000msAlarms` — the timers
* `codesOf` — the codes that one slot has put
* `HasWindow`, `WindowBefore` — the windows that decide about the variable of the motion handler

## Main results

* `codesOf_appAlarmOnTimeHandler`, `codesOf_motionTriggerSlots`,
  `codesOf_appAlarmMotionTimeOutTrigger` — what one slot puts
-/

set_option autoImplicit false

namespace IrRemote

/-- `app_sched_event_put` of `App_ControlStartEmitIRWithID` with the code of a slot. -/
structure EmitEvent where
  slot : Fin maxIrCode
  uwIrCode : BitVec 8
  deriving DecidableEq, Repr

/-- The flags `MOTION_SENSOR_*`, the counters of the motion sensor, and the two variables
`uuPreMinutes`. -/
structure AlarmState where
  motionSensorStartSensing : Bool
  motionSensorSensingDone : Bool
  motionSensorDisable : Bool
  motionSensorTimeoutCount : Bool
  motionSensorPreTimeoutCount : Bool
  ubMotionSensorGrade : BitVec 8
  ubMotionSensorCountTime : BitVec 8
  ubMotionSensorDisableTime : BitVec 8
  ubMotionCount : BitVec 8
  ulMotionTimeOffCount : BitVec 32
  /-- `uuPreMinutes` of `App_AlarmOnTimeHandler`. -/
  onTimePreMinutes : BitVec 8
  /-- `uuPreMinutes` of `App_AlarmMotionTriggerHandler`. -/
  motionPreMinutes : BitVec 8
  deriving DecidableEq, Repr

/-- All of them are zero at the start. -/
def AlarmState.zero : AlarmState where
  motionSensorStartSensing := false
  motionSensorSensingDone := false
  motionSensorDisable := false
  motionSensorTimeoutCount := false
  motionSensorPreTimeoutCount := false
  ubMotionSensorGrade := 0
  ubMotionSensorCountTime := 0
  ubMotionSensorDisableTime := 0
  ubMotionCount := 0
  ulMotionTimeOffCount := 0
  onTimePreMinutes := 0
  motionPreMinutes := 0

/-! ## Days and times -/

/-- `bit_is_set`. -/
def bitIsSet (str : BitVec 8) (bit : ℕ) : Bool := str.getLsbD bit

/-- `CONVERT_DAYS_TO_INDED`. The days of the week are numbered from 1 to 7. -/
def convertDaysToInded (days : BitVec 8) : ℕ := 7 - days.toNat

/-- `CONVERT_HOUR_TO_MIN`, computed as int. -/
def convertHourToMin (hour min : BitVec 8) : ℕ := hour.toNat * 60 + min.toNat

/-- The bit of the day is set. -/
def IrDataTrigger.OnDay (t : IrDataTrigger) (date : DateTime) : Prop :=
  bitIsSet t.ubDays (convertDaysToInded date.dayOfWeek) = true

/-- The time of a `ONE_TRIGGER`. -/
def IrDataTrigger.OnTime (t : IrDataTrigger) (date : DateTime) : Prop :=
  t.OnDay date ∧ t.tTime1.ubHour = date.hour ∧ t.tTime1.ubMin = date.minute

/-- The times of a `WINDOW_TRIGGER`. -/
def IrDataTrigger.InWindow (t : IrDataTrigger) (date : DateTime) : Prop :=
  convertHourToMin t.tTime1.ubHour t.tTime1.ubMin ≤ convertHourToMin date.hour date.minute ∧
    convertHourToMin date.hour date.minute ≤ convertHourToMin t.tTime2.ubHour t.tTime2.ubMin

section Decidable

variable (t : IrDataTrigger) (date : DateTime)

instance : Decidable (t.OnDay date) := inferInstanceAs (Decidable (_ = _))

instance : Decidable (t.OnTime date) := inferInstanceAs (Decidable (_ ∧ _))

instance : Decidable (t.InWindow date) := inferInstanceAs (Decidable (_ ∧ _))

end Decidable

/-! ## Alarms at a time -/

/-- `App_AlarmOnTimeHandler`. -/
def appAlarmOnTimeHandler (date : DateTime) (table : IRTriggerTable) (s : AlarmState) :
    AlarmState × List EmitEvent :=
  if s.onTimePreMinutes ≠ date.minute then
    ({ s with onTimePreMinutes := date.minute },
      (List.finRange maxIrCode).filterMap fun i =>
        if (table.get i).ubMode = oneTrigger ∧ (table.get i).OnTime date then
          some ⟨i, (table.get i).uwIrCode⟩
        else none)
  else (s, [])

/-! ## Alarms of the motion sensor -/

/-- `MOTION_SENSOR_SENSITIVITY_LEVEL_NONE`. -/
def motionSensorSensitivityLevelNone : BitVec 8 := 2 * 2
/-- `MOTION_SENSOR_SENSITIVITY_LEVEL_0`. -/
def motionSensorSensitivityLevel0 : BitVec 8 := 3 * 2
/-- `MOTION_SENSOR_SENSITIVITY_LEVEL_1`. -/
def motionSensorSensitivityLevel1 : BitVec 8 := 6 * 2
/-- `MOTION_SENSOR_SENSITIVITY_LEVEL_2`. -/
def motionSensorSensitivityLevel2 : BitVec 8 := 9 * 2
/-- `MOTION_SENSOR_SENSITIVITY_LEVEL_3`. -/
def motionSensorSensitivityLevel3 : BitVec 8 := 12 * 2
/-- `MOTION_SENSOR_SENSITIVITY_LEVEL_4`. -/
def motionSensorSensitivityLevel4 : BitVec 8 := 15 * 2

/-- The sample of the sensor is below the threshold of a motion. -/
def IsMotion (sample : BitVec 16) : Prop := sample.toInt < 100

instance (sample : BitVec 16) : Decidable (IsMotion sample) := inferInstanceAs (Decidable (_ < _))

/-- The grade behind a motion, with the levels `SENSITIVITY_LEVEL_NONE` to `SENSITIVITY_LEVEL_4`
as the numbers 0 to 5. -/
def motionGrade (ubMotionCount ubMotionSensorGrade : BitVec 8) : BitVec 8 :=
  if ubMotionCount ≤ motionSensorSensitivityLevel0 then
    if motionSensorSensitivityLevelNone ≤ ubMotionCount then 1 else ubMotionSensorGrade
  else if ubMotionCount ≤ motionSensorSensitivityLevel1 then 2
  else if ubMotionCount ≤ motionSensorSensitivityLevel2 then 3
  else if ubMotionCount ≤ motionSensorSensitivityLevel3 then 4
  else if ubMotionCount ≤ motionSensorSensitivityLevel4 then 5
  else ubMotionSensorGrade

/-- `Mid_MotionSensorHandler` at `NRFX_SAADC_EVT_DONE`. -/
def midMotionSensorHandler (sample : BitVec 16) (s : AlarmState) : AlarmState :=
  if IsMotion sample ∧ s.motionSensorDisable = false then
    { s with
      motionSensorTimeoutCount := false
      motionSensorStartSensing := true
      ubMotionCount := s.ubMotionCount + 1
      ubMotionSensorGrade := motionGrade (s.ubMotionCount + 1) s.ubMotionSensorGrade }
  else if s.motionSensorStartSensing = false then
    { s with ubMotionCount := 0, motionSensorTimeoutCount := true }
  else s

/-- The trigger is a `WINDOW_TRIGGER` of the day. -/
def IrDataTrigger.IsWindowOn (t : IrDataTrigger) (date : DateTime) : Prop :=
  t.ubMode = windowTrigger ∧ t.OnDay date

instance (t : IrDataTrigger) (date : DateTime) : Decidable (t.IsWindowOn date) :=
  inferInstanceAs (Decidable (_ ∧ _))

/-- The first branch of the loop in `App_AlarmMotionTriggerHandler`, over the variable
`uuPreMinutes` and the events so far. -/
def motionSlot (t : IrDataTrigger) (grade : BitVec 8) (i : Fin maxIrCode)
    (r : BitVec 8 × List EmitEvent) : BitVec 8 × List EmitEvent :=
  if t.ubMode = motionTrigger then
    if t.ubMotionSen = grade then (r.1, r.2 ++ [⟨i, t.uwIrCode⟩]) else r
  else r

/-- Its second branch. -/
def windowSlot (date : DateTime) (t : IrDataTrigger) (grade : BitVec 8) (i : Fin maxIrCode)
    (r : BitVec 8 × List EmitEvent) : BitVec 8 × List EmitEvent :=
  if t.IsWindowOn date then
    if r.1 ≠ date.minute then
      if t.InWindow date ∧ t.ubMotionSen = grade then (date.minute, r.2 ++ [⟨i, t.uwIrCode⟩])
      else (date.minute, r.2)
    else r
  else r

/-- One turn of the loop. -/
def motionTriggerSlot (date : DateTime) (table : IRTriggerTable) (grade : BitVec 8)
    (r : BitVec 8 × List EmitEvent) (i : Fin maxIrCode) : BitVec 8 × List EmitEvent :=
  windowSlot date (table.get i) grade i (motionSlot (table.get i) grade i r)

/-- The loop. -/
def motionTriggerSlots (date : DateTime) (table : IRTriggerTable) (s : AlarmState) :
    BitVec 8 × List EmitEvent :=
  (List.finRange maxIrCode).foldl (motionTriggerSlot date table s.ubMotionSensorGrade)
    (s.motionPreMinutes, [])

/-- The next call of the handler ends the two seconds of sensing. -/
def AlarmState.EndsSensing (s : AlarmState) : Prop :=
  s.motionSensorStartSensing = true ∧ time2sBy100ms ≤ (s.ubMotionSensorCountTime + 1).toNat

instance (s : AlarmState) : Decidable s.EndsSensing := inferInstanceAs (Decidable (_ ∧ _))

/-- `App_AlarmMotionTriggerHandler`. -/
def appAlarmMotionTriggerHandler (date : DateTime) (table : IRTriggerTable) (s : AlarmState) :
    AlarmState × List EmitEvent :=
  if s.motionSensorStartSensing then
    if time2sBy100ms ≤ (s.ubMotionSensorCountTime + 1).toNat then
      let (motionPreMinutes, events) := motionTriggerSlots date table s
      ({ s with
          motionSensorDisable := true
          motionSensorSensingDone := true
          motionSensorStartSensing := false
          ubMotionSensorCountTime := 0
          motionPreMinutes := motionPreMinutes
          ubMotionSensorGrade := 0 }, events)
    else ({ s with ubMotionSensorCountTime := s.ubMotionSensorCountTime + 1 }, [])
  else (s, [])

/-- `TIME_3S_BY_100MS`. -/
def time3sBy100ms : ℕ := 30

/-- `SysTimer100msCall`, the three seconds without sensing. -/
def countDisableTime (s : AlarmState) : AlarmState :=
  if s.motionSensorDisable then
    if time3sBy100ms ≤ (s.ubMotionSensorDisableTime + 1).toNat then
      { s with motionSensorDisable := false, ubMotionSensorDisableTime := 0 }
    else { s with ubMotionSensorDisableTime := s.ubMotionSensorDisableTime + 1 }
  else s

/-- `SysTimer100msCall`, the branches behind those of a learn session. -/
def sysTimer100msAlarms (date : DateTime) (table : IRTriggerTable) (s : AlarmState) :
    AlarmState × List EmitEvent :=
  let (s, onTime) := appAlarmOnTimeHandler date table s
  let (s, motion) := appAlarmMotionTriggerHandler date table s
  (countDisableTime s, onTime ++ motion)

/-! ## Alarms without a motion -/

/-- `TRIGGER_DONE_MASK`. -/
def triggerDoneMask : BitVec 8 := 0xAA

/-- A `TIMEOUT_TRIGGER` that is due and not done. -/
def IrDataTrigger.TimesOut (t : IrDataTrigger) (date : DateTime)
    (ulMotionTimeOffCount : BitVec 32) : Prop :=
  t.ubMode = timeoutTrigger ∧ t.OnDay date ∧ t.ulTimeout ≤ ulMotionTimeOffCount ∧
    t.ubTriggerDone ≠ triggerDoneMask

instance (t : IrDataTrigger) (date : DateTime) (ulMotionTimeOffCount : BitVec 32) :
    Decidable (t.TimesOut date ulMotionTimeOffCount) :=
  inferInstanceAs (Decidable (_ ∧ _))

/-- `App_AlarmMotionTimeOutTrigger`. No turn of the loop reads what another one has written. -/
def appAlarmMotionTimeOutTrigger (date : DateTime) (ulMotionTimeOffCount : BitVec 32)
    (table : IRTriggerTable) : IRTriggerTable × List EmitEvent :=
  (table.map fun t =>
      if t.TimesOut date ulMotionTimeOffCount then { t with ubTriggerDone := triggerDoneMask }
      else t,
    (List.finRange maxIrCode).filterMap fun i =>
      if (table.get i).TimesOut date ulMotionTimeOffCount then
        some ⟨i, (table.get i).uwIrCode⟩
      else none)

/-- `SysTimer1000msCall`, its first branch: the seconds without a motion. -/
def countMotionTimeOff (s : AlarmState) : AlarmState :=
  if s.motionSensorTimeoutCount then
    { s with ulMotionTimeOffCount := s.ulMotionTimeOffCount + 1 }
  else { s with ulMotionTimeOffCount := 0 }

/-- Its second branch: the triggers are armed when the flag has changed to on. -/
def armTimeoutTriggers (s : AlarmState) (table : IRTriggerTable) : IRTriggerTable :=
  if s.motionSensorPreTimeoutCount ≠ s.motionSensorTimeoutCount then
    if s.motionSensorTimeoutCount then
      table.map fun t => if t.ubMode = timeoutTrigger then { t with ubTriggerDone := 0xFF } else t
    else table
  else table

/-- `SysTimer1000msCall`, behind the event for `Mid_RTCHandle`. -/
def sysTimer1000msAlarms (date : DateTime) (table : IRTriggerTable) (s : AlarmState) :
    AlarmState × IRTriggerTable × List EmitEvent :=
  let s := countMotionTimeOff s
  let (table, events) :=
    appAlarmMotionTimeOutTrigger date s.ulMotionTimeOffCount (armTimeoutTriggers s table)
  ({ s with motionSensorPreTimeoutCount := s.motionSensorTimeoutCount }, table, events)

/-! ## What a slot puts -/

/-- The codes that a slot has put. -/
def codesOf (i : Fin maxIrCode) (events : List EmitEvent) : List (BitVec 8) :=
  (events.filter fun e => e.slot = i).map EmitEvent.uwIrCode

section CodesOf

variable {i j : Fin maxIrCode} {events events' : List EmitEvent} {date : DateTime}
  {table : IRTriggerTable} {s : AlarmState}

@[simp] theorem codesOf_nil : codesOf i [] = [] := rfl

@[simp] theorem codesOf_append :
    codesOf i (events ++ events') = codesOf i events ++ codesOf i events' := by
  rw [codesOf, List.filter_append, List.map_append]
  rfl

@[simp] theorem codesOf_singleton (uwIrCode : BitVec 8) :
    codesOf i [⟨j, uwIrCode⟩] = if j = i then [uwIrCode] else [] := by
  rw [codesOf, List.filter_singleton]
  by_cases h : j = i
  · simp [h]
  · simp [h]

/-- A loop in which a slot puts its code, or nothing. -/
theorem codesOf_filterMap (code : Fin maxIrCode → BitVec 8) (C : Fin maxIrCode → Prop)
    [DecidablePred C] (i : Fin maxIrCode) :
    codesOf i ((List.finRange maxIrCode).filterMap fun j =>
      if C j then some ⟨j, code j⟩ else none) = if C i then [code i] else [] := by
  obtain ⟨before, after, hsplit, hbefore, hafter⟩ := SlotTable.finRange_eq_append i
  have hother : ∀ slots : List (Fin maxIrCode), i ∉ slots →
      codesOf i (slots.filterMap fun j => if C j then some ⟨j, code j⟩ else none) = [] := by
    intro slots hi
    rw [codesOf, List.map_eq_nil_iff, List.filter_eq_nil_iff]
    intro e he hslot
    obtain ⟨j, hj, hje⟩ := List.mem_filterMap.mp he
    split_ifs at hje with hC
    cases Option.some.inj hje
    exact hi (of_decide_eq_true hslot ▸ hj)
  rw [hsplit, List.filterMap_append, codesOf_append, hother before, List.nil_append,
    List.filterMap_cons]
  · split_ifs with hC
    · change codesOf i ([_] ++ _) = _
      rw [codesOf_append, hother after fun h => lt_irrefl i (hafter i h), codesOf_singleton,
        if_pos rfl, List.append_nil]
    · exact hother after fun h => lt_irrefl i (hafter i h)
  · exact fun h => lt_irrefl i ((hbefore i).mp h)

/-- A slot puts its code when it is due and the minute has changed. -/
theorem codesOf_appAlarmOnTimeHandler :
    codesOf i (appAlarmOnTimeHandler date table s).2 =
      if s.onTimePreMinutes ≠ date.minute ∧
          (table.get i).ubMode = oneTrigger ∧ (table.get i).OnTime date then
        [(table.get i).uwIrCode]
      else [] := by
  rw [appAlarmOnTimeHandler]
  by_cases hminute : s.onTimePreMinutes ≠ date.minute
  · rw [if_pos hminute]
    simp only [hminute, ne_eq, not_false_eq_true, true_and]
    exact codesOf_filterMap (fun j => (table.get j).uwIrCode)
      (fun j => (table.get j).ubMode = oneTrigger ∧ (table.get j).OnTime date) i
  · rw [if_neg hminute, if_neg fun h => hminute h.1]
    rfl

/-- Behind the handler the variable holds the minute of the clock. -/
theorem appAlarmOnTimeHandler_fst :
    (appAlarmOnTimeHandler date table s).1 = { s with onTimePreMinutes := date.minute } := by
  rw [appAlarmOnTimeHandler]
  split_ifs with hminute
  · rfl
  · rw [← not_not.mp hminute]

/-- Some slot of the list is a `WINDOW_TRIGGER` of the day. -/
def WindowAmong (slots : List (Fin maxIrCode)) (date : DateTime) (table : IRTriggerTable) : Prop :=
  ∃ j ∈ slots, (table.get j).IsWindowOn date

instance (slots : List (Fin maxIrCode)) (date : DateTime) (table : IRTriggerTable) :
    Decidable (WindowAmong slots date table) :=
  inferInstanceAs (Decidable (∃ j ∈ slots, _))

variable {grade : BitVec 8} {r : BitVec 8 × List EmitEvent}

theorem motionSlot_fst (t : IrDataTrigger) : (motionSlot t grade i r).1 = r.1 := by
  rw [motionSlot]
  split_ifs <;> rfl

theorem windowSlot_fst (t : IrDataTrigger) :
    (windowSlot date t grade i r).1 = if t.IsWindowOn date then date.minute else r.1 := by
  rw [windowSlot]
  split_ifs with hwindow hminute hfire
  · rfl
  · rfl
  · exact not_not.mp hminute
  · rfl

theorem motionTriggerSlot_fst :
    (motionTriggerSlot date table grade r i).1 =
      if (table.get i).IsWindowOn date then date.minute else r.1 := by
  rw [motionTriggerSlot, windowSlot_fst, motionSlot_fst]

/-- The loop over some slots leaves the minute in the variable when it visits a window of the
day. -/
theorem foldl_motionTriggerSlot_fst (slots : List (Fin maxIrCode)) :
    (slots.foldl (motionTriggerSlot date table grade) r).1 =
      if WindowAmong slots date table then date.minute else r.1 := by
  induction slots generalizing r with
  | nil => rfl
  | cons j slots ih =>
    rw [List.foldl_cons, ih, motionTriggerSlot_fst]
    simp only [WindowAmong, List.exists_mem_cons_iff]
    by_cases hj : (table.get j).IsWindowOn date
    · simp only [hj, if_true, true_or, ite_self]
    · simp only [hj, if_false, false_or]

/-- What the turn of a slot puts, from the value that it finds in the variable. -/
def IrDataTrigger.MotionDue (t : IrDataTrigger) (date : DateTime) (grade preMinutes : BitVec 8) :
    Prop :=
  t.ubMotionSen = grade ∧
    (t.ubMode = motionTrigger ∨
      t.IsWindowOn date ∧ preMinutes ≠ date.minute ∧ t.InWindow date)

instance (t : IrDataTrigger) (date : DateTime) (grade preMinutes : BitVec 8) :
    Decidable (t.MotionDue date grade preMinutes) :=
  inferInstanceAs (Decidable (_ ∧ _))

theorem codesOf_motionSlot (t : IrDataTrigger) :
    codesOf i (motionSlot t grade j r).2 =
      codesOf i r.2 ++
        if j = i ∧ t.ubMotionSen = grade ∧ t.ubMode = motionTrigger then [t.uwIrCode] else [] := by
  rw [motionSlot]
  by_cases hmode : t.ubMode = motionTrigger
  · by_cases hgrade : t.ubMotionSen = grade
    · rw [if_pos hmode, if_pos hgrade, codesOf_append, codesOf_singleton]
      simp only [hmode, hgrade, and_true]
    · rw [if_pos hmode, if_neg hgrade, if_neg fun h => hgrade h.2.1, List.append_nil]
  · rw [if_neg hmode, if_neg fun h => hmode h.2.2, List.append_nil]

theorem codesOf_windowSlot (t : IrDataTrigger) :
    codesOf i (windowSlot date t grade j r).2 =
      codesOf i r.2 ++
        if j = i ∧ t.ubMotionSen = grade ∧
            t.IsWindowOn date ∧ r.1 ≠ date.minute ∧ t.InWindow date then [t.uwIrCode]
        else [] := by
  rw [windowSlot]
  by_cases hwindow : t.IsWindowOn date
  · by_cases hminute : r.1 ≠ date.minute
    · by_cases hfire : t.InWindow date ∧ t.ubMotionSen = grade
      · rw [if_pos hwindow, if_pos hminute, if_pos hfire, codesOf_append, codesOf_singleton]
        simp only [hwindow, hminute, hfire, ne_eq, not_false_eq_true, and_true]
      · rw [if_pos hwindow, if_pos hminute, if_neg hfire,
          if_neg fun h => hfire ⟨h.2.2.2.2, h.2.1⟩, List.append_nil]
    · rw [if_pos hwindow, if_neg hminute, if_neg fun h => hminute h.2.2.2.1, List.append_nil]
  · rw [if_neg hwindow, if_neg fun h => hwindow h.2.2.1, List.append_nil]

/-- One turn of the loop puts the code of its slot, or nothing. -/
theorem codesOf_motionTriggerSlot :
    codesOf i (motionTriggerSlot date table grade r j).2 =
      codesOf i r.2 ++
        if j = i ∧ (table.get j).MotionDue date grade r.1 then [(table.get j).uwIrCode]
        else [] := by
  rw [motionTriggerSlot, codesOf_windowSlot, codesOf_motionSlot, motionSlot_fst,
    List.append_assoc, List.append_cancel_left_eq]
  by_cases hmode : (table.get j).ubMode = motionTrigger
  · -- a motion trigger is no window
    have hwindow : ¬(table.get j).IsWindowOn date := fun h => by
      rw [IrDataTrigger.IsWindowOn, hmode] at h
      exact absurd h.1 (by decide)
    simp only [IrDataTrigger.MotionDue, hmode, hwindow, false_and, and_false, if_false,
      List.append_nil, or_false, and_true]
  · simp only [IrDataTrigger.MotionDue, hmode, and_false, if_false, List.nil_append, false_or]

/-- The turns of the other slots put nothing for a slot. -/
theorem codesOf_foldl_motionTriggerSlot (slots : List (Fin maxIrCode)) (hi : i ∉ slots) :
    codesOf i (slots.foldl (motionTriggerSlot date table grade) r).2 = codesOf i r.2 := by
  induction slots generalizing r with
  | nil => rfl
  | cons j slots ih =>
    obtain ⟨hj, hslots⟩ := not_or.mp (mt List.mem_cons.mpr hi)
    rw [List.foldl_cons, ih hslots, codesOf_motionTriggerSlot, if_neg fun h => hj h.1.symm,
      List.append_nil]

/-- A `WINDOW_TRIGGER` of the day stands before the slot. -/
def WindowBefore (i : Fin maxIrCode) (date : DateTime) (table : IRTriggerTable) : Prop :=
  ∃ j < i, (table.get j).IsWindowOn date

instance (i : Fin maxIrCode) (date : DateTime) (table : IRTriggerTable) :
    Decidable (WindowBefore i date table) :=
  inferInstanceAs (Decidable (∃ j < i, _))

/-- What a slot puts at the end of the sensing: the value that it finds in the variable is the
minute of the clock when a window of the day stands before it. -/
theorem codesOf_motionTriggerSlots :
    codesOf i (motionTriggerSlots date table s).2 =
      if (table.get i).MotionDue date s.ubMotionSensorGrade
          (if WindowBefore i date table then date.minute else s.motionPreMinutes) then
        [(table.get i).uwIrCode]
      else [] := by
  obtain ⟨before, after, hsplit, hbefore, hafter⟩ := SlotTable.finRange_eq_append i
  have hamong : WindowAmong before date table ↔ WindowBefore i date table :=
    exists_congr fun j => and_congr_left' (hbefore j)
  rw [motionTriggerSlots, hsplit, List.foldl_append, List.foldl_cons,
    codesOf_foldl_motionTriggerSlot after fun h => lt_irrefl i (hafter i h),
    codesOf_motionTriggerSlot,
    codesOf_foldl_motionTriggerSlot before fun h => lt_irrefl i ((hbefore i).mp h),
    foldl_motionTriggerSlot_fst, codesOf_nil, List.nil_append]
  simp only [true_and, hamong]

/-- A `WINDOW_TRIGGER` of the day stands in the table. -/
def HasWindow (date : DateTime) (table : IRTriggerTable) : Prop :=
  ∃ j, (table.get j).IsWindowOn date

instance (date : DateTime) (table : IRTriggerTable) : Decidable (HasWindow date table) :=
  inferInstanceAs (Decidable (∃ j, (table.get j).IsWindowOn date))

theorem motionTriggerSlots_fst :
    (motionTriggerSlots date table s).1 =
      if HasWindow date table then date.minute else s.motionPreMinutes := by
  have hamong : WindowAmong (List.finRange maxIrCode) date table ↔ HasWindow date table :=
    exists_congr fun j => and_iff_right (List.mem_finRange j)
  rw [motionTriggerSlots, foldl_motionTriggerSlot_fst]
  simp only [hamong]

/-- The call that ends the sensing. -/
theorem appAlarmMotionTriggerHandler_of_endsSensing (h : s.EndsSensing) :
    appAlarmMotionTriggerHandler date table s =
      ({ s with
          motionSensorDisable := true
          motionSensorSensingDone := true
          motionSensorStartSensing := false
          ubMotionSensorCountTime := 0
          motionPreMinutes := if HasWindow date table then date.minute else s.motionPreMinutes
          ubMotionSensorGrade := 0 },
        (motionTriggerSlots date table s).2) := by
  rw [appAlarmMotionTriggerHandler, if_pos h.1, if_pos h.2, ← motionTriggerSlots_fst]

/-- Any other call counts, and puts nothing. -/
theorem appAlarmMotionTriggerHandler_of_not_endsSensing (h : ¬s.EndsSensing) :
    appAlarmMotionTriggerHandler date table s =
      ({ s with
          ubMotionSensorCountTime :=
            if s.motionSensorStartSensing then s.ubMotionSensorCountTime + 1
            else s.ubMotionSensorCountTime }, []) := by
  rw [appAlarmMotionTriggerHandler]
  by_cases hstart : s.motionSensorStartSensing = true
  · rw [if_pos hstart, if_neg fun htime => h ⟨hstart, htime⟩, if_pos hstart]
  · rw [if_neg hstart, if_neg hstart]

/-- The timer calls the handlers one behind the other. -/
theorem sysTimer100msAlarms_eq :
    sysTimer100msAlarms date table s =
      (countDisableTime
          (appAlarmMotionTriggerHandler date table { s with onTimePreMinutes := date.minute }).1,
        (appAlarmOnTimeHandler date table s).2 ++
          (appAlarmMotionTriggerHandler date table
            { s with onTimePreMinutes := date.minute }).2) := by
  rw [← appAlarmOnTimeHandler_fst]
  rfl

/-- The flags and the count of the 1000 ms timer are the same. -/
def AlarmState.SameTimeout (s t : AlarmState) : Prop :=
  s.motionSensorTimeoutCount = t.motionSensorTimeoutCount ∧
    s.motionSensorPreTimeoutCount = t.motionSensorPreTimeoutCount ∧
    s.ulMotionTimeOffCount = t.ulMotionTimeOffCount

theorem sameTimeout_countDisableTime (s : AlarmState) : (countDisableTime s).SameTimeout s := by
  rw [countDisableTime]
  split_ifs <;> exact ⟨rfl, rfl, rfl⟩

theorem sameTimeout_appAlarmMotionTriggerHandler (date : DateTime) (table : IRTriggerTable)
    (s : AlarmState) : (appAlarmMotionTriggerHandler date table s).1.SameTimeout s := by
  rw [appAlarmMotionTriggerHandler]
  split_ifs <;> exact ⟨rfl, rfl, rfl⟩

/-- The 100 ms timer does not write them. -/
theorem sameTimeout_sysTimer100msAlarms (date : DateTime) (table : IRTriggerTable)
    (s : AlarmState) : (sysTimer100msAlarms date table s).1.SameTimeout s := by
  rw [sysTimer100msAlarms_eq]
  obtain ⟨hflag, hpre, hcount⟩ := sameTimeout_countDisableTime
    (appAlarmMotionTriggerHandler date table { s with onTimePreMinutes := date.minute }).1
  obtain ⟨hflag', hpre', hcount'⟩ := sameTimeout_appAlarmMotionTriggerHandler date table
    { s with onTimePreMinutes := date.minute }
  exact ⟨hflag.trans hflag', hpre.trans hpre', hcount.trans hcount'⟩

/-- The sensor does not sense while it is disabled. -/
def AlarmState.SensesOrDisabled (s : AlarmState) : Prop :=
  s.motionSensorStartSensing = true → s.motionSensorDisable = false

theorem sensesOrDisabled_midMotionSensorHandler (h : s.SensesOrDisabled) (sample : BitVec 16) :
    (midMotionSensorHandler sample s).SensesOrDisabled := by
  rw [midMotionSensorHandler]
  split_ifs with hmotion hstart
  · exact fun _ => hmotion.2
  · exact h
  · exact h

theorem sensesOrDisabled_sysTimer100msAlarms (h : s.SensesOrDisabled) :
    (sysTimer100msAlarms date table s).1.SensesOrDisabled := by
  have hcount (t : AlarmState) (ht : t.SensesOrDisabled) :
      (countDisableTime t).SensesOrDisabled := by
    rw [countDisableTime]
    split_ifs
    · exact fun _ => rfl
    · exact ht
    · exact ht
  rw [sysTimer100msAlarms_eq]
  refine hcount _ ?_
  rw [appAlarmMotionTriggerHandler]
  split_ifs
  · exact nofun
  · exact h
  · exact h

/-- A slot before the look for the triggers that are due. -/
theorem get_armTimeoutTriggers (i : Fin maxIrCode) :
    (armTimeoutTriggers s table).get i =
      if s.motionSensorPreTimeoutCount = false ∧ s.motionSensorTimeoutCount = true ∧
          (table.get i).ubMode = timeoutTrigger then
        { table.get i with ubTriggerDone := 0xFF }
      else table.get i := by
  rw [armTimeoutTriggers]
  cases hflag : s.motionSensorTimeoutCount with
  | false => simp
  | true =>
    cases hpre : s.motionSensorPreTimeoutCount with
    | false =>
      rw [if_pos Bool.false_ne_true, if_pos rfl, SlotTable.get_map]
      simp only [true_and]
    | true => simp

theorem ulTimeout_armTimeoutTriggers (i : Fin maxIrCode) :
    ((armTimeoutTriggers s table).get i).ulTimeout = (table.get i).ulTimeout := by
  rw [get_armTimeoutTriggers]
  split_ifs <;> rfl

/-- The 1000 ms timer copies the flag. -/
theorem sysTimer1000msAlarms_fst (date : DateTime) (table : IRTriggerTable) (s : AlarmState) :
    (sysTimer1000msAlarms date table s).1 =
      { s with
        ulMotionTimeOffCount :=
          if s.motionSensorTimeoutCount then s.ulMotionTimeOffCount + 1 else 0
        motionSensorPreTimeoutCount := s.motionSensorTimeoutCount } := by
  rw [sysTimer1000msAlarms, countMotionTimeOff]
  split_ifs <;> rfl

/-- The 1000 ms timer counts, arms the triggers and looks for those that are due. -/
theorem sysTimer1000msAlarms_snd (date : DateTime) (table : IRTriggerTable) (s : AlarmState) :
    (sysTimer1000msAlarms date table s).2 =
      appAlarmMotionTimeOutTrigger date
        (if s.motionSensorTimeoutCount then s.ulMotionTimeOffCount + 1 else 0)
        (armTimeoutTriggers s table) := by
  have harm : armTimeoutTriggers (countMotionTimeOff s) table = armTimeoutTriggers s table := by
    rw [countMotionTimeOff]
    split_ifs <;> rfl
  have hcount : (countMotionTimeOff s).ulMotionTimeOffCount =
      if s.motionSensorTimeoutCount then s.ulMotionTimeOffCount + 1 else 0 := by
    rw [countMotionTimeOff]
    split_ifs <;> rfl
  rw [← harm, ← hcount]
  rfl

/-- A slot puts its code when it is due and not done. -/
theorem codesOf_appAlarmMotionTimeOutTrigger {ulMotionTimeOffCount : BitVec 32} :
    codesOf i (appAlarmMotionTimeOutTrigger date ulMotionTimeOffCount table).2 =
      if (table.get i).TimesOut date ulMotionTimeOffCount then [(table.get i).uwIrCode] else [] :=
  codesOf_filterMap (fun j => (table.get j).uwIrCode)
    (fun j => (table.get j).TimesOut date ulMotionTimeOffCount) i

/-- Every event is of a slot that is due. -/
theorem timesOut_of_mem_events {ulMotionTimeOffCount : BitVec 32} {e : EmitEvent}
    (he : e ∈ (appAlarmMotionTimeOutTrigger date ulMotionTimeOffCount table).2) :
    (table.get e.slot).TimesOut date ulMotionTimeOffCount := by
  obtain ⟨j, -, hj⟩ := List.mem_filterMap.mp he
  split_ifs at hj with hdue
  cases Option.some.inj hj
  exact hdue

end CodesOf

end IrRemote
