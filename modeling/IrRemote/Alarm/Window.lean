import IrRemote.Alarm.OnTime

/-!
# Window triggers

`App_AlarmMotionTriggerHandler` puts the code of a `WINDOW_TRIGGER` at most once in a minute. The
minute is kept in one variable for all slots, and the loop over the slots sets it at the first
window of the day that it visits. So a slot depends on the others: two tables that agree on the
slot may differ in what it puts, that is, in the calls of `app_sched_event_put`. Whether the queue
has a place for the event is not part of the comparison.

## Main definitions

* `WindowLabel`, `windowStep` — two runs with the same samples and the same clock, and tables that
  agree on a slot
* `noteCalls`, `SameCalls` — what the slot puts at the calls of both runs
* `SameWindows` — the other slots set the variable in both runs, or in none

## Main results

* `window_trigger_isolated` — then the slot puts its code at the same calls
* `window_trigger_depends_on_other_slot` — a window before the slot
-/

set_option autoImplicit false

namespace IrRemote

/-! ## Two runs -/

/-- A sample of the sensor, and a call of the timer with two tables that agree on the slot `i`. -/
inductive WindowLabel (i : Fin maxIrCode) where
  | motionSample (sample : BitVec 16)
  | sysTimer100ms (date : DateTime)
    (tables : { tables : IRTriggerTable × IRTriggerTable //
      tables.1.get i = tables.2.get i })

variable {i : Fin maxIrCode}

/-- One step of both runs. -/
def windowStep (a : WindowLabel i) (s : AlarmState × AlarmState) :
    Option (AlarmState × AlarmState) :=
  match a with
  | .motionSample sample =>
    some (midMotionSensorHandler sample s.1, midMotionSensorHandler sample s.2)
  | .sysTimer100ms date tables =>
    some ((sysTimer100msAlarms date tables.1.1 s.1).1, (sysTimer100msAlarms date tables.1.2 s.2).1)

/-- The codes that a slot has put in both runs, call by call. -/
abbrev CallRecord := List (List (BitVec 8) × List (BitVec 8))

/-- The calls at which the slot is a `WINDOW_TRIGGER` are recorded. -/
def noteCalls (a : WindowLabel i) (s _ : AlarmState × AlarmState) (calls : CallRecord) :
    CallRecord :=
  match a with
  | .motionSample _ => calls
  | .sysTimer100ms date tables =>
    if (tables.1.1.get i).ubMode = windowTrigger then
      calls ++ [(codesOf i (sysTimer100msAlarms date tables.1.1 s.1).2,
        codesOf i (sysTimer100msAlarms date tables.1.2 s.2).2)]
    else calls

/-- The slot has put the same codes in both runs. -/
def SameCalls (r : (AlarmState × AlarmState) × CallRecord) : Prop :=
  ∀ codes ∈ r.2, codes.1 = codes.2

/-- When the sensing ends in a minute that is not in the variable, both tables have a window of the
day, or none, and so have the slots before the slot `i`. -/
def SameWindows (a : WindowLabel i) (r : (AlarmState × AlarmState) × CallRecord) : Prop :=
  match a with
  | .motionSample _ => True
  | .sysTimer100ms date tables =>
    r.1.1.EndsSensing → r.1.1.motionPreMinutes ≠ date.minute →
      (WindowBefore i date tables.1.1 ↔ WindowBefore i date tables.1.2) ∧
        (HasWindow date tables.1.1 ↔ HasWindow date tables.1.2)

instance (a : WindowLabel i) (r : (AlarmState × AlarmState) × CallRecord) :
    Decidable (SameWindows a r) :=
  match a with
  | .motionSample _ => isTrue trivial
  | .sysTimer100ms _ _ => inferInstanceAs (Decidable (_ → _ → _ ∧ _))

/-! ## Isolation -/

section Isolation

variable {date : DateTime} {table table' : IRTriggerTable} {s : AlarmState}

/-- The minute, if the condition sets it. -/
theorem ite_preMinutes_congr {p q : Prop} [Decidable p] [Decidable q] {preMinutes minute : BitVec 8}
    (h : preMinutes ≠ minute → (p ↔ q)) :
    (if p then minute else preMinutes) = if q then minute else preMinutes := by
  by_cases hminute : preMinutes = minute
  · rw [hminute, ite_self, ite_self]
  · simp only [h hminute]

/-- What the end of the sensing puts for the slot. -/
theorem codesOf_motionTriggerSlots_congr (hslot : table.get i = table'.get i)
    (hbefore : s.motionPreMinutes ≠ date.minute →
      (WindowBefore i date table ↔ WindowBefore i date table')) :
    codesOf i (motionTriggerSlots date table s).2 =
      codesOf i (motionTriggerSlots date table' s).2 := by
  rw [codesOf_motionTriggerSlots, codesOf_motionTriggerSlots, hslot,
    ite_preMinutes_congr hbefore]

/-- One call with both tables. -/
theorem appAlarmMotionTriggerHandler_congr (hslot : table.get i = table'.get i)
    (hsame : s.EndsSensing → s.motionPreMinutes ≠ date.minute →
      (WindowBefore i date table ↔ WindowBefore i date table') ∧
        (HasWindow date table ↔ HasWindow date table')) :
    (appAlarmMotionTriggerHandler date table s).1 =
        (appAlarmMotionTriggerHandler date table' s).1 ∧
      codesOf i (appAlarmMotionTriggerHandler date table s).2 =
        codesOf i (appAlarmMotionTriggerHandler date table' s).2 := by
  by_cases hends : s.EndsSensing
  · rw [appAlarmMotionTriggerHandler_of_endsSensing hends,
      appAlarmMotionTriggerHandler_of_endsSensing hends]
    refine ⟨?_, codesOf_motionTriggerSlots_congr hslot fun h => (hsame hends h).1⟩
    rw [ite_preMinutes_congr fun h => (hsame hends h).2]
  · rw [appAlarmMotionTriggerHandler_of_not_endsSensing hends,
      appAlarmMotionTriggerHandler_of_not_endsSensing hends]
    exact ⟨rfl, rfl⟩

theorem sysTimer100msAlarms_congr (hslot : table.get i = table'.get i)
    (hsame : s.EndsSensing → s.motionPreMinutes ≠ date.minute →
      (WindowBefore i date table ↔ WindowBefore i date table') ∧
        (HasWindow date table ↔ HasWindow date table')) :
    (sysTimer100msAlarms date table s).1 = (sysTimer100msAlarms date table' s).1 ∧
      codesOf i (sysTimer100msAlarms date table s).2 =
        codesOf i (sysTimer100msAlarms date table' s).2 := by
  rw [sysTimer100msAlarms_eq, sysTimer100msAlarms_eq]
  obtain ⟨hstate, hcodes⟩ := appAlarmMotionTriggerHandler_congr
    (s := { s with onTimePreMinutes := date.minute }) hslot hsame
  refine ⟨congrArg countDisableTime hstate, ?_⟩
  rw [codesOf_append, codesOf_append, hcodes, codesOf_appAlarmOnTimeHandler,
    codesOf_appAlarmOnTimeHandler, hslot]

end Isolation

/-- Both runs are in the same state. -/
structure IsolationInv (r : (AlarmState × AlarmState) × CallRecord) : Prop where
  calls : SameCalls r
  state : r.1.1 = r.1.2

theorem IsolationInv.step {a : WindowLabel i} {r r' : (AlarmState × AlarmState) × CallRecord}
    (hr : IsolationInv r) (hsame : SameWindows a r)
    (hrun : FaultMachine.recorded windowStep noteCalls a r = some r') : IsolationInv r' := by
  obtain ⟨⟨s, s'⟩, calls⟩ := r
  obtain rfl : s = s' := hr.state
  cases a with
  | motionSample sample =>
    obtain rfl := Option.some.inj hrun
    exact ⟨hr.calls, rfl⟩
  | sysTimer100ms date tables =>
    obtain rfl := Option.some.inj hrun
    obtain ⟨hstate, hcodes⟩ := sysTimer100msAlarms_congr tables.property hsame
    refine ⟨?_, hstate⟩
    intro codes hmem
    change codes ∈ if _ then _ else _ at hmem
    split_ifs at hmem with hmode
    · obtain hmem | hmem := List.mem_append.mp hmem
      · exact hr.calls codes hmem
      · rw [List.mem_singleton.mp hmem]
        exact hcodes
    · exact hr.calls codes hmem

/-- Two runs from the same state in which the other slots do not decide about the variable: the
slot puts its code at the same calls. -/
theorem window_trigger_isolated (s : AlarmState) (labels : List (WindowLabel i))
    (h : FaultMachine.Along (FaultMachine.recorded windowStep noteCalls) SameWindows labels
      ((s, s), [])) :
    FaultMachine.Throughout (FaultMachine.recorded windowStep noteCalls) SameCalls labels
      ((s, s), []) :=
  h.throughout IsolationInv (fun _ _ _ hr hsame hrun => hr.step hsame hrun) (fun _ hr => hr.calls)
    ⟨nofun, rfl⟩

/-- A window from ten to eleven on every day, for the lowest level of motion. -/
def lateMorning (uwIrCode : BitVec 8) : IrDataTrigger where
  ubMode := windowTrigger
  uwTrigID := uwIrCode
  uwIrCode := uwIrCode
  ubDays := 0x7F
  tTime1 := ⟨10, 0⟩
  tTime2 := ⟨11, 0⟩
  ulTimeout := 0
  ubMotionSen := 1
  ubTriggerDone := 0

/-- The second slot. -/
def secondSlot : Fin maxIrCode := ⟨1, by decide⟩

/-- The third slot. -/
def thirdSlot : Fin maxIrCode := ⟨2, by decide⟩

/-- A table with the window in the second slot only. -/
def oneWindow : IRTriggerTable :=
  (Vector.replicate maxIrCode { lateMorning 0 with ubMode := modeNone }).set secondSlot
    (lateMorning 7) secondSlot.isLt

/-- The same table with one more window. -/
def twoWindows (j : Fin maxIrCode) : IRTriggerTable := oneWindow.set j (lateMorning 8) j.isLt

/-- Half past ten on a Monday. -/
def halfPastTen : DateTime where
  second := 0
  minute := 30
  hour := 10
  day := 5
  month := 1
  year := 1970
  milliseconds := 0
  dayOfWeek := 1

/-- Four motions, and the two seconds of sensing. -/
def senseMotion {i : Fin maxIrCode}
    (tables : { tables : IRTriggerTable × IRTriggerTable // tables.1.get i = tables.2.get i }) :
    List (WindowLabel i) :=
  List.replicate 4 (.motionSample 0) ++
    List.replicate time2sBy100ms (.sysTimer100ms halfPastTen tables)

/-- A window behind the slot. -/
theorem window_trigger_isolated_behind :
    FaultMachine.Throughout (FaultMachine.recorded windowStep noteCalls) SameCalls
      (senseMotion (i := secondSlot) ⟨(oneWindow, twoWindows thirdSlot), rfl⟩)
      ((.zero, .zero), []) :=
  window_trigger_isolated .zero _ (by decide +kernel)

/-- A window before the slot sets the minute, and the slot puts nothing. -/
theorem window_trigger_depends_on_other_slot :
    ¬∀ (i : Fin maxIrCode) (labels : List (WindowLabel i)),
      FaultMachine.Throughout (FaultMachine.recorded windowStep noteCalls) SameCalls labels
        ((.zero, .zero), []) := by
  intro h
  have hlast := (h secondSlot
    (senseMotion ⟨(oneWindow, twoWindows firstSlot), rfl⟩)).last rfl
  have hcodes := hlast ([7], []) (by decide +kernel)
  revert hcodes
  decide

end IrRemote
