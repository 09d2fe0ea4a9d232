import IrRemote.App.Alarm
import IrRemote.Library.FaultMachine

/-!
# Alarms at a time

`App_AlarmOnTimeHandler` puts a code at most once in a minute: it remembers the number of the
minute in which it was called last. A run of the clock passes the time of a slot in periods, and
in each of them the code of the slot is due once. The handler misses the period when it was called
last at the same minute of another hour, or of another day. That a code is put means that
`app_sched_event_put` is called for it. The queue of the scheduler may refuse the event, and the
handler does not look at the answer.

## Main definitions

* `OnTimeLabel`, `onTimeStep` — the clock, and the calls of the handler
* `FireRecord`, `noteFires` — what one slot has put, by periods
* `FiresOncePerPeriod` — the code is put once in each period, and not outside of them
* `MinuteIsNew` — the handler was called last at another minute

## Main results

* `on_time_alarm_fires_once_iff` — the runs with the property
* `on_time_alarm_missed` — the handler is called at nine and at ten
-/

set_option autoImplicit false

namespace IrRemote

/-! ## The clock and the handler -/

/-- The clock, and the variables of the alarms. -/
structure AlarmClock where
  rtc : RtcState
  alarm : AlarmState
  deriving DecidableEq

/-- The start. -/
def AlarmClock.zero : AlarmClock := ⟨.zero, .zero⟩

/-- A tick of the clock, a new value for it, and a call of the handler with a table in which the
slot `i` is `t`. -/
inductive OnTimeLabel (i : Fin maxIrCode) (t : IrDataTrigger) where
  | rtcHandle
  | rtcSetUnit (ullUnixValue : BitVec 64)
  | onTimeHandler (table : { table : IRTriggerTable // table.get i = t })

variable {i : Fin maxIrCode} {t : IrDataTrigger}

/-- The two labels that set the clock. -/
def OnTimeLabel.IsClockUpdate : OnTimeLabel i t → Prop
  | .rtcHandle => True
  | .rtcSetUnit _ => True
  | .onTimeHandler _ => False

/-- The clock behind a label. -/
def OnTimeLabel.clock (a : OnTimeLabel i t) (rtc : RtcState) : RtcState :=
  match a with
  | .rtcHandle => midRTCHandle rtc
  | .rtcSetUnit ullUnixValue => midRTCSetUnit ullUnixValue
  | .onTimeHandler _ => rtc

/-- The variables of the alarms, and the codes that the slot puts. -/
def OnTimeLabel.alarm (a : OnTimeLabel i t) (s : AlarmClock) : AlarmState × List (BitVec 8) :=
  match a with
  | .onTimeHandler table =>
    let (alarm, events) := appAlarmOnTimeHandler s.rtc.tCommonTime table s.alarm
    (alarm, codesOf i events)
  | _ => (s.alarm, [])

/-- One step. -/
def onTimeStep (a : OnTimeLabel i t) (s : AlarmClock) : Option AlarmClock :=
  some ⟨a.clock s.rtc, (a.alarm s).1⟩

/-! ## The periods of a slot -/

/-- The clock matches the slot. -/
def AlarmClock.Matches (s : AlarmClock) (t : IrDataTrigger) : Prop := t.OnTime s.rtc.tCommonTime

instance (s : AlarmClock) (t : IrDataTrigger) : Decidable (s.Matches t) :=
  inferInstanceAs (Decidable (t.OnTime _))

/-- What one slot has put: in the period that has not ended, in those that have, and outside of
them. -/
structure FireRecord where
  /-- The handler was called in the period that has not ended. -/
  handled : Bool
  current : List (BitVec 8)
  ended : List (List (BitVec 8))
  outside : List (BitVec 8)
  deriving DecidableEq

/-- Nothing was put. -/
def FireRecord.zero : FireRecord := ⟨false, [], [], []⟩

/-- A call of the handler belongs to the period in which it is made. An update of the clock ends
the period when it leaves the time of the slot. -/
def noteFires (a : OnTimeLabel i t) (s s' : AlarmClock) (h : FireRecord) : FireRecord :=
  match a with
  | .onTimeHandler _ =>
    if s.Matches t then { h with handled := true, current := h.current ++ (a.alarm s).2 }
    else { h with outside := h.outside ++ (a.alarm s).2 }
  | _ =>
    if s.Matches t ∧ ¬s'.Matches t then
      { h with handled := false, current := [], ended := h.ended ++ [h.current] }
    else h

/-- `app_sched_event_put` is called once for the code in each period, and not outside of them. A
period that has not ended may still wait for the handler. -/
def FiresOncePerPeriod (t : IrDataTrigger) (r : AlarmClock × FireRecord) : Prop :=
  r.2.outside = [] ∧ (∀ codes ∈ r.2.ended, codes = [t.uwIrCode]) ∧
    r.2.current = if r.2.handled then [t.uwIrCode] else []

/-- The first call of the handler in a period finds the minute of another call, and no period ends
without a call. -/
def MinuteIsNew (a : OnTimeLabel i t) (r : AlarmClock × FireRecord) : Prop :=
  r.1.Matches t → r.2.handled = false →
    match a with
    | .onTimeHandler _ => r.1.alarm.onTimePreMinutes ≠ r.1.rtc.tCommonTime.minute
    | _ => t.OnTime (a.clock r.1.rtc).tCommonTime

/-! ## The runs in which the code is put once -/

/-- Behind the first call of a period the handler remembers the minute. -/
structure FireInv (t : IrDataTrigger) (r : AlarmClock × FireRecord) : Prop where
  fires : FiresOncePerPeriod t r
  handled : r.2.handled = true →
    r.1.Matches t ∧ r.1.alarm.onTimePreMinutes = r.1.rtc.tCommonTime.minute

section Steps

variable {r r' : AlarmClock × FireRecord} {a : OnTimeLabel i t}

/-- The codes of a call of the handler. -/
theorem alarm_onTimeHandler_snd (hmode : t.ubMode = oneTrigger) (s : AlarmClock)
    (table : { table : IRTriggerTable // table.get i = t }) :
    ((OnTimeLabel.onTimeHandler table).alarm s).2 =
      if s.alarm.onTimePreMinutes ≠ s.rtc.tCommonTime.minute ∧ s.Matches t then [t.uwIrCode]
      else [] := by
  change codesOf i (appAlarmOnTimeHandler s.rtc.tCommonTime table s.alarm).2 = _
  rw [codesOf_appAlarmOnTimeHandler, table.property]
  simp only [hmode, true_and]
  rfl

theorem alarm_onTimeHandler_fst (s : AlarmClock)
    (table : { table : IRTriggerTable // table.get i = t }) :
    ((OnTimeLabel.onTimeHandler table).alarm s).1.onTimePreMinutes = s.rtc.tCommonTime.minute := by
  change (appAlarmOnTimeHandler s.rtc.tCommonTime table s.alarm).1.onTimePreMinutes = _
  rw [appAlarmOnTimeHandler_fst]

/-- Behind an update of the clock. -/
theorem FireInv.clockUpdate {s : AlarmClock} {h : FireRecord} (hr : FireInv t (s, h))
    (rtc : RtcState) (hnew : s.Matches t → h.handled = false → t.OnTime rtc.tCommonTime) :
    FireInv t (⟨rtc, s.alarm⟩,
      if s.Matches t ∧ ¬t.OnTime rtc.tCommonTime then
        { h with handled := false, current := [], ended := h.ended ++ [h.current] }
      else h) := by
  obtain ⟨houtside, hended, hcurrent⟩ := hr.fires
  split_ifs with hleave
  · have hhandled : h.handled = true := by
      by_contra hunhandled
      exact hleave.2 (hnew hleave.1 (Bool.not_eq_true _ ▸ hunhandled))
    refine ⟨⟨houtside, fun codes hcodes => ?_, rfl⟩, nofun⟩
    obtain hcodes | hcodes := List.mem_append.mp hcodes
    · exact hended codes hcodes
    · rw [List.mem_singleton.mp hcodes]
      exact hcurrent.trans (if_pos hhandled)
  · refine ⟨⟨houtside, hended, hcurrent⟩, fun hhandled => ?_⟩
    obtain ⟨hmatches, hminute⟩ := hr.handled hhandled
    have hstays : t.OnTime rtc.tCommonTime := by
      by_contra hnot
      exact hleave ⟨hmatches, hnot⟩
    -- both times are the time of the slot
    exact ⟨hstays, hminute.trans (hmatches.2.2.symm.trans hstays.2.2)⟩

/-- Behind a call of the handler. -/
theorem FireInv.onTimeHandler {s : AlarmClock} {h : FireRecord} (hr : FireInv t (s, h))
    (hmode : t.ubMode = oneTrigger) (table : { table : IRTriggerTable // table.get i = t })
    (hnew : MinuteIsNew (.onTimeHandler table) (s, h)) :
    FireInv t (⟨s.rtc, ((OnTimeLabel.onTimeHandler table).alarm s).1⟩,
      noteFires (.onTimeHandler table) s s h) := by
  obtain ⟨houtside, hended, hcurrent⟩ := hr.fires
  rw [noteFires, alarm_onTimeHandler_snd hmode]
  by_cases hmatches : s.Matches t
  · rw [if_pos hmatches]
    refine ⟨⟨houtside, hended, ?_⟩, fun _ => ⟨hmatches, alarm_onTimeHandler_fst s table⟩⟩
    change h.current ++ _ = [t.uwIrCode]
    cases hhandled : h.handled with
    | false =>
      rw [if_pos ⟨hnew hmatches hhandled, hmatches⟩, hcurrent]
      simp only [hhandled, Bool.false_eq_true, if_false, List.nil_append]
    | true =>
      rw [if_neg fun h => h.1 (hr.handled hhandled).2, hcurrent]
      simp only [hhandled, if_true, List.append_nil]
  · rw [if_neg hmatches, if_neg fun h => hmatches h.2, List.append_nil]
    exact ⟨⟨houtside, hended, hcurrent⟩, fun hhandled => absurd (hr.handled hhandled).1 hmatches⟩

theorem FireInv.step (hmode : t.ubMode = oneTrigger) (hr : FireInv t r) (hnew : MinuteIsNew a r)
    (hrun : FaultMachine.recorded onTimeStep noteFires a r = some r') : FireInv t r' := by
  obtain ⟨s, h⟩ := r
  obtain rfl := Option.some.inj hrun
  cases a with
  | rtcHandle => exact hr.clockUpdate _ hnew
  | rtcSetUnit ullUnixValue => exact hr.clockUpdate _ hnew
  | onTimeHandler table => exact hr.onTimeHandler hmode table hnew

/-- A period that ends without a call has put nothing. -/
theorem not_firesOncePerPeriod_clockUpdate {s : AlarmClock} {h : FireRecord} (hr : FireInv t (s, h))
    (rtc : RtcState) (hnew : ¬(s.Matches t → h.handled = false → t.OnTime rtc.tCommonTime)) :
    ¬FiresOncePerPeriod t (⟨rtc, s.alarm⟩,
      if s.Matches t ∧ ¬t.OnTime rtc.tCommonTime then
        { h with handled := false, current := [], ended := h.ended ++ [h.current] }
      else h) := by
  obtain ⟨hmatches, hnew⟩ := Classical.not_imp.mp hnew
  obtain ⟨hunhandled, hleave⟩ := Classical.not_imp.mp hnew
  rw [if_pos ⟨hmatches, hleave⟩]
  rintro ⟨-, hended, -⟩
  have hcurrent : h.current = [] := by
    rw [hr.fires.2.2]
    simp only [hunhandled, Bool.false_eq_true, if_false]
  have hcodes := hended h.current (List.mem_append_right _ List.mem_cons_self)
  rw [hcurrent] at hcodes
  cases hcodes

/-- Outside of the condition the next record has a period without the code. -/
theorem not_firesOncePerPeriod (hmode : t.ubMode = oneTrigger) (hr : FireInv t r)
    (hnew : ¬MinuteIsNew a r) :
    ∃ r', FaultMachine.recorded onTimeStep noteFires a r = some r' ∧ ¬FiresOncePerPeriod t r' := by
  obtain ⟨s, h⟩ := r
  refine ⟨_, rfl, ?_⟩
  cases a with
  | rtcHandle => exact not_firesOncePerPeriod_clockUpdate hr _ hnew
  | rtcSetUnit ullUnixValue => exact not_firesOncePerPeriod_clockUpdate hr _ hnew
  | onTimeHandler table =>
    obtain ⟨hmatches, hnew⟩ := Classical.not_imp.mp hnew
    obtain ⟨hunhandled, hminute⟩ := Classical.not_imp.mp hnew
    rintro ⟨-, -, hcurrent⟩
    change (noteFires (.onTimeHandler table) s s h).current =
      if (noteFires (.onTimeHandler table) s s h).handled then [t.uwIrCode] else [] at hcurrent
    rw [noteFires, if_pos hmatches, alarm_onTimeHandler_snd hmode, if_neg fun h => hminute h.1,
      List.append_nil, hr.fires.2.2] at hcurrent
    have hhandled : h.handled = false := hunhandled
    simp [hhandled] at hcurrent

end Steps

/-- `app_sched_event_put` is called once for the code in each period, in every state of a run from
the start, exactly when the first call of the handler in each period finds another minute than the
call before it. -/
theorem on_time_alarm_fires_once_iff (hmode : t.ubMode = oneTrigger)
    (labels : List (OnTimeLabel i t)) :
    FaultMachine.Throughout (FaultMachine.recorded onTimeStep noteFires) (FiresOncePerPeriod t)
        labels (.zero, .zero) ↔
      FaultMachine.Along (FaultMachine.recorded onTimeStep noteFires) MinuteIsNew labels
        (.zero, .zero) :=
  FaultMachine.throughout_iff_along (FireInv t) (fun _ _ _ hr hnew hrun => hr.step hmode hnew hrun)
    (fun _ hr => hr.fires) (fun _ _ hr hnew => not_firesOncePerPeriod hmode hr hnew)
    ⟨⟨rfl, nofun, rfl⟩, nofun⟩

/-- An alarm at ten o'clock, on every day. -/
def tenOClock : IrDataTrigger where
  ubMode := oneTrigger
  uwTrigID := 1
  uwIrCode := 7
  ubDays := 0x7F
  tTime1 := ⟨10, 0⟩
  tTime2 := ⟨0, 0⟩
  ulTimeout := 0
  ubMotionSen := 0
  ubTriggerDone := 0

/-- A table with the alarm in every slot. -/
def tenOClockTable : { table : IRTriggerTable // table.get firstSlot = tenOClock } :=
  ⟨Vector.replicate maxIrCode tenOClock, rfl⟩

/-- The handler is called at one second to ten, at ten, and a second later. -/
def pastTenOClock : List (OnTimeLabel firstSlot tenOClock) :=
  [.rtcSetUnit 35999, .onTimeHandler tenOClockTable, .rtcHandle, .onTimeHandler tenOClockTable,
    .rtcHandle, .onTimeHandler tenOClockTable]

instance (a : OnTimeLabel i t) (r : AlarmClock × FireRecord) : Decidable (MinuteIsNew a r) :=
  match a with
  | .rtcHandle => inferInstanceAs (Decidable (_ → _ → t.OnTime _))
  | .rtcSetUnit _ => inferInstanceAs (Decidable (_ → _ → t.OnTime _))
  | .onTimeHandler _ => inferInstanceAs (Decidable (_ → _ → _ ≠ _))

/-- The alarm is put once. -/
theorem on_time_alarm_fires_once_past_ten :
    FaultMachine.Throughout (FaultMachine.recorded onTimeStep noteFires)
      (FiresOncePerPeriod tenOClock) pastTenOClock (.zero, .zero) :=
  (on_time_alarm_fires_once_iff rfl pastTenOClock).mpr (by decide +kernel)

/-- The handler is called at nine and at ten, and the clock is set in between: both calls find the
minute 0 of the start, and the alarm at ten is missed. -/
theorem on_time_alarm_missed :
    ¬∀ (i : Fin maxIrCode) (t : IrDataTrigger) (labels : List (OnTimeLabel i t)),
      t.ubMode = oneTrigger →
      labels.IsChain (fun a b => ¬(a.IsClockUpdate ∧ b.IsClockUpdate)) →
      FaultMachine.Throughout (FaultMachine.recorded onTimeStep noteFires) (FiresOncePerPeriod t)
        labels (.zero, .zero) := by
  intro h
  have hlast := (h firstSlot tenOClock [.rtcSetUnit 32400, .onTimeHandler tenOClockTable,
    .rtcSetUnit 36000, .onTimeHandler tenOClockTable] rfl
      (by simp [OnTimeLabel.IsClockUpdate])).last rfl
  have hcurrent := hlast.2.2
  revert hcurrent
  decide +kernel

end IrRemote
