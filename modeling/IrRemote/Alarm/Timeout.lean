import IrRemote.Alarm.Idle
import IrRemote.Alarm.Puts
import Mathlib.Data.List.DropRight

/-!
# Blocks without a motion

While `MOTION_SENSOR_TIMEOUT_COUNT` is on, call after call, `SysTimer1000msCall` counts the calls
of this block, and a `TIMEOUT_TRIGGER` is put into the queue of the scheduler at the first call of
the block that reaches its `ulTimeout` on one of its days. The first call of a block arms the
trigger, and the mark in the trigger keeps the later calls from putting it again. The mark is set
whether or not the queue has taken the event, so a trigger that finds the queue full is lost for
the whole block.

## Main definitions

* `TimeoutState`, `TimeoutTick`, `TimeoutLabel`, `timeoutStep` — the calls of the timer, with any
  flag and clock, and the queue
* `idleBlock` — the calls of the block that has not ended
* `IrDataTrigger.DueIn`, `FiresOncePerBlock` — the call of a block at which a trigger is queued
* `FindsPlace` — the event of the trigger is not refused

## Main results

* `timeout_trigger_fires_once_iff` — the runs in which a trigger is queued once in each block
* `timeout_trigger_refused` — the queue is full when the trigger is due
-/

set_option autoImplicit false

namespace IrRemote

/-! ## The calls of the timer -/

/-- What a call of `SysTimer1000msCall` finds: the flag `MOTION_SENSOR_TIMEOUT_COUNT` and the
clock. -/
structure TimeoutTick where
  timeoutCount : Bool
  date : DateTime
  deriving DecidableEq

/-- A call of the timer, a command that changes the triggers, another event that is put, and the
main loop, which has executed the first event. -/
inductive TimeoutLabel where
  | tick (a : TimeoutTick)
  | command (table : IRTriggerTable)
  | put (handler : SchedHandler)
  | executed

/-- The flag is set before the call. -/
def MotionDevice.setTimeoutCount (timeoutCount : Bool) (s : MotionDevice) : MotionDevice :=
  { s with alarm.motionSensorTimeoutCount := timeoutCount }

/-- The triggers and their variables, and the queue of the scheduler. -/
structure TimeoutState where
  device : MotionDevice
  queue : List SchedHandler
  deriving DecidableEq

namespace TimeoutState

/-- The queue behind the event for `Mid_RTCHandle`, with which `SysTimer1000msCall` begins. -/
def ticked (s : TimeoutState) : List SchedHandler := schedEventPut .midRTCHandle s.queue

/-- The events that `App_AlarmMotionTimeOutTrigger` puts behind it. -/
def events (a : TimeoutTick) (s : TimeoutState) : List EmitEvent :=
  (s.device.setTimeoutCount a.timeoutCount).timeoutEvents a.date

/-- `SysTimer1000msCall`. The result of `app_sched_event_put` is not looked at. -/
def sysTimer1000ms (a : TimeoutTick) (s : TimeoutState) : TimeoutState where
  device := (s.device.setTimeoutCount a.timeoutCount).sysTimer1000ms a.date
  queue := putEmitEvents (s.events a) s.ticked

end TimeoutState

/-- One step. -/
def timeoutStep (a : TimeoutLabel) (s : TimeoutState) : Option TimeoutState :=
  match a with
  | .tick a => some (s.sysTimer1000ms a)
  | .command table => some { s with device.atIRDataTrigger := table }
  | .put handler => some { s with queue := schedEventPut handler s.queue }
  | .executed => some { s with queue := s.queue.tail }

/-- The calls of the timer with the codes of a slot that the queue has taken. -/
abbrev TickRecord := List (TimeoutTick × List (BitVec 8))

/-- Every call of the timer is recorded. -/
def noteTicks (i : Fin maxIrCode) (a : TimeoutLabel) (s _ : TimeoutState) (calls : TickRecord) :
    TickRecord :=
  match a with
  | .tick a => calls ++ [(a, codesOf i (acceptedEvents s.ticked (s.events a)))]
  | .command _ | .put _ | .executed => calls

/-- A command does not change the slot `i`. -/
def KeepsSlot (i : Fin maxIrCode) (a : TimeoutLabel) (r : TimeoutState × TickRecord) : Prop :=
  match a with
  | .command table => table.get i = r.1.device.atIRDataTrigger.get i
  | .tick _ | .put _ | .executed => True

instance (i : Fin maxIrCode) (a : TimeoutLabel) (r : TimeoutState × TickRecord) :
    Decidable (KeepsSlot i a r) :=
  match a with
  | .command _ => inferInstanceAs (Decidable (_ = _))
  | .tick _ | .put _ | .executed => isTrue trivial

/-! ## Blocks -/

/-- The clocks of the calls behind the last one that has found the flag off. -/
def idleBlock (calls : TickRecord) : List DateTime :=
  (calls.rtakeWhile fun call => call.1.timeoutCount).map fun call => call.1.date

theorem idleBlock_concat (calls : TickRecord) (a : TimeoutTick)
    (codes : List (BitVec 8)) :
    idleBlock (calls ++ [(a, codes)]) =
      if a.timeoutCount then idleBlock calls ++ [a.date] else [] := by
  rw [idleBlock, List.rtakeWhile_concat]
  split_ifs
  · rw [List.map_append]
    rfl
  · rfl

/-- Some call of the block, the `ulTimeout`-th or a later one, was made on a day of the trigger. -/
def IrDataTrigger.DueIn (t : IrDataTrigger) (block : List DateTime) : Prop :=
  ∃ date ∈ block.drop (t.ulTimeout.toNat - 1), t.OnDay date

instance (t : IrDataTrigger) (block : List DateTime) : Decidable (t.DueIn block) :=
  inferInstanceAs (Decidable (∃ date ∈ _, t.OnDay date))

/-- The next call of the block is the first one that puts the trigger into the queue. -/
def IrDataTrigger.IsFirstDue (t : IrDataTrigger) (block : List DateTime) (date : DateTime) : Prop :=
  t.ulTimeout.toNat ≤ block.length + 1 ∧ t.OnDay date ∧ ¬t.DueIn block

instance (t : IrDataTrigger) (block : List DateTime) (date : DateTime) :
    Decidable (t.IsFirstDue block date) :=
  inferInstanceAs (Decidable (_ ∧ _ ∧ _))

theorem IrDataTrigger.not_dueIn_nil (t : IrDataTrigger) : ¬t.DueIn [] := by
  rintro ⟨date, hdate, -⟩
  rw [List.drop_nil] at hdate
  cases hdate

/-- The next call of the block is due, or an earlier one was. -/
theorem IrDataTrigger.dueIn_concat (t : IrDataTrigger) (block : List DateTime)
    (date : DateTime) :
    t.DueIn (block ++ [date]) ↔ t.DueIn block ∨ t.IsFirstDue block date := by
  have hlast : ∀ d, d ∈ [date].drop (t.ulTimeout.toNat - 1 - block.length) ↔
      t.ulTimeout.toNat ≤ block.length + 1 ∧ d = date := by
    intro d
    by_cases hlength : t.ulTimeout.toNat ≤ block.length + 1
    · rw [show t.ulTimeout.toNat - 1 - block.length = 0 by omega]
      simp [hlength]
    · rw [List.drop_eq_nil_of_le (by rw [List.length_singleton]; omega)]
      simp [hlength]
  constructor
  · rintro ⟨d, hd, hday⟩
    by_cases hbefore : t.DueIn block
    · exact .inl hbefore
    · rw [List.drop_append, List.mem_append] at hd
      obtain hd | hd := hd
      · exact .inl ⟨d, hd, hday⟩
      · obtain ⟨hreached, rfl⟩ := (hlast d).mp hd
        exact .inr ⟨hreached, hday, hbefore⟩
  · rintro (⟨d, hd, hday⟩ | ⟨hreached, hday, -⟩)
    · exact ⟨d, List.drop_append ▸ List.mem_append_left _ hd, hday⟩
    · exact ⟨date, List.drop_append ▸ List.mem_append_right _ ((hlast date).mpr ⟨hreached, rfl⟩),
        hday⟩

/-- Every call with the flag off queues nothing. In a block whose calls fit into the count, the
trigger is queued at its first call that is due, and at no other one. -/
def FiresOncePerBlock (t : IrDataTrigger) (r : TimeoutState × TickRecord) : Prop :=
  ∀ before a codes, before ++ [(a, codes)] <+: r.2 →
    (a.timeoutCount = false → codes = []) ∧
      (a.timeoutCount = true → (idleBlock before).length + 1 < 4294967296 →
        codes = if t.IsFirstDue (idleBlock before) a.date then [t.uwIrCode] else [])

/-- Behind the event of the tick, and one for each slot before that is due too, the queue has a
place. -/
def TimeoutState.HasPlace (i : Fin maxIrCode) (a : TimeoutTick) (s : TimeoutState) : Prop :=
  s.queue.length + 1 +
    (dueBefore i a.date (if a.timeoutCount then s.device.alarm.ulMotionTimeOffCount + 1 else 0)
      (armTimeoutTriggers (s.device.setTimeoutCount a.timeoutCount).alarm
        s.device.atIRDataTrigger)).length < schedQueueSize

instance (i : Fin maxIrCode) (a : TimeoutTick) (s : TimeoutState) : Decidable (s.HasPlace i a) :=
  inferInstanceAs (Decidable (_ < _))

/-- At the first call of a block at which the trigger is due, the queue has a place for its
event. -/
def FindsPlace (i : Fin maxIrCode) (t : IrDataTrigger) (a : TimeoutLabel)
    (r : TimeoutState × TickRecord) : Prop :=
  match a with
  | .tick a => a.timeoutCount = true → (idleBlock r.2).length + 1 < 4294967296 →
      t.IsFirstDue (idleBlock r.2) a.date → r.1.HasPlace i a
  | .command _ | .put _ | .executed => True

instance (i : Fin maxIrCode) (t : IrDataTrigger) (a : TimeoutLabel)
    (r : TimeoutState × TickRecord) : Decidable (FindsPlace i t a r) :=
  match a with
  | .tick _ => inferInstanceAs (Decidable (_ → _ → _ → _))
  | .command _ | .put _ | .executed => isTrue trivial

/-! ## The count and the mark -/

/-- The trigger with another mark. -/
def IrDataTrigger.mark (t : IrDataTrigger) (ubTriggerDone : BitVec 8) : IrDataTrigger :=
  { t with ubTriggerDone }

/-- The count is the length of the block, and the trigger is marked when the block has put it into
the queue. -/
structure BlockInv (i : Fin maxIrCode) (t : IrDataTrigger) (r : TimeoutState × TickRecord) :
    Prop where
  fires : FiresOncePerBlock t r
  preTimeoutCount : r.1.device.alarm.motionSensorPreTimeoutCount = true ↔ idleBlock r.2 ≠ []
  count : (idleBlock r.2).length < 4294967296 →
    r.1.device.alarm.ulMotionTimeOffCount.toNat = (idleBlock r.2).length
  slot : ∃ ubTriggerDone, r.1.device.atIRDataTrigger.get i = t.mark ubTriggerDone
  done : idleBlock r.2 ≠ [] → (idleBlock r.2).length < 4294967296 →
    ((r.1.device.atIRDataTrigger.get i).ubTriggerDone = triggerDoneMask ↔ t.DueIn (idleBlock r.2))

section Invariant

variable {i : Fin maxIrCode} {t : IrDataTrigger} {s : TimeoutState} {a : TimeoutTick}
  {calls : TickRecord}

/-- One more call. -/
theorem FiresOncePerBlock.concat {s' : TimeoutState} (h : FiresOncePerBlock t (s, calls))
    {codes : List (BitVec 8)} (hoff : a.timeoutCount = false → codes = [])
    (hon : a.timeoutCount = true → (idleBlock calls).length + 1 < 4294967296 →
      codes = if t.IsFirstDue (idleBlock calls) a.date then [t.uwIrCode] else []) :
    FiresOncePerBlock t (s', calls ++ [(a, codes)]) := by
  intro before b codes' hprefix
  obtain heq | hprefix := List.prefix_concat_iff.mp hprefix
  · obtain ⟨rfl, hlast⟩ := List.append_inj' heq rfl
    cases hlast
    exact ⟨hoff, hon⟩
  · exact h before b codes' hprefix

/-- The queue takes the event of the slot when it has a place behind the others. -/
theorem codesOf_accepted (i : Fin maxIrCode) (a : TimeoutTick) (s : TimeoutState) :
    codesOf i (acceptedEvents s.ticked (s.events a)) =
      if s.HasPlace i a then codesOf i (s.events a) else [] := by
  have hevents : s.events a = (appAlarmMotionTimeOutTrigger a.date
      (if a.timeoutCount then s.device.alarm.ulMotionTimeOffCount + 1 else 0)
      (armTimeoutTriggers (s.device.setTimeoutCount a.timeoutCount).alarm
        s.device.atIRDataTrigger)).2 :=
    congrArg Prod.snd (sysTimer1000msAlarms_snd _ _ _)
  have hplace : s.ticked.length + (eventsBefore i (s.events a)).length < schedQueueSize ↔
      s.HasPlace i a := by
    rw [hevents, length_eventsBefore_appAlarmMotionTimeOutTrigger, TimeoutState.ticked]
    change _ ↔ s.queue.length + 1 + _ < _
    obtain hfree | hfull := Nat.lt_or_ge s.queue.length schedQueueSize
    · have haccepts : SchedAccepts (SchedHandler.eventDataSize .midRTCHandle) s.queue.length :=
        ⟨by decide, hfree⟩
      rw [schedEventPut_of_accepts haccepts, List.length_append, List.length_singleton]
    · -- neither the tick nor the trigger finds a place
      rw [schedEventPut_of_not_accepts fun haccepts => absurd haccepts.2 (Nat.not_lt.mpr hfull)]
      exact iff_of_false (by omega) (by omega)
  rw [codesOf_acceptedEvents (hevents ▸ pairwise_slot_appAlarmMotionTimeOutTrigger _ _ _)]
  simp only [hplace]

/-- The armed trigger, when the flag is on, is marked if it was due in the block. -/
theorem BlockInv.armed (hr : BlockInv i t (s, calls)) (hmode : t.ubMode = timeoutTrigger)
    (timeoutCount : Bool) :
    ∃ ubTriggerDone,
      (armTimeoutTriggers (s.device.setTimeoutCount timeoutCount).alarm
          s.device.atIRDataTrigger).get i = t.mark ubTriggerDone ∧
      (timeoutCount = true → (idleBlock calls).length < 4294967296 →
        (ubTriggerDone = triggerDoneMask ↔ t.DueIn (idleBlock calls))) := by
  obtain ⟨ubTriggerDone, hslot⟩ := hr.slot
  change s.device.atIRDataTrigger.get i = t.mark ubTriggerDone at hslot
  rw [get_armTimeoutTriggers, hslot]
  by_cases hblock : idleBlock calls = []
  · -- the first call of a block arms the trigger
    have hpre : s.device.alarm.motionSensorPreTimeoutCount = false :=
      Bool.not_eq_true _ ▸ mt hr.preTimeoutCount.mp (not_not.mpr hblock)
    cases timeoutCount with
    | false => exact ⟨ubTriggerDone, if_neg fun h => Bool.false_ne_true h.2.1, nofun⟩
    | true =>
      refine ⟨0xFF, if_pos ⟨hpre, rfl, hmode⟩, fun _ _ => ?_⟩
      rw [hblock]
      exact iff_of_false (by decide) t.not_dueIn_nil
  · have hpre : s.device.alarm.motionSensorPreTimeoutCount = true :=
      hr.preTimeoutCount.mpr hblock
    refine ⟨ubTriggerDone, if_neg fun h => ?_, fun _ hlength => ?_⟩
    · exact Bool.false_ne_true (h.1.symm.trans hpre)
    · have hdone := hr.done hblock hlength
      rw [hslot] at hdone
      exact hdone

/-- The call puts the trigger, and marks it, when it is due and not marked. -/
theorem get_sysTimer1000ms {ubTriggerDone : BitVec 8}
    (harmed : (armTimeoutTriggers (s.device.setTimeoutCount a.timeoutCount).alarm
      s.device.atIRDataTrigger).get i = t.mark ubTriggerDone) :
    codesOf i (s.events a) =
        (if (t.mark ubTriggerDone).TimesOut a.date
            (if a.timeoutCount then s.device.alarm.ulMotionTimeOffCount + 1 else 0) then
          [t.uwIrCode]
        else []) ∧
      (s.sysTimer1000ms a).device.atIRDataTrigger.get i =
        t.mark (if (t.mark ubTriggerDone).TimesOut a.date
            (if a.timeoutCount then s.device.alarm.ulMotionTimeOffCount + 1 else 0) then
          triggerDoneMask
        else ubTriggerDone) := by
  have hsnd := sysTimer1000msAlarms_snd a.date s.device.atIRDataTrigger
    (s.device.setTimeoutCount a.timeoutCount).alarm
  constructor
  · change codesOf i (sysTimer1000msAlarms a.date s.device.atIRDataTrigger
      (s.device.setTimeoutCount a.timeoutCount).alarm).2.2 = _
    rw [hsnd, codesOf_appAlarmMotionTimeOutTrigger, harmed]
    rfl
  · change (sysTimer1000msAlarms a.date s.device.atIRDataTrigger
      (s.device.setTimeoutCount a.timeoutCount).alarm).2.1.get i = _
    rw [hsnd, appAlarmMotionTimeOutTrigger, SlotTable.get_map, harmed]
    exact (apply_ite t.mark _ _ _).symm

/-- What the call makes of the flag and of the count. -/
theorem alarm_timeoutTick (a : TimeoutTick) (s : TimeoutState) :
    (s.sysTimer1000ms a).device.alarm.motionSensorPreTimeoutCount = a.timeoutCount ∧
      (s.sysTimer1000ms a).device.alarm.ulMotionTimeOffCount =
        if a.timeoutCount then s.device.alarm.ulMotionTimeOffCount + 1 else 0 := by
  rw [TimeoutState.sysTimer1000ms, MotionDevice.alarm_sysTimer1000ms]
  exact ⟨rfl, rfl⟩

/-- With the flag off a call queues nothing. -/
theorem BlockInv.tick_off (hr : BlockInv i t (s, calls)) (hmode : t.ubMode = timeoutTrigger)
    (htimeout : 1 ≤ t.ulTimeout.toNat) (hoff : a.timeoutCount = false) :
    BlockInv i t (s.sysTimer1000ms a, noteTicks i (.tick a) s s calls) := by
  obtain ⟨ubTriggerDone, harmed, -⟩ := hr.armed hmode a.timeoutCount
  obtain ⟨hcodes, hslot⟩ := get_sysTimer1000ms harmed
  obtain ⟨hpre, hcount⟩ := alarm_timeoutTick a s
  have hflag : ¬a.timeoutCount = true := by
    rw [hoff]
    exact Bool.false_ne_true
  have hnotDue : ¬(t.mark ubTriggerDone).TimesOut a.date
      (if a.timeoutCount then s.device.alarm.ulMotionTimeOffCount + 1 else 0) := by
    rw [if_neg hflag]
    exact fun hdue => absurd (htimeout.trans (BitVec.le_def.mp hdue.2.2.1)) (by decide)
  rw [if_neg hflag] at hcount
  rw [if_neg hnotDue] at hcodes
  have hblock (codes : List (BitVec 8)) : idleBlock (calls ++ [(a, codes)]) = [] := by
    rw [idleBlock_concat, if_neg hflag]
  refine ⟨hr.fires.concat (fun _ => ?_) fun hon => absurd (hoff.symm.trans hon)
    Bool.false_ne_true, ?_, fun _ => ?_, ⟨_, hslot⟩, fun hne => absurd (hblock _) hne⟩
  · rw [codesOf_accepted, hcodes, ite_self]
  · refine iff_of_false ?_ (not_not.mpr (hblock _))
    rw [hpre, hoff]
    exact Bool.false_ne_true
  · rw [hcount, noteTicks, hblock]
    rfl

/-- With the flag on the count is the number of the call in its block. -/
theorem BlockInv.toNat_next (hr : BlockInv i t (s, calls))
    (hlength : (idleBlock calls).length + 1 < 4294967296) :
    (s.device.alarm.ulMotionTimeOffCount + 1).toNat = (idleBlock calls).length + 1 := by
  have hcount : s.device.alarm.ulMotionTimeOffCount.toNat = (idleBlock calls).length :=
    hr.count (Nat.lt_of_succ_lt hlength)
  rw [BitVec.toNat_add, hcount]
  exact Nat.mod_eq_of_lt hlength

/-- The armed trigger is due at the first call of the block that puts it. -/
theorem BlockInv.timesOut_iff (hr : BlockInv i t (s, calls)) (hmode : t.ubMode = timeoutTrigger)
    (hlength : (idleBlock calls).length + 1 < 4294967296) {ubTriggerDone : BitVec 8}
    (hdone : ubTriggerDone = triggerDoneMask ↔ t.DueIn (idleBlock calls)) (date : DateTime) :
    (t.mark ubTriggerDone).TimesOut date (s.device.alarm.ulMotionTimeOffCount + 1) ↔
      t.IsFirstDue (idleBlock calls) date := by
  change t.ubMode = timeoutTrigger ∧ t.OnDay date ∧ t.ulTimeout ≤ _ ∧ ubTriggerDone ≠ _ ↔ _
  rw [BitVec.le_def, hr.toNat_next hlength, Ne, hdone, IrDataTrigger.IsFirstDue]
  constructor
  · rintro ⟨-, hday, hreached, hnot⟩
    exact ⟨hreached, hday, hnot⟩
  · rintro ⟨hreached, hday, hnot⟩
    exact ⟨hmode, hday, hreached, hnot⟩

/-- With the flag on the queue takes the event when the call is the first one that is due and there
is a place. -/
theorem BlockInv.codes_on (hr : BlockInv i t (s, calls)) (hmode : t.ubMode = timeoutTrigger)
    (hon : a.timeoutCount = true) (hlength : (idleBlock calls).length + 1 < 4294967296) :
    codesOf i (acceptedEvents s.ticked (s.events a)) =
      if s.HasPlace i a then
        if t.IsFirstDue (idleBlock calls) a.date then [t.uwIrCode] else []
      else [] := by
  obtain ⟨ubTriggerDone, harmed, hdone⟩ := hr.armed hmode a.timeoutCount
  obtain ⟨hcodes, -⟩ := get_sysTimer1000ms harmed
  rw [codesOf_accepted, hcodes, if_pos hon]
  simp only [hr.timesOut_iff hmode hlength (hdone hon (by omega)) a.date]

/-- With the flag on a call queues the trigger when it is the first one that is due. -/
theorem BlockInv.tick_on (hr : BlockInv i t (s, calls)) (hmode : t.ubMode = timeoutTrigger)
    (hon : a.timeoutCount = true) (hplace : FindsPlace i t (.tick a) (s, calls)) :
    BlockInv i t (s.sysTimer1000ms a, noteTicks i (.tick a) s s calls) := by
  obtain ⟨ubTriggerDone, harmed, hdone⟩ := hr.armed hmode a.timeoutCount
  obtain ⟨-, hslot⟩ := get_sysTimer1000ms harmed
  obtain ⟨hpre, hcount⟩ := alarm_timeoutTick a s
  rw [if_pos hon] at hslot hcount
  have hblock (codes : List (BitVec 8)) :
      idleBlock (calls ++ [(a, codes)]) = idleBlock calls ++ [a.date] := by
    rw [idleBlock_concat, if_pos hon]
  have hlength (codes : List (BitVec 8)) :
      (idleBlock (calls ++ [(a, codes)])).length = (idleBlock calls).length + 1 := by
    rw [hblock, List.length_append]
    rfl
  refine ⟨hr.fires.concat (fun hoff => absurd (hoff.symm.trans hon) Bool.false_ne_true)
    fun _ hfits => ?_, ?_, fun hfits => ?_, ⟨_, hslot⟩, fun _ hfits => ?_⟩
  · rw [hr.codes_on hmode hon hfits]
    by_cases hdue : t.IsFirstDue (idleBlock calls) a.date
    · rw [if_pos (hplace hon hfits hdue)]
    · rw [if_neg hdue, ite_self]
  · refine iff_of_true (hpre.trans hon) ?_
    rw [noteTicks, hblock]
    exact List.concat_ne_nil _ _
  · rw [noteTicks, hlength] at hfits
    rw [hcount, noteTicks, hlength]
    exact hr.toNat_next hfits
  · change ((s.sysTimer1000ms a).device.atIRDataTrigger.get i).ubTriggerDone =
      triggerDoneMask ↔ t.DueIn (idleBlock _)
    rw [noteTicks, hlength] at hfits
    have hdone := hdone hon (by omega)
    rw [hslot, noteTicks, hblock, t.dueIn_concat, IrDataTrigger.mark]
    have hdue := hr.timesOut_iff hmode hfits hdone a.date
    split_ifs with htimesOut
    · exact iff_of_true rfl (.inr (hdue.mp htimesOut))
    · exact hdone.trans (or_iff_left (mt hdue.mpr htimesOut)).symm

theorem BlockInv.step {b : TimeoutLabel} {r r' : TimeoutState × TickRecord} (hr : BlockInv i t r)
    (hmode : t.ubMode = timeoutTrigger) (htimeout : 1 ≤ t.ulTimeout.toNat)
    (hkeeps : KeepsSlot i b r) (hplace : FindsPlace i t b r)
    (hrun : FaultMachine.recorded timeoutStep (noteTicks i) b r = some r') : BlockInv i t r' := by
  obtain ⟨s, calls⟩ := r
  cases b with
  | tick a =>
    obtain rfl := Option.some.inj hrun
    cases hflag : a.timeoutCount with
    | false => exact hr.tick_off hmode htimeout hflag
    | true => exact hr.tick_on hmode hflag hplace
  | command table =>
    obtain rfl := Option.some.inj hrun
    change table.get i = s.device.atIRDataTrigger.get i at hkeeps
    refine ⟨hr.fires, hr.preTimeoutCount, hr.count, ?_, ?_⟩
    · change ∃ ubTriggerDone, table.get i = t.mark ubTriggerDone
      rw [hkeeps]
      exact hr.slot
    · change _ → _ → ((table.get i).ubTriggerDone = triggerDoneMask ↔ _)
      rw [hkeeps]
      exact hr.done
  | put handler =>
    obtain rfl := Option.some.inj hrun
    exact ⟨hr.fires, hr.preTimeoutCount, hr.count, hr.slot, hr.done⟩
  | executed =>
    obtain rfl := Option.some.inj hrun
    exact ⟨hr.fires, hr.preTimeoutCount, hr.count, hr.slot, hr.done⟩

/-- An event that is refused is missing in its block. -/
theorem BlockInv.not_fires {b : TimeoutLabel} {r : TimeoutState × TickRecord}
    (hr : BlockInv i t r) (hmode : t.ubMode = timeoutTrigger) (hfull : ¬FindsPlace i t b r) :
    ∃ r', FaultMachine.recorded timeoutStep (noteTicks i) b r = some r' ∧
      ¬FiresOncePerBlock t r' := by
  obtain ⟨s, calls⟩ := r
  cases b with
  | tick a =>
    refine ⟨_, rfl, fun hfires => ?_⟩
    obtain ⟨hon, hfull⟩ := Classical.not_imp.mp hfull
    obtain ⟨hlength, hfull⟩ := Classical.not_imp.mp hfull
    obtain ⟨hdue, hfull⟩ := Classical.not_imp.mp hfull
    have hcodes := (hfires calls a _ List.prefix_rfl).2 hon hlength
    rw [hr.codes_on hmode hon hlength, if_neg hfull, if_pos hdue] at hcodes
    cases hcodes
  | command _ | put _ | executed => exact absurd trivial hfull

end Invariant

/-- A call that has found the flag off has cleared the count. -/
def MotionDevice.CountCleared (s : MotionDevice) : Prop :=
  s.alarm.motionSensorPreTimeoutCount = false → s.alarm.ulMotionTimeOffCount = 0

/-- The samples and the other timer write neither. -/
theorem countCleared_preserved : FaultMachine.Preserves idleStep MotionDevice.CountCleared := by
  intro a s hs
  cases a with
  | motionSample sample =>
    refine ⟨_, rfl, ?_⟩
    rw [MotionDevice.CountCleared, midMotionSensorHandler]
    split_ifs <;> exact hs
  | sysTimer100ms date =>
    refine ⟨_, rfl, fun hoff => ?_⟩
    obtain ⟨-, hpre, hcount⟩ := sameTimeout_sysTimer100msAlarms date s.atIRDataTrigger s.alarm
    exact hcount.trans (hs (hpre ▸ hoff))
  | sysTimer1000ms date =>
    refine ⟨_, rfl, ?_⟩
    rw [MotionDevice.CountCleared, s.alarm_sysTimer1000ms]
    exact fun hoff => if_neg (Bool.not_eq_true _ ▸ hoff)
  | command table => exact ⟨_, rfl, hs⟩

/-- From a state of the device in which the copy of the flag is off, a trigger that no command
changes is queued once in each block exactly when its event finds a place whenever it is put. -/
theorem timeout_trigger_fires_once_iff (table : IRTriggerTable) (s : MotionDevice)
    (queue : List SchedHandler) (i : Fin maxIrCode)
    (hs : FaultMachine.Reachable idleStep ⟨.zero, table⟩ s)
    (hpre : s.alarm.motionSensorPreTimeoutCount = false)
    (hmode : (s.atIRDataTrigger.get i).ubMode = timeoutTrigger)
    (htimeout : 1 ≤ (s.atIRDataTrigger.get i).ulTimeout.toNat) (labels : List TimeoutLabel)
    (hkeeps : FaultMachine.Along (FaultMachine.recorded timeoutStep (noteTicks i)) (KeepsSlot i)
      labels (⟨s, queue⟩, [])) :
    FaultMachine.Throughout (FaultMachine.recorded timeoutStep (noteTicks i))
        (FiresOncePerBlock (s.atIRDataTrigger.get i)) labels (⟨s, queue⟩, []) ↔
      FaultMachine.Along (FaultMachine.recorded timeoutStep (noteTicks i))
        (FindsPlace i (s.atIRDataTrigger.get i)) labels (⟨s, queue⟩, []) := by
  refine hkeeps.throughout_iff (BlockInv i (s.atIRDataTrigger.get i))
    (fun _ _ _ hr hkeeps hplace hrun => hr.step hmode htimeout hkeeps hplace hrun)
    (fun _ hr => hr.fires) (fun _ _ hr _ hfull => hr.not_fires hmode hfull) ?_
  refine ⟨?_, ?_, fun _ => ?_, ⟨_, rfl⟩, fun hne => absurd rfl hne⟩
  · intro before a codes hprefix
    exact absurd (List.prefix_nil.mp hprefix) (List.concat_ne_nil _ _)
  · exact iff_of_false (hpre ▸ Bool.false_ne_true) (not_not.mpr rfl)
  · exact congrArg BitVec.toNat (countCleared_preserved.reachable (fun _ => rfl) hs hpre)

/-- `twoSeconds` in a block of three calls, and in the next block, while the main loop executes the
events. -/
theorem timeout_trigger_fires_once_two_seconds :
    FaultMachine.Throughout
      (FaultMachine.recorded timeoutStep (noteTicks firstSlot)) (FiresOncePerBlock twoSeconds)
      [.tick ⟨true, midRTCConvertUnixToDate 0⟩, .executed, .tick ⟨true, midRTCConvertUnixToDate 1⟩,
        .tick ⟨true, midRTCConvertUnixToDate 2⟩, .tick ⟨false, midRTCConvertUnixToDate 3⟩,
        .tick ⟨true, midRTCConvertUnixToDate 4⟩, .executed, .put .midKeyHandler,
        .tick ⟨true, midRTCConvertUnixToDate 5⟩]
      (⟨⟨.zero, Vector.replicate maxIrCode twoSeconds⟩, []⟩, []) :=
  (timeout_trigger_fires_once_iff _ ⟨.zero, Vector.replicate maxIrCode twoSeconds⟩ [] firstSlot
    .refl rfl rfl (by decide) _ (by decide +kernel)).mpr (by decide +kernel)

/-- The main loop is busy for half a second, in which 24 scans of the keys are queued, and then the
trigger is due. It is marked, and put no more when the queue is empty again. -/
theorem timeout_trigger_refused :
    ¬∀ (table : IRTriggerTable) (s : MotionDevice) (queue : List SchedHandler)
      (i : Fin maxIrCode), FaultMachine.Reachable idleStep ⟨.zero, table⟩ s →
      s.alarm.motionSensorPreTimeoutCount = false →
      (s.atIRDataTrigger.get i).ubMode = timeoutTrigger →
      1 ≤ (s.atIRDataTrigger.get i).ulTimeout.toNat → ∀ labels : List TimeoutLabel,
      FaultMachine.Along (FaultMachine.recorded timeoutStep (noteTicks i)) (KeepsSlot i) labels
        (⟨s, queue⟩, []) →
      FaultMachine.Throughout (FaultMachine.recorded timeoutStep (noteTicks i))
        (FiresOncePerBlock (s.atIRDataTrigger.get i)) labels (⟨s, queue⟩, []) := by
  intro h
  have hlast := (h _ ⟨.zero, Vector.replicate maxIrCode twoSeconds⟩ [] firstSlot .refl rfl rfl
    (by decide)
    ([.tick ⟨true, midRTCConvertUnixToDate 0⟩, .executed] ++
      List.replicate 24 (.put .midKeyHandler) ++ [.tick ⟨true, midRTCConvertUnixToDate 1⟩] ++
      List.replicate 24 .executed ++ [.tick ⟨true, midRTCConvertUnixToDate 2⟩])
    (by decide +kernel)).last rfl
  have hrefused := (hlast [(⟨true, midRTCConvertUnixToDate 0⟩, [])]
    ⟨true, midRTCConvertUnixToDate 1⟩ [] ⟨[(⟨true, midRTCConvertUnixToDate 2⟩, [])], by
      decide +kernel⟩).2 rfl (by decide)
  revert hrefused
  decide +kernel

end IrRemote
