import IrRemote.App.Alarm
import IrRemote.Sched.Events

/-!
# The events of the alarms in the queue

An alarm that is due calls `app_sched_event_put` once for each of its slots, in the order of the
slots. The queue takes the first ones, as many as it has free places, and the alarms do not look at
the error code of the others.

## Main definitions

* `putEmitEvents` — the calls, one behind the other
* `acceptedEvents` — the events that find a place

## Main results

* `putEmitEvents_eq` — the queue behind the calls
* `codesOf_acceptedEvents` — when the event of a slot finds a place
-/

set_option autoImplicit false

namespace IrRemote

/-- The handler, with the code of the slot. -/
def EmitEvent.handler (e : EmitEvent) : SchedHandler := .appControlStartEmitIRWithID e.uwIrCode

/-- The calls of `app_sched_event_put`. -/
def putEmitEvents (events : List EmitEvent) (queue : List SchedHandler) : List SchedHandler :=
  events.foldl (fun queue e => schedEventPut e.handler queue) queue

/-- The events that find a place in the queue. -/
def acceptedEvents (queue : List SchedHandler) (events : List EmitEvent) : List EmitEvent :=
  events.take (schedQueueSize - queue.length)

/-- The events of the slots before one. -/
def eventsBefore (i : Fin maxIrCode) (events : List EmitEvent) : List EmitEvent :=
  events.filter fun e => e.slot < i

variable {queue : List SchedHandler} {events : List EmitEvent} {i : Fin maxIrCode}

/-- The events find places as long as there are some. -/
theorem putEmitEvents_eq (queue : List SchedHandler) (events : List EmitEvent) :
    putEmitEvents events queue = queue ++ (acceptedEvents queue events).map EmitEvent.handler := by
  induction events generalizing queue with
  | nil => simp [putEmitEvents, acceptedEvents]
  | cons e events ih =>
    have hcons : putEmitEvents (e :: events) queue =
        putEmitEvents events (schedEventPut e.handler queue) := rfl
    rw [hcons, ih, acceptedEvents, acceptedEvents]
    obtain hfree | hfull := Nat.lt_or_ge queue.length schedQueueSize
    · -- the place of the first event is taken
      have haccepts : SchedAccepts e.handler.eventDataSize queue.length :=
        ⟨(by decide : 1 ≤ schedMaxEventDataSize), hfree⟩
      obtain ⟨n, hn⟩ := Nat.exists_eq_add_of_lt hfree
      have hleft : schedQueueSize - queue.length = n + 1 := by omega
      have hnext : schedQueueSize - (queue.length + 1) = n := by omega
      rw [schedEventPut_of_accepts haccepts, List.length_append, List.length_singleton, hleft,
        hnext, List.take_succ_cons, List.map_cons, List.append_assoc, List.singleton_append]
    · rw [schedEventPut_of_not_accepts fun haccepts => absurd haccepts.2 (Nat.not_lt.mpr hfull),
        Nat.sub_eq_zero_of_le hfull, List.take_zero, List.take_zero]

/-- The events of other slots. -/
theorem codesOf_eq_nil (h : ∀ e ∈ events, e.slot ≠ i) : codesOf i events = [] := by
  rw [codesOf, List.map_eq_nil_iff, List.filter_eq_nil_iff]
  exact fun e he hslot => h e he (of_decide_eq_true hslot)

/-- Of so many events in the order of their slots, the event of a slot is among the first ones when
fewer events stand before it. -/
theorem codesOf_take (hsorted : events.Pairwise fun e e' => e.slot < e'.slot) (n : ℕ) :
    codesOf i (events.take n) =
      if (eventsBefore i events).length < n then codesOf i events else [] := by
  induction events generalizing n with
  | nil => simp
  | cons e events ih =>
    obtain ⟨hfirst, hrest⟩ := List.pairwise_cons.mp hsorted
    cases n with
    | zero =>
      rw [List.take_zero, if_neg (Nat.not_lt_zero _)]
      rfl
    | succ n =>
      have hcons (l : List EmitEvent) :
          codesOf i (e :: l) = (if e.slot = i then [e.uwIrCode] else []) ++ codesOf i l := by
        rw [← codesOf_singleton, ← codesOf_append]
        rfl
      rw [List.take_succ_cons, hcons, hcons]
      obtain hlt | hge := Nat.lt_or_ge e.slot.val i.val
      · have hbefore : eventsBefore i (e :: events) = e :: eventsBefore i events :=
          List.filter_cons_of_pos (decide_eq_true hlt)
        rw [hbefore, List.length_cons, ih hrest, if_neg (Fin.ne_of_lt hlt), List.nil_append,
          List.nil_append]
        simp only [Nat.succ_lt_succ_iff]
      · -- no event stands before the slot, and none behind this one is of it
        have hbehind : ∀ e' ∈ events, e'.slot ≠ i := fun e' he' =>
          (Fin.ne_of_lt (Nat.lt_of_le_of_lt hge (hfirst e' he'))).symm
        have hbefore : eventsBefore i (e :: events) = [] := by
          refine List.filter_eq_nil_iff.mpr fun e' he' => ?_
          rw [decide_eq_true_eq, not_lt]
          obtain rfl | he' := List.mem_cons.mp he'
          · exact hge
          · exact Nat.le_of_lt (Nat.lt_of_le_of_lt hge (hfirst e' he'))
        rw [hbefore, List.length_nil, if_pos (Nat.succ_pos n), codesOf_eq_nil hbehind,
          codesOf_eq_nil fun e' he' => hbehind e' (List.mem_of_mem_take he')]

/-- The event of a slot is put behind those of the slots before it. -/
theorem codesOf_acceptedEvents (hsorted : events.Pairwise fun e e' => e.slot < e'.slot)
    (queue : List SchedHandler) :
    codesOf i (acceptedEvents queue events) =
      if queue.length + (eventsBefore i events).length < schedQueueSize then codesOf i events
      else [] := by
  rw [acceptedEvents, codesOf_take hsorted]
  simp only [Nat.lt_sub_iff_add_lt']

/-- The trigger goes through the slots in their order. -/
theorem pairwise_slot_appAlarmMotionTimeOutTrigger (date : DateTime)
    (ulMotionTimeOffCount : BitVec 32) (table : IRTriggerTable) :
    (appAlarmMotionTimeOutTrigger date ulMotionTimeOffCount table).2.Pairwise
      fun e e' => e.slot < e'.slot := by
  refine List.Pairwise.filterMap _ (fun j j' hlt e he e' he' => ?_) (List.pairwise_lt_finRange _)
  split_ifs at he he'
  cases Option.some.inj he
  cases Option.some.inj he'
  exact hlt

/-- The slots before one whose triggers are due. -/
def dueBefore (i : Fin maxIrCode) (date : DateTime) (ulMotionTimeOffCount : BitVec 32)
    (table : IRTriggerTable) : List (Fin maxIrCode) :=
  (List.finRange maxIrCode).filter fun j =>
    j < i ∧ (table.get j).TimesOut date ulMotionTimeOffCount

/-- Each of them puts one event. -/
theorem length_eventsBefore_appAlarmMotionTimeOutTrigger (i : Fin maxIrCode) (date : DateTime)
    (ulMotionTimeOffCount : BitVec 32) (table : IRTriggerTable) :
    (eventsBefore i (appAlarmMotionTimeOutTrigger date ulMotionTimeOffCount table).2).length =
      (dueBefore i date ulMotionTimeOffCount table).length := by
  rw [eventsBefore, appAlarmMotionTimeOutTrigger, dueBefore]
  induction List.finRange maxIrCode with
  | nil => rfl
  | cons j slots ih =>
    by_cases hdue : (table.get j).TimesOut date ulMotionTimeOffCount <;> by_cases hlt : j < i
    all_goals simpa [hdue, hlt] using ih

end IrRemote
