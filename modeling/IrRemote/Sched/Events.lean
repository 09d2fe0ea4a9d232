import Mathlib.Data.List.Basic

/-!
# The events of the scheduler

The handlers that the firmware puts into the queue of the scheduler, with the data of their
events, and `app_sched_event_put` as its callers see it: an event that is too long, or that finds
the queue full, is dropped, and none of them looks at the error code.

## Main definitions

* `SchedHandler` — the handlers with their data
* `SchedAccepts`, `schedEventPut` — what the queue takes
-/

set_option autoImplicit false

namespace IrRemote

/-- `SCHED_MAX_EVENT_DATA_SIZE`. -/
def schedMaxEventDataSize : ℕ := 24
/-- `SCHED_QUEUE_SIZE`. -/
def schedQueueSize : ℕ := 24

/-- The handlers of the events, with the data that the event holds. -/
inductive SchedHandler where
  | midKeyHandler
  | midRTCHandle
  | midDecodeRTCSet (pEventData : List (BitVec 8))
  | midDecodeTimeBasedScheduling (pData : List (BitVec 8))
  | appControlStartEmitIR (pData : List (BitVec 8))
  | appControlStartEmitIRWithID (uwIrCode : BitVec 8)
  deriving DecidableEq, Repr

/-- `event_data_size`. A tick is put with `sizeof(NULL)`. -/
def SchedHandler.eventDataSize : SchedHandler → ℕ
  | .midKeyHandler => 0
  | .midRTCHandle => 4
  | .midDecodeRTCSet pEventData => pEventData.length
  | .midDecodeTimeBasedScheduling pData => pData.length
  | .appControlStartEmitIR pData => pData.length
  | .appControlStartEmitIRWithID _ => 1

/-- An event of so many bytes is accepted behind so many others. -/
def SchedAccepts (eventDataSize pending : ℕ) : Prop :=
  eventDataSize ≤ schedMaxEventDataSize ∧ pending < schedQueueSize

instance (eventDataSize pending : ℕ) : Decidable (SchedAccepts eventDataSize pending) :=
  inferInstanceAs (Decidable (_ ∧ _))

/-- `app_sched_event_put`. -/
def schedEventPut (handler : SchedHandler) (queue : List SchedHandler) : List SchedHandler :=
  if SchedAccepts handler.eventDataSize queue.length then queue ++ [handler] else queue

variable {handler : SchedHandler} {queue : List SchedHandler}

theorem schedEventPut_of_accepts (h : SchedAccepts handler.eventDataSize queue.length) :
    schedEventPut handler queue = queue ++ [handler] := if_pos h

theorem schedEventPut_of_not_accepts (h : ¬SchedAccepts handler.eventDataSize queue.length) :
    schedEventPut handler queue = queue := if_neg h

/-- The queue grows by at most one event. -/
theorem schedEventPut_eq_or (handler : SchedHandler) (queue : List SchedHandler) :
    schedEventPut handler queue = queue ∨
      schedEventPut handler queue = queue ++ [handler] ∧
        SchedAccepts handler.eventDataSize queue.length := by
  by_cases haccepts : SchedAccepts handler.eventDataSize queue.length
  · exact .inr ⟨schedEventPut_of_accepts haccepts, haccepts⟩
  · exact .inl (schedEventPut_of_not_accepts haccepts)

end IrRemote
