import Mathlib.Data.List.Basic

/-!
# The scheduler

The event queue of `app_scheduler.c`. An event is put in two parts: its place is reserved in a
critical region, and the header and the data are written behind it, where interrupts may put
events of their own. `app_sched_execute` runs in the main loop only. It calls the handler with a
pointer into the queue and frees the place when the handler has returned.

## Main definitions

* `Scheduler` — the arrays and the indices
* `Scheduler.reserve`, `OpenPut.write` — the parts of `app_sched_event_put`
* `SchedSystem`, `schedStep` — the puts that are open and the position in `app_sched_execute`
-/

set_option autoImplicit false

namespace IrRemote

/-- `event_header_t`. -/
structure EventHeader (η : Type*) where
  handler : η
  eventDataSize : BitVec 16

/-- The variables of the scheduler. The arrays are given by index. -/
structure Scheduler (η : Type*) where
  mQueueEventHeaders : ℕ → EventHeader η
  mQueueEventData : ℕ → BitVec 8
  mQueueStartIndex : BitVec 8
  mQueueEndIndex : BitVec 8
  mQueueEventSize : BitVec 16
  mQueueSize : BitVec 16

/-- The return codes of the scheduler. -/
inductive SchedRetCode where
  | nrfSuccess
  | nrfErrorNoMem
  | nrfErrorInvalidLength
  | nrfErrorInvalidParam
  deriving DecidableEq, Repr

namespace Scheduler

variable {η : Type*}

/-- `next_index`. -/
def nextIndex (s : Scheduler η) (index : BitVec 8) : BitVec 8 :=
  if index.toNat < s.mQueueSize.toNat then index + 1 else 0

/-- `app_sched_queue_full`. -/
def appSchedQueueFull (s : Scheduler η) : Bool :=
  s.nextIndex s.mQueueEndIndex = s.mQueueStartIndex

/-- `app_sched_queue_empty`. -/
def appSchedQueueEmpty (s : Scheduler η) : Bool := s.mQueueEndIndex = s.mQueueStartIndex

/-- `app_sched_init`. The arrays hold what lies in the buffer. -/
def appSchedInit (eventSize queueSize : BitVec 16) (pEventBuffer : ℕ) (s : Scheduler η) :
    SchedRetCode × Scheduler η :=
  if pEventBuffer % 4 ≠ 0 then (.nrfErrorInvalidParam, s)
  else
    (.nrfSuccess,
      { s with
        mQueueEndIndex := 0
        mQueueStartIndex := 0
        mQueueEventSize := eventSize
        mQueueSize := queueSize })

/-- `app_sched_queue_space_get`. -/
def appSchedQueueSpaceGet (s : Scheduler η) : BitVec 16 :=
  let startIndex := s.mQueueStartIndex.setWidth 16
  let endIndex := s.mQueueEndIndex.setWidth 16
  s.mQueueSize -
    (if startIndex ≤ endIndex then endIndex - startIndex
      else s.mQueueSize + 1 - startIndex + endIndex)

end Scheduler

/-! ## Putting an event -/

/-- The arguments of `app_sched_event_put`. A pointer that is not NULL is given by what lies
behind it. -/
structure PutRequest (η : Type*) where
  pEventData : Option (ℕ → BitVec 8)
  eventDataSize : BitVec 16
  handler : η

/-- An event as its handler gets it. -/
structure ScheduledEvent (η : Type*) where
  handler : η
  data : List (BitVec 8)
  deriving DecidableEq

/-- The event that is put. Without a pointer it has no data, whatever the size is. -/
def PutRequest.event {η : Type*} (r : PutRequest η) : ScheduledEvent η where
  handler := r.handler
  data := r.pEventData.elim [] fun p => (List.range r.eventDataSize.toNat).map p

/-- The statements of `app_sched_event_put` behind the critical region. -/
inductive PutStage where
  | handler
  | data
  | size
  deriving DecidableEq, Repr

/-- A call of `app_sched_event_put` that has reserved its place, and the statement that is next. -/
structure OpenPut (η : Type*) where
  request : PutRequest η
  eventIndex : ℕ
  stage : PutStage

/-- `memcpy`. -/
def memcpy (dst : ℕ) (src : ℕ → BitVec 8) (n : ℕ) (mem : ℕ → BitVec 8) : ℕ → BitVec 8 :=
  fun a => if dst ≤ a ∧ a < dst + n then src (a - dst) else mem a

namespace Scheduler

variable {η : Type*}

/-- The part of `app_sched_event_put` up to the end of the critical region: the place, or the
error that is returned. -/
def reserve (r : PutRequest η) (s : Scheduler η) : Except SchedRetCode (ℕ × Scheduler η) :=
  if r.eventDataSize.toNat ≤ s.mQueueEventSize.toNat then
    if s.appSchedQueueFull then .error .nrfErrorNoMem
    else
      .ok (s.mQueueEndIndex.toNat, { s with mQueueEndIndex := s.nextIndex s.mQueueEndIndex })
  else .error .nrfErrorInvalidLength

/-- The header of a place is changed. -/
def updateHeader (i : ℕ) (f : EventHeader η → EventHeader η) (s : Scheduler η) : Scheduler η :=
  { s with
    mQueueEventHeaders := fun j =>
      if j = i then f (s.mQueueEventHeaders j) else s.mQueueEventHeaders j }

/-- The address of the data of a place. -/
def dataStart (i : ℕ) (s : Scheduler η) : ℕ := i * s.mQueueEventSize.toNat

/-- The first bytes of the data of a place. -/
def dataAt (i n : ℕ) (s : Scheduler η) : List (BitVec 8) :=
  (List.range n).map fun o => s.mQueueEventData (s.dataStart i + o)

/-- What a handler finds that is called for a place. -/
def eventAt (i : ℕ) (eventDataSize : BitVec 16) (handler : η) (s : Scheduler η) :
    ScheduledEvent η where
  handler := handler
  data := s.dataAt i eventDataSize.toNat

end Scheduler

namespace OpenPut

variable {η : Type*}

/-- The data is copied, when there is any. -/
def writeData (i : ℕ) (r : PutRequest η) (s : Scheduler η) : Scheduler η :=
  match r.pEventData with
  | some src =>
    if 0 < r.eventDataSize then
      { s with
        mQueueEventData :=
          memcpy (s.dataStart i) src r.eventDataSize.toNat s.mQueueEventData }
    else s
  | none => s

/-- The size that is written into the header. -/
def storedSize (r : PutRequest η) : BitVec 16 :=
  if r.pEventData.isSome ∧ 0 < r.eventDataSize then r.eventDataSize else 0

/-- The next statement of `app_sched_event_put`. -/
def write (p : OpenPut η) (s : Scheduler η) : Scheduler η :=
  match p.stage with
  | .handler => s.updateHeader p.eventIndex fun header =>
      { header with handler := p.request.handler }
  | .data => writeData p.eventIndex p.request s
  | .size => s.updateHeader p.eventIndex fun header =>
      { header with eventDataSize := storedSize p.request }

/-- The call behind its next statement, which may be the last one. -/
def next (p : OpenPut η) : Option (OpenPut η) :=
  match p.stage with
  | .handler => some { p with stage := .data }
  | .data => some { p with stage := .size }
  | .size => none

end OpenPut

/-! ## The system -/

/-- The position in `app_sched_execute` and the variables that are set there. -/
inductive ExecuteStage (η : Type*) where
  /-- At the condition of the loop, or outside of the function. -/
  | test
  | indexed (eventIndex : ℕ)
  | sized (eventIndex : ℕ) (eventDataSize : BitVec 16)
  /-- The handler is running. -/
  | called (eventIndex : ℕ) (eventDataSize : BitVec 16) (handler : η)

/-- The scheduler, the calls of `app_sched_event_put` that have not returned, of which each has
interrupted the next one, and the main loop. The last two fields record the run: the events
that were accepted, and those whose handlers have returned. -/
structure SchedSystem (η : Type*) where
  scheduler : Scheduler η
  openPuts : List (OpenPut η)
  executing : ExecuteStage η
  accepted : List (ScheduledEvent η)
  executed : List (ScheduledEvent η)

namespace SchedSystem

variable {η : Type*}

/-- Behind `app_sched_init`. -/
def boot (scheduler : Scheduler η) : SchedSystem η where
  scheduler := scheduler
  openPuts := []
  executing := .test
  accepted := []
  executed := []

/-- `app_sched_event_put` is called, by the main loop or by an interrupt. -/
def put (r : PutRequest η) (s : SchedSystem η) : SchedRetCode × SchedSystem η :=
  match s.scheduler.reserve r with
  | .error code => (code, s)
  | .ok (eventIndex, scheduler) =>
    (.nrfSuccess,
      { s with
        scheduler := scheduler
        openPuts := ⟨r, eventIndex, .handler⟩ :: s.openPuts
        accepted := s.accepted ++ [r.event] })

/-- The put that has interrupted the others goes on. -/
def write (s : SchedSystem η) : SchedSystem η :=
  match s.openPuts with
  | [] => s
  | p :: openPuts =>
    { s with scheduler := p.write s.scheduler, openPuts := p.next.toList ++ openPuts }

/-- `app_sched_execute` goes on. -/
def execute (s : SchedSystem η) : SchedSystem η :=
  match s.executing with
  | .test =>
    if s.scheduler.appSchedQueueEmpty then s
    else { s with executing := .indexed s.scheduler.mQueueStartIndex.toNat }
  | .indexed eventIndex =>
    { s with
      executing :=
        .sized eventIndex (s.scheduler.mQueueEventHeaders eventIndex).eventDataSize }
  | .sized eventIndex eventDataSize =>
    { s with
      executing :=
        .called eventIndex eventDataSize (s.scheduler.mQueueEventHeaders eventIndex).handler }
  | .called eventIndex eventDataSize handler =>
    { s with
      scheduler :=
        { s.scheduler with
          mQueueStartIndex := s.scheduler.nextIndex s.scheduler.mQueueStartIndex }
      executing := .test
      executed := s.executed ++ [s.scheduler.eventAt eventIndex eventDataSize handler] }

end SchedSystem

/-- A call of `app_sched_event_put`, or a statement of the call that was last, or of
`app_sched_execute`. -/
inductive SchedStep (η : Type*) where
  | put (r : PutRequest η)
  | write
  | execute

/-- The main loop does not go on in front of a put that has not returned. -/
def schedStep {η : Type*} (s : SchedSystem η) : SchedStep η → SchedSystem η
  | .put r => (s.put r).2
  | .write => s.write
  | .execute => if s.openPuts.isEmpty then s.execute else s

/-- A run of the scheduler. -/
def runSched {η : Type*} (steps : List (SchedStep η)) (s : SchedSystem η) : SchedSystem η :=
  steps.foldl schedStep s

end IrRemote
