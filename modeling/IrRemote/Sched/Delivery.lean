import IrRemote.Library.WorkQueue
import IrRemote.Sched.Ring

/-!
# What the scheduler delivers

Every accepted event is handed to its handler once, whole and in its order, and it stays whole
while the handler runs. A put is refused when the queue is full and not otherwise, and seen from
outside the ring is a `WorkQueue`, as the models of the commands and of the clock have it.

## Main definitions

* `Delivers` — what is promised of every state
* `SchedSystem.writesLeft`, `SchedSystem.executesLeft` — the steps that are left
* `Tracks`, `Implements` — the queue that the scheduler implements

## Main results

* `scheduler_delivers`, `scheduler_accepts`, `scheduler_drains` — deliveries, refusals and the
  end of the main loop
* `scheduler_implements_queue` — the ring behaves like the queue
-/

set_option autoImplicit false

namespace IrRemote

variable {η : Type*}

/-! ## Delivery -/

section Delivery

variable {s : SchedSystem η} {eventSize queueSize : BitVec 16} {pEventBuffer : ℕ}
  {memory scheduler : Scheduler η}

/-- The events that were handled are the accepted ones in their order, and while a handler runs,
its event lies where the pointer that it got leads to. -/
structure Delivers (s : SchedSystem η) : Prop where
  executed : s.executed <+: s.accepted
  called : ∀ eventIndex eventDataSize handler,
    s.executing = .called eventIndex eventDataSize handler →
      s.accepted[s.executed.length]? = some (s.scheduler.eventAt eventIndex eventDataSize handler)

/-- Every accepted event is handed to its handler once, whole and in order, whatever interrupts
put meanwhile. The indices of the ring are bytes, so it has at most 255 places; that of the firmware
has 24. -/
theorem scheduler_delivers (hsize : queueSize.toNat ≤ 255)
    (hinit : memory.appSchedInit eventSize queueSize pEventBuffer = (.nrfSuccess, scheduler))
    (steps : List (SchedStep η)) : Delivers (runSched steps (.boot scheduler)) := by
  have h := (schedInv_boot hsize hinit).run steps
  refine ⟨h.executed, fun eventIndex eventDataSize handler hcalled => ?_⟩
  rw [← h.eventAt_called hcalled, SchedSystem.pending, List.head?_drop]

theorem sizes_of_init
    (hinit : memory.appSchedInit eventSize queueSize pEventBuffer = (.nrfSuccess, scheduler)) :
    scheduler.mQueueSize = queueSize ∧ scheduler.mQueueEventSize = eventSize := by
  rw [Scheduler.appSchedInit] at hinit
  split_ifs at hinit
  · cases hinit
  · obtain rfl := (Prod.mk.inj hinit).2
    exact ⟨rfl, rfl⟩

/-- The ring of the firmware, with the addresses of the handlers. -/
def bootedRing : Scheduler (BitVec 32) where
  mQueueEventHeaders _ := ⟨0, 0⟩
  mQueueEventData _ := 0xAA
  mQueueStartIndex := 0
  mQueueEndIndex := 0
  mQueueEventSize := 24
  mQueueSize := 24

theorem bootedRing_init :
    bootedRing.appSchedInit 24 24 0x20002000 = (.nrfSuccess, bootedRing) := rfl

/-- The put of a command is interrupted by that of a tick, and then both are handled. -/
def interruptedPut : List (SchedStep (BitVec 32)) :=
  [.put ⟨some fun o => BitVec.ofNat 8 (o + 0x30), 3, 0x1000⟩, .write, .put ⟨none, 4, 0x2000⟩] ++
    List.replicate 5 .write ++ List.replicate 8 .execute

theorem scheduler_delivers_interrupted :
    (runSched interruptedPut (.boot bootedRing)).executed =
        [⟨0x1000, [0x30, 0x31, 0x32]⟩, ⟨0x2000, []⟩] ∧
      Delivers (runSched interruptedPut (.boot bootedRing)) :=
  ⟨by decide, scheduler_delivers (by decide) bootedRing_init interruptedPut⟩

/-- In a ring of at most 255 places a put is refused exactly when it is too long or when as many
events as the queue has places are pending, and then it changes nothing.
`app_sched_queue_space_get` tells the free places. -/
theorem scheduler_accepts (hsize : queueSize.toNat ≤ 255)
    (hinit : memory.appSchedInit eventSize queueSize pEventBuffer = (.nrfSuccess, scheduler))
    (steps : List (SchedStep η)) (r : PutRequest η) :
    let s := runSched steps (.boot scheduler)
    let free := s.scheduler.appSchedQueueSpaceGet.toNat
    free + (s.accepted.length - s.executed.length) = queueSize.toNat ∧
      ((s.put r).1 = .nrfSuccess ↔ r.eventDataSize.toNat ≤ eventSize.toNat ∧ 0 < free) ∧
      ((s.put r).1 = .nrfSuccess → (s.put r).2.accepted = s.accepted ++ [r.event]) ∧
      ((s.put r).1 ≠ .nrfSuccess → (s.put r).2 = s) := by
  intro s free
  have hboot := schedInv_boot hsize hinit
  have h : SchedInv s := hboot.run steps
  obtain ⟨hqueue, hevent⟩ := hboot.run_sizes steps
  obtain ⟨hqueue', hevent'⟩ := sizes_of_init hinit
  have hlength : s.accepted.length - s.executed.length = s.pending.length :=
    (List.length_drop ..).symm
  have hqueueSize : s.scheduler.mQueueSize = queueSize := hqueue.trans hqueue'
  have heventSize : s.scheduler.mQueueEventSize = eventSize := hevent.trans hevent'
  have hfree : free = queueSize.toNat - s.pending.length := by
    rw [← hqueueSize]
    exact h.toNat_appSchedQueueSpaceGet
  have hle : s.pending.length ≤ queueSize.toNat := hqueueSize ▸ h.length_le
  have hiff : s.Fits r ↔ r.eventDataSize.toNat ≤ eventSize.toNat ∧ 0 < free := by
    rw [SchedSystem.Fits, hqueueSize, heventSize, hfree, Nat.sub_pos_iff_lt]
  refine ⟨by rw [hfree, hlength, Nat.sub_add_cancel hle], ?_⟩
  rw [← hiff]
  have hsuccess := h.put_eq_nrfSuccess_iff r
  refine ⟨hsuccess, fun h' => ?_, fun h' => ?_⟩
  · rw [h.put_of_fits (hsuccess.mp h')]
    rfl
  · rw [h.put_of_not_fits (mt hsuccess.mpr h')]

theorem scheduler_accepts_interrupted :
    let s := runSched (interruptedPut.take 3) (.boot bootedRing)
    let free := s.scheduler.appSchedQueueSpaceGet.toNat
    let r : PutRequest (BitVec 32) := ⟨none, 25, 0x3000⟩
    free + (s.accepted.length - s.executed.length) = (24 : BitVec 16).toNat ∧
      ((s.put r).1 = .nrfSuccess ↔ r.eventDataSize.toNat ≤ (24 : BitVec 16).toNat ∧ 0 < free) ∧
      ((s.put r).1 = .nrfSuccess → (s.put r).2.accepted = s.accepted ++ [r.event]) ∧
      ((s.put r).1 ≠ .nrfSuccess → (s.put r).2 = s) :=
  scheduler_accepts (by decide) bootedRing_init (interruptedPut.take 3) ⟨none, 25, 0x3000⟩

/-! ## The main loop without interrupts -/

/-- The statements of the open puts that are left. -/
def SchedSystem.writesLeft (s : SchedSystem η) : ℕ :=
  (s.openPuts.map fun p =>
    match p.stage with
    | .handler => 3
    | .data => 2
    | .size => 1).sum

/-- The steps of `app_sched_execute` that the pending events take. -/
def SchedSystem.executesLeft (s : SchedSystem η) : ℕ :=
  4 * s.pending.length -
    match s.executing with
    | .test => 0
    | .indexed .. => 1
    | .sized .. => 2
    | .called .. => 3

theorem openPuts_of_writes (s : SchedSystem η) :
    let t := runSched (List.replicate s.writesLeft .write) s
    t.openPuts = [] ∧ t.executing = s.executing ∧ t.accepted = s.accepted ∧
      t.executed = s.executed := by
  induction hleft : s.writesLeft generalizing s with
  | zero =>
    refine ⟨?_, rfl, rfl, rfl⟩
    cases hputs : s.openPuts with
    | nil => exact hputs
    | cons p openPuts =>
      -- a put that is open has a statement left
      rw [SchedSystem.writesLeft, hputs, List.map_cons, List.sum_cons] at hleft
      have hzero := (Nat.add_eq_zero_iff.mp hleft).1
      split at hzero <;> cases hzero
  | succ n ih =>
    cases hputs : s.openPuts with
    | nil =>
      rw [SchedSystem.writesLeft, hputs] at hleft
      cases hleft
    | cons p openPuts =>
      have hwrite : s.write =
          { s with scheduler := p.write s.scheduler, openPuts := p.next.toList ++ openPuts } := by
        rw [SchedSystem.write, hputs]
      have hstep : s.write.writesLeft = n := by
        rw [hwrite, SchedSystem.writesLeft]
        rw [SchedSystem.writesLeft, hputs] at hleft
        obtain ⟨r, i, stage⟩ := p
        cases stage <;> simp [OpenPut.next] at hleft ⊢ <;> omega
      obtain ⟨hopen, hexecuting, haccepted, hexecuted⟩ := ih s.write hstep
      have hkeeps : s.write.executing = s.executing ∧ s.write.accepted = s.accepted ∧
          s.write.executed = s.executed := by
        rw [hwrite]
        exact ⟨rfl, rfl, rfl⟩
      exact ⟨hopen, hexecuting.trans hkeeps.1, haccepted.trans hkeeps.2.1,
        hexecuted.trans hkeeps.2.2⟩

theorem SchedInv.of_executesLeft_eq_zero {s : SchedSystem η} (h : SchedInv s)
    (hleft : s.executesLeft = 0) : s.pending = [] ∧ s.executing = .test := by
  have hbusy : ¬s.Busy := by
    intro hbusy
    have hpos := List.length_pos_iff.mpr (h.first hbusy).1
    rw [SchedSystem.executesLeft] at hleft
    split at hleft
    · exact hbusy ‹_›
    all_goals omega
  have htest : s.executing = .test := not_not.mp hbusy
  rw [SchedSystem.executesLeft, htest] at hleft
  change 4 * s.pending.length = 0 at hleft
  exact ⟨List.length_eq_zero_iff.mp (by omega), htest⟩

/-- One step less is left. -/
theorem SchedInv.executesLeft_execute {s : SchedSystem η} (h : SchedInv s) {n : ℕ}
    (hleft : s.executesLeft = n + 1) :
    s.execute.executesLeft = n ∧ s.execute.openPuts = s.openPuts ∧
      s.execute.accepted = s.accepted := by
  rw [SchedSystem.executesLeft] at hleft
  cases hexec : s.executing with
  | test =>
    rw [hexec] at hleft
    -- something is left to be done, so the queue is not empty
    have hempty : s.scheduler.appSchedQueueEmpty = false := by
      refine Bool.eq_false_iff.mpr fun hempty => ?_
      rw [h.appSchedQueueEmpty_iff.mp hempty] at hleft
      cases hleft
    have hstep : s.execute =
        { s with executing := .indexed s.scheduler.mQueueStartIndex.toNat } := by
      rw [SchedSystem.execute, hexec]
      exact if_neg (Bool.eq_false_iff.mp hempty)
    rw [hstep]
    refine ⟨?_, rfl, rfl⟩
    change 4 * s.pending.length - 1 = n
    exact Nat.pred_eq_of_eq_succ hleft
  | indexed i =>
    rw [hexec] at hleft
    rw [SchedSystem.execute, hexec]
    refine ⟨?_, rfl, rfl⟩
    change 4 * s.pending.length - 2 = n
    exact Nat.pred_eq_of_eq_succ hleft
  | sized i k =>
    rw [hexec] at hleft
    rw [SchedSystem.execute, hexec]
    refine ⟨?_, rfl, rfl⟩
    change 4 * s.pending.length - 3 = n
    exact Nat.pred_eq_of_eq_succ hleft
  | called i k handler =>
    rw [hexec] at hleft
    have hpending : s.execute.pending = s.pending.tail := by
      apply SchedSystem.pending_return (e := s.scheduler.eventAt i k handler)
      · rw [SchedSystem.execute, hexec]
      · rw [SchedSystem.execute, hexec]
    refine ⟨?_, ?_, ?_⟩
    · have htest : s.execute.executing = .test := by rw [SchedSystem.execute, hexec]
      rw [SchedSystem.executesLeft, htest, hpending, List.length_tail]
      change 4 * s.pending.length - 3 = n + 1 at hleft
      change 4 * (s.pending.length - 1) = n
      omega
    · rw [SchedSystem.execute, hexec]
    · rw [SchedSystem.execute, hexec]

theorem SchedInv.pending_of_executes {s : SchedSystem η} (h : SchedInv s)
    (hputs : s.openPuts = []) :
    let t := runSched (List.replicate s.executesLeft .execute) s
    t.pending = [] ∧ t.executing = .test ∧ t.accepted = s.accepted := by
  induction hleft : s.executesLeft generalizing s with
  | zero =>
    obtain ⟨hpending, htest⟩ := h.of_executesLeft_eq_zero hleft
    exact ⟨hpending, htest, rfl⟩
  | succ n ih =>
    obtain ⟨hn, hopen, haccepted⟩ := h.executesLeft_execute hleft
    have hstep : schedStep s .execute = s.execute := if_pos (List.isEmpty_iff.mpr hputs)
    rw [List.replicate_succ, runSched, List.foldl_cons, hstep]
    obtain ⟨hpending, htest, haccepted'⟩ := ih (h.execute hputs) (hopen.trans hputs) hn
    exact ⟨hpending, htest, haccepted'.trans haccepted⟩

/-- When no more events are put into a ring of at most 255 places, the open puts return and then
`app_sched_execute` comes to its end, with every accepted event handled. -/
theorem scheduler_drains (hsize : queueSize.toNat ≤ 255)
    (hinit : memory.appSchedInit eventSize queueSize pEventBuffer = (.nrfSuccess, scheduler))
    (steps : List (SchedStep η)) :
    let s := runSched steps (.boot scheduler)
    let t := runSched (List.replicate s.executesLeft .execute)
      (runSched (List.replicate s.writesLeft .write) s)
    t.executed = s.accepted ∧ t.executing = .test ∧ t.scheduler.appSchedQueueEmpty = true := by
  intro s t
  have h : SchedInv s := (schedInv_boot hsize hinit).run steps
  obtain ⟨hputs, hexecuting, haccepted, hexecuted⟩ := openPuts_of_writes s
  have hwritten := h.run (List.replicate s.writesLeft .write)
  have hleft : (runSched (List.replicate s.writesLeft .write) s).executesLeft =
      s.executesLeft := by
    rw [SchedSystem.executesLeft, SchedSystem.executesLeft, SchedSystem.pending, hexecuting,
      haccepted, hexecuted, SchedSystem.pending]
  obtain ⟨hpending, htest, haccepted'⟩ := hwritten.pending_of_executes hputs
  rw [hleft] at hpending htest haccepted'
  have ht : SchedInv t := hwritten.run _
  refine ⟨?_, htest, ht.appSchedQueueEmpty_iff.mpr hpending⟩
  rw [← haccepted, ← haccepted']
  exact ht.executed.eq_of_length_le (List.drop_eq_nil_iff.mp hpending)

theorem scheduler_drains_interrupted :
    let s := runSched (interruptedPut.take 3) (.boot bootedRing)
    let t := runSched (List.replicate s.executesLeft .execute)
      (runSched (List.replicate s.writesLeft .write) s)
    t.executed = s.accepted ∧ t.executing = .test ∧ t.scheduler.appSchedQueueEmpty = true :=
  scheduler_drains (by decide) bootedRing_init (interruptedPut.take 3)

/-! ## The ring as a queue -/

/-- What the users of the scheduler see of it: events are put, the handler of the first one is
called, and it returns. -/
inductive FifoStep (η : Type*) where
  | put (r : PutRequest η)
  | start
  | finish

/-- A queue of so many places and events of so many bytes. -/
def fifoStep (eventSize queueSize : ℕ) (q : WorkQueue (ScheduledEvent η)) :
    FifoStep η → WorkQueue (ScheduledEvent η)
  | .put r =>
    if r.eventDataSize.toNat ≤ eventSize ∧ q.pending.length < queueSize then q.push r.event else q
  | .start => q.start
  | .finish => q.finish

/-- What a statement of `app_sched_execute` is to the queue. -/
def ExecuteStage.fifoSteps : ExecuteStage η → List (FifoStep η)
  | .sized .. => [.start]
  | .called .. => [.finish]
  | .test | .indexed .. => []

/-- The steps of the queue that a step of the scheduler stands for. -/
def SchedSystem.fifoSteps (s : SchedSystem η) : SchedStep η → List (FifoStep η)
  | .put r => [.put r]
  | .write => []
  | .execute => if s.openPuts.isEmpty then s.executing.fifoSteps else []

/-- The steps of the queue that a run stands for. -/
def runFifoSteps : List (SchedStep η) → SchedSystem η → List (FifoStep η)
  | [], _ => []
  | a :: steps, s => s.fifoSteps a ++ runFifoSteps steps (schedStep s a)

/-- The handler of the first event is running. -/
def SchedSystem.running (s : SchedSystem η) : Bool :=
  match s.executing with
  | .called .. => true
  | .test | .indexed .. | .sized .. => false

/-- The queue has the accepted events that are left. -/
structure Tracks (s : SchedSystem η) (q : WorkQueue (ScheduledEvent η)) : Prop where
  pending : q.pending = s.pending
  running : q.running = s.running

/-- A step of `app_sched_execute` calls the handler, returns from it or is not seen. -/
theorem Tracks.execute {s : SchedSystem η} {q : WorkQueue (ScheduledEvent η)} {n c : ℕ}
    (hq : Tracks s q) (h : SchedInv s) :
    Tracks s.execute (s.executing.fifoSteps.foldl (fifoStep n c) q) := by
  have hrunning := hq.running
  rw [SchedSystem.running] at hrunning
  cases hexec : s.executing with
  | test =>
    rw [hexec] at hrunning
    rw [SchedSystem.execute, hexec]
    change Tracks (if _ then _ else _) q
    split_ifs
    · exact hq
    · exact ⟨hq.pending, hrunning⟩
  | indexed i =>
    rw [hexec] at hrunning
    rw [SchedSystem.execute, hexec]
    exact ⟨hq.pending, hrunning⟩
  | sized i k =>
    have hbusy : s.Busy := by
      rw [SchedSystem.Busy, hexec]
      intro htest
      cases htest
    have hne := (h.first hbusy).1
    rw [SchedSystem.execute, hexec]
    refine ⟨hq.pending, ?_⟩
    change (!q.pending.isEmpty) = true
    rw [hq.pending, Bool.not_eq_true', List.isEmpty_eq_false_iff]
    exact hne
  | called i k handler =>
    rw [hexec] at hrunning
    have hpending : s.execute.pending = s.pending.tail := by
      apply SchedSystem.pending_return (e := s.scheduler.eventAt i k handler)
      · rw [SchedSystem.execute, hexec]
      · rw [SchedSystem.execute, hexec]
    have htest : s.execute.running = false := by
      rw [SchedSystem.running, SchedSystem.execute, hexec]
    change Tracks s.execute q.finish
    rw [WorkQueue.finish, if_pos hrunning]
    exact ⟨by rw [hpending, ← hq.pending], htest.symm⟩

theorem Tracks.step {s : SchedSystem η} {q : WorkQueue (ScheduledEvent η)}
    (hq : Tracks s q) (h : SchedInv s) (a : SchedStep η) :
    Tracks (schedStep s a)
      ((s.fifoSteps a).foldl
        (fifoStep s.scheduler.mQueueEventSize.toNat s.scheduler.mQueueSize.toNat) q) := by
  cases a with
  | put r =>
    change Tracks (s.put r).2 (if _ ∧ q.pending.length < _ then _ else _)
    rw [hq.pending]
    change Tracks (s.put r).2 (if s.Fits r then _ else _)
    split_ifs with hfits
    · rw [h.put_of_fits hfits]
      exact ⟨by rw [h.pending_accept, ← hq.pending]; rfl, hq.running⟩
    · rw [h.put_of_not_fits hfits]
      exact hq
  | write =>
    change Tracks s.write q
    rw [SchedSystem.write]
    split
    · exact hq
    · exact ⟨hq.pending, hq.running⟩
  | execute =>
    rw [schedStep, SchedSystem.fifoSteps]
    by_cases hputs : s.openPuts.isEmpty
    · rw [if_pos hputs, if_pos hputs]
      exact hq.execute h
    · rw [if_neg hputs, if_neg hputs]
      exact hq

theorem Tracks.run {s : SchedSystem η} {q : WorkQueue (ScheduledEvent η)}
    (hq : Tracks s q) (h : SchedInv s) (steps : List (SchedStep η)) :
    Tracks (runSched steps s)
      ((runFifoSteps steps s).foldl
        (fifoStep s.scheduler.mQueueEventSize.toNat s.scheduler.mQueueSize.toNat) q) := by
  induction steps generalizing s q with
  | nil => exact hq
  | cons a steps ih =>
    obtain ⟨hsize, heventSize⟩ := h.step_sizes a
    have hrest := ih (hq.step h a) (h.step a)
    rw [hsize, heventSize] at hrest
    rw [runFifoSteps, List.foldl_append]
    exact hrest

/-- The queue that the scheduler implements. An event lies at its place, with its handler and its
bytes, when its put has returned, and is what a handler gets. -/
structure Implements (s : SchedSystem η) (q : WorkQueue (ScheduledEvent η)) : Prop where
  pending : q.pending = s.pending
  running : q.running = s.running
  stored : ∀ k e, q.pending[k]? = some e →
    (∀ p ∈ s.openPuts, p.eventIndex ≠ s.scheduler.placeOf k) →
      s.scheduler.storedAt (s.scheduler.placeOf k) = e
  called : ∀ eventIndex eventDataSize handler,
    s.executing = .called eventIndex eventDataSize handler →
      q.pending.head? = some (s.scheduler.eventAt eventIndex eventDataSize handler)
  accepts : ∀ r : PutRequest η, (s.put r).1 = .nrfSuccess ↔
    r.eventDataSize.toNat ≤ s.scheduler.mQueueEventSize.toNat ∧
      q.pending.length < s.scheduler.mQueueSize.toNat

/-- The places and the answers come from the invariant of the ring. -/
theorem SchedInv.implements {s : SchedSystem η} {q : WorkQueue (ScheduledEvent η)}
    (h : SchedInv s) (hq : Tracks s q) : Implements s q := by
  refine ⟨hq.pending, hq.running, fun k e hk hputs => ?_, fun i n handler hcalled => ?_,
    fun r => ?_⟩
  · exact h.storedAt (hq.pending ▸ hk) (stageAt_eq_none hputs)
  · rw [hq.pending]
    exact h.eventAt_called hcalled
  · rw [hq.pending]
    exact h.put_eq_nrfSuccess_iff r

/-- What the users of the scheduler see is a bounded queue: neither the ring, which has at most 255
places (24 in the firmware), nor the parts of a put show in any run. -/
theorem scheduler_implements_queue (hsize : queueSize.toNat ≤ 255)
    (hinit : memory.appSchedInit eventSize queueSize pEventBuffer = (.nrfSuccess, scheduler))
    (steps : List (SchedStep η)) :
    Implements (runSched steps (.boot scheduler))
      ((runFifoSteps steps (.boot scheduler)).foldl (fifoStep eventSize.toNat queueSize.toNat)
        .empty) := by
  obtain ⟨hqueue, hevent⟩ := sizes_of_init hinit
  have hboot := schedInv_boot hsize hinit
  have hrun := Tracks.run (q := .empty) ⟨rfl, rfl⟩ hboot steps
  change Tracks _ (List.foldl (fifoStep scheduler.mQueueEventSize.toNat
    scheduler.mQueueSize.toNat) _ _) at hrun
  rw [hqueue, hevent] at hrun
  exact (hboot.run steps).implements hrun

theorem scheduler_implements_queue_interrupted :
    Implements (runSched interruptedPut (.boot bootedRing))
      ((runFifoSteps interruptedPut (.boot bootedRing)).foldl
        (fifoStep (24 : BitVec 16).toNat (24 : BitVec 16).toNat) .empty) :=
  scheduler_implements_queue (by decide) bootedRing_init interruptedPut

end Delivery

end IrRemote
