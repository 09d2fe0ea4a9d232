import IrRemote.App.Safety
import IrRemote.Session.Attribution

/-!
# Requests to send a code

The app and the alarms ask for a code by an event of the scheduler, next to the ticks of the clock,
the scans of the keys and the other commands. An event that finds the queue full is dropped. The
events that were accepted are handled in their order, and none of them twice; a main loop that
nothing interrupts comes to each of them in a bounded number of steps.

## Main definitions

* `EmitRequest`, `RequestRecord`, `noteRequest` — the requests that were accepted and served
* `Firmware.waiting` — the events whose handlers have not run yet
* `Firmware.workLeft` — the steps to an empty queue
* `Firmware.NoOverrun` — the main loop will not overrun a buffer

## Main results

* `requests_in_order` — the served requests and those that wait are the accepted ones
* `requests_served` — a main loop that is not interrupted serves them all
-/

set_option autoImplicit false

namespace IrRemote

/-! ## The record of the requests -/

/-- A request to send a code: a write of the app, or an alarm that is due. -/
inductive EmitRequest where
  | app (pData : List (BitVec 8))
  | due (e : EmitEvent)

/-- The event of a request. -/
def EmitRequest.handler : EmitRequest → SchedHandler
  | .app pData => .appControlStartEmitIR pData
  | .due e => e.handler

/-- The handlers that send a code. -/
def SchedHandler.emits : SchedHandler → Bool
  | .appControlStartEmitIR _ | .appControlStartEmitIRWithID _ => true
  | .midKeyHandler | .midRTCHandle | .midDecodeRTCSet _ | .midDecodeTimeBasedScheduling _ => false

/-- The requests since the start that were accepted, and the events of those that were served. -/
structure RequestRecord where
  accepted : List EmitRequest
  served : List SchedHandler

/-- Nothing was requested since the start. -/
def RequestRecord.zero : RequestRecord := ⟨[], []⟩

namespace Firmware

variable (s : Firmware)

/-- The events whose handlers have not run yet. -/
def waiting : List SchedHandler :=
  match s.point with
  | .execute _ | .nextEvent => s.queue.tail
  | .process _ | .testQueue | .handle => s.queue

end Firmware

/-- What a step adds. -/
def noteRequest (a : FirmwareStep) (s _t : Firmware) (r : RequestRecord) : RequestRecord :=
  match a with
  | .write .irEmmit pData len =>
    let text := (List.range len.toNat).map pData
    if SchedAccepts (SchedHandler.appControlStartEmitIR text).eventDataSize s.queue.length then
      { r with accepted := r.accepted ++ [.app text] }
    else r
  | .sysTimer100ms =>
    { r with accepted := r.accepted ++ (acceptedEvents s.queue s.alarms100ms.2).map .due }
  | .sysTimer1000ms =>
    -- the tick of the clock is put first
    let ticked := schedEventPut .midRTCHandle s.queue
    { r with accepted := r.accepted ++ (acceptedEvents ticked s.alarms1000ms.2.2).map .due }
  | .main _ _ =>
    match s.point with
    | .handle => { r with served := r.served ++ s.queue.head?.toList.filter SchedHandler.emits }
    | _ => r
  | .reboot => .zero
  | _ => r

/-- The requests that were served and those that wait are the accepted ones, in their order. -/
def RequestsInOrder (r : Firmware × RequestRecord) : Prop :=
  r.2.served ++ r.1.waiting.filter SchedHandler.emits = r.2.accepted.map EmitRequest.handler

/-! ## What the queue accepts -/

namespace Firmware

variable {s t : Firmware} {handler : SchedHandler}

/-- New events wait behind the others. -/
theorem waiting_append (hqueue : s.point.handling = true → s.queue ≠ [])
    (queue : List SchedHandler) :
    ({ s with queue := s.queue ++ queue } : Firmware).waiting = s.waiting ++ queue := by
  unfold waiting
  dsimp only
  cases hpoint : s.point with
  | process pc | testQueue | handle => rfl
  | execute decoded | nextEvent =>
    rw [hpoint] at hqueue
    exact List.tail_append_of_ne_nil (hqueue rfl)

end Firmware

/-! ## The order -/

namespace RequestsInOrder

variable {s t : Firmware} {r : RequestRecord}

/-- A step that does not touch the queue outside of a handler. -/
theorem of_frame (h : RequestsInOrder (s, r)) (hpoint : t.point = s.point)
    (hqueue : t.queue = s.queue) : RequestsInOrder (t, r) := by
  rw [RequestsInOrder] at h ⊢
  dsimp only at h ⊢
  rw [Firmware.waiting, hpoint, hqueue]
  exact h

/-- Requests are accepted with their events. -/
theorem put (h : RequestsInOrder (s, r)) (hs : s.point.handling = true → s.queue ≠ [])
    (requests : List EmitRequest) :
    RequestsInOrder ({ s with queue := s.queue ++ requests.map EmitRequest.handler },
      { r with accepted := r.accepted ++ requests }) := by
  have hemits : (requests.map EmitRequest.handler).filter SchedHandler.emits =
      requests.map EmitRequest.handler := by
    refine List.filter_eq_self.mpr fun handler hmem => ?_
    obtain ⟨request, -, rfl⟩ := List.mem_map.mp hmem
    cases request <;> rfl
  rw [RequestsInOrder] at h ⊢
  dsimp only at h ⊢
  rw [Firmware.waiting_append hs, List.filter_append, hemits, ← List.append_assoc, h,
    List.map_append]

/-- Other events are put between the requests. -/
theorem putOther (h : RequestsInOrder (s, r)) (hs : s.point.handling = true → s.queue ≠ [])
    {handler : SchedHandler} (hemits : ¬handler.emits = true) :
    RequestsInOrder (s.appSchedEventPut handler, r) := by
  obtain ⟨queue, hput, rfl | ⟨rfl, -⟩⟩ := s.exists_appSchedEventPut handler
  · rw [hput]
    exact h
  · rw [hput]
    rw [RequestsInOrder] at h ⊢
    dsimp only at h ⊢
    rw [Firmware.waiting_append hs, List.filter_append, List.filter_cons_of_neg hemits,
      List.filter_nil, List.append_nil, h]

/-- The alarms that are due. -/
theorem putAlarms (h : RequestsInOrder (s, r)) (hs : s.point.handling = true → s.queue ≠ [])
    (events : List EmitEvent) :
    RequestsInOrder (s.putAlarms events,
      { r with accepted := r.accepted ++ (acceptedEvents s.queue events).map .due }) := by
  have hput := h.put hs ((acceptedEvents s.queue events).map .due)
  rw [List.map_map] at hput
  rw [Firmware.putAlarms, putEmitEvents_eq]
  exact hput

/-- The handler of the first event runs. -/
theorem handle (h : RequestsInOrder (s, r)) (hs : s.queue ≠ []) (hpoint : s.point = .handle)
    {sample : KeySample} {stale : ℕ → BitVec 8} (hmain : s.handle sample stale = some t) :
    RequestsInOrder (t, { r with served := r.served ++
      s.queue.head?.toList.filter SchedHandler.emits }) := by
  obtain ⟨hqueue, -, htpoint⟩ := Firmware.handle_queue hmain
  have hwaiting : s.waiting = s.queue := by
    rw [Firmware.waiting, hpoint]
  have htail : t.waiting = s.queue.tail := by
    rw [Firmware.waiting, hqueue]
    obtain hnext | ⟨decoded, hexecute⟩ := htpoint
    · rw [hnext]
    · rw [hexecute]
  rw [RequestsInOrder] at h ⊢
  dsimp only at h ⊢
  rw [← h, hwaiting, htail]
  -- the event that is handled no longer waits
  obtain ⟨handler, rest, hcons⟩ := List.exists_cons_of_ne_nil hs
  rw [hcons, List.head?_cons, Option.toList_some, List.tail_cons, List.append_assoc,
    ← List.filter_append, List.singleton_append]

/-- The main loop. -/
theorem main (h : RequestsInOrder (s, r)) (hs : s.point.handling = true → s.queue ≠ [])
    {sample : KeySample} {stale : ℕ → BitVec 8} (hmain : s.main sample stale = some t) :
    RequestsInOrder (t, noteRequest (.main sample stale) s t r) := by
  have horder : r.served ++ s.waiting.filter SchedHandler.emits =
      r.accepted.map EmitRequest.handler := h
  rw [Firmware.main] at hmain
  rw [noteRequest]
  rw [Firmware.waiting] at horder
  cases hpoint : s.point with
  | process pc =>
    rw [hpoint] at hmain horder
    obtain ⟨⟨pc', d'⟩, -, rfl⟩ := Option.map_eq_some_iff.mp hmain
    rw [RequestsInOrder]
    dsimp only [Firmware.waiting]
    split_ifs
    · exact horder
    · exact horder
  | testQueue =>
    rw [hpoint] at hmain horder
    obtain rfl := Option.some.inj hmain
    rw [RequestsInOrder]
    dsimp only [Firmware.waiting]
    split_ifs
    · exact horder
    · exact horder
  | handle =>
    rw [hpoint] at hmain hs
    exact h.handle (hs rfl) hpoint hmain
  | execute decoded =>
    rw [hpoint] at hmain horder
    obtain rfl := Option.some.inj hmain
    exact horder
  | nextEvent =>
    rw [hpoint] at hmain horder
    obtain rfl := Option.some.inj hmain
    exact horder

/-- A write of the app. -/
theorem onWrite (h : RequestsInOrder (s, r)) (hs : s.point.handling = true → s.queue ≠ [])
    (ubCommandIndex : CommandIndex) (pData : ℕ → BitVec 8) (len : BitVec 16) :
    RequestsInOrder (s.onWrite ubCommandIndex pData len,
      noteRequest (.write ubCommandIndex pData len) s t r) := by
  cases ubCommandIndex with
  | rtcSet => exact h.putOther hs Bool.false_ne_true
  | motTout =>
    have htype : RequestsInOrder ({ s with ubTriggerType := .timeoutType }, r) :=
      h.of_frame rfl rfl
    exact htype.putOther hs Bool.false_ne_true
  | schedule =>
    have htype : RequestsInOrder ({ s with ubTriggerType := .schedulingType }, r) :=
      h.of_frame rfl rfl
    exact htype.putOther hs Bool.false_ne_true
  | motSens | irLearn | irErase | battVol | feedBack => exact h.of_frame rfl rfl
  | irEmmit =>
    have hwrite : s.onWrite .irEmmit pData len = s.appSchedEventPut
        (.appControlStartEmitIR ((List.range len.toNat).map pData)) := rfl
    rw [hwrite, noteRequest, Firmware.appSchedEventPut]
    split_ifs with haccepts
    · rw [schedEventPut_of_accepts haccepts]
      exact h.put hs [.app ((List.range len.toNat).map pData)]
    · rw [schedEventPut_of_not_accepts haccepts]
      exact h

end RequestsInOrder

/-- The order, with what holds in every reachable state. -/
structure RequestInv (q : Firmware × RequestRecord) : Prop where
  safe : q.1.Inv
  order : RequestsInOrder q

namespace RequestInv

variable {q q' : Firmware × RequestRecord}

theorem firmwareAtBoot (irparamsAddress : BitVec 32) (flash : Flash) :
    RequestInv (firmwareAtBoot irparamsAddress flash, .zero) :=
  ⟨.firmwareAtBoot irparamsAddress flash, rfl⟩

/-- Every step. -/
theorem step {a : FirmwareStep} (h : RequestInv q)
    (hstep : FaultMachine.recorded firmwareStep noteRequest a q = some q') : RequestInv q' := by
  obtain ⟨s, r⟩ := q
  obtain ⟨t, r'⟩ := q'
  obtain ⟨hfirmware, hnote⟩ := FaultMachine.recorded_eq_some_iff.mp hstep
  dsimp only at hfirmware hnote
  obtain ⟨hsafe, horder⟩ := h
  have hs : s.point.handling = true → s.queue ≠ [] := hsafe.handling
  refine ⟨hsafe.step hfirmware, ?_⟩
  rw [hnote]
  cases a with
  | main sample stale => exact horder.main hs hfirmware
  | write ubCommandIndex pData len =>
    obtain rfl := Option.some.inj hfirmware
    exact horder.onWrite hs ubCommandIndex pData len
  | sample eventType tIRInputLevel =>
    obtain ⟨d, -, rfl⟩ := Option.map_eq_some_iff.mp hfirmware
    exact horder.of_frame rfl rfl
  | motion sample =>
    obtain rfl := Option.some.inj hfirmware
    exact horder.of_frame rfl rfl
  | sysTimer10ms =>
    obtain rfl := Option.some.inj hfirmware
    rw [Firmware.sysTimer10msCall]
    split_ifs
    · have hput : RequestsInOrder (s.appSchedEventPut .midKeyHandler, r) :=
        horder.putOther hs Bool.false_ne_true
      exact hput.of_frame rfl rfl
    · exact horder.of_frame rfl rfl
  | sysTimer100ms =>
    obtain rfl := Option.some.inj hfirmware
    have hcounted : RequestsInOrder ({ s with
        device := IrRemote.sysTimer100msCall s.device, alarm := s.alarms100ms.1 }, r) :=
      horder.of_frame rfl rfl
    exact hcounted.putAlarms hs s.alarms100ms.2
  | sysTimer1000ms =>
    obtain rfl := Option.some.inj hfirmware
    have hticked : RequestsInOrder (s.appSchedEventPut .midRTCHandle, r) :=
      horder.putOther hs Bool.false_ne_true
    have harmed : RequestsInOrder ({ (s.appSchedEventPut .midRTCHandle).withStores
        { s.stores with atIRDataTrigger := s.alarms1000ms.2.1 } with
          alarm := s.alarms1000ms.1 }, r) := hticked.of_frame rfl rfl
    exact harmed.putAlarms (hsafe.appSchedEventPut .midRTCHandle).handling s.alarms1000ms.2.2
  | reboot =>
    obtain rfl := Option.some.inj hfirmware
    rfl

theorem run {labels : List FirmwareStep} (h : RequestInv q)
    (hrun : FaultMachine.run (FaultMachine.recorded firmwareStep noteRequest) labels q =
      some q') : RequestInv q' :=
  FaultMachine.run_invariant (fun _ _ _ h hstep => h.step hstep) h hrun

end RequestInv

/-- In every run, the requests that were served since the start and then those that wait are the
accepted ones, each of them once and in the order in which they were accepted: those of the app
that found a place in the queue, and the first of the alarms that were due, as many as found one. -/
theorem requests_in_order (irparamsAddress : BitVec 32) (flash : Flash)
    (labels : List FirmwareStep) :
    FaultMachine.Throughout (FaultMachine.recorded firmwareStep noteRequest) RequestsInOrder labels
      (firmwareAtBoot irparamsAddress flash, .zero) := by
  refine FaultMachine.throughout_of_invariant RequestInv (fun a q q' h hstep => ?_) (fun q h => ?_)
    (.firmwareAtBoot irparamsAddress flash) labels
  · exact h.step hstep
  · exact h.order

/-! ## A main loop that is not interrupted -/

/-- The statements up to the end of `ProcessMain`, at most. -/
def Statement.stepsLeft : Statement → ℕ
  | .testStartLearn => 19
  | .testDetect => 18
  | .testProtocol => 17
  | .clearDetect _ => 16
  | .clearStartLearn _ => 15
  | .clearCountStart _ => 14
  | .insertCode | .notiFail => 13
  | .testEmit => 12
  | .clearEmit => 11
  | .testErase => 10
  | .removeCode => 9
  | .clearErase => 8
  | .handleKey => 7
  | .testScanDelay => 6
  | .decode => 5
  | .stopScan => 4
  | .resume => 3
  | .setScanDelay => 2
  | .setDetect => 1

/-- The steps up to the end of `ProcessMain` or of the first event. -/
def LoopPoint.stepsLeft : LoopPoint → ℕ
  | .process pc => 3 + pc.stepsLeft
  | .testQueue => 3
  | .handle => 2
  | .execute _ => 1
  | .nextEvent => 0

namespace Firmware

/-- The steps to an empty queue, at most. -/
def workLeft (s : Firmware) : ℕ := 4 * s.queue.length + s.point.stepsLeft

/-- The texts in the queue fit the buffer of their decoder, a frame that waits the array of the
universal decoder, and the protocols of the enabled codes have names. -/
structure NoOverrun (s : Firmware) : Prop where
  texts : ∀ pData, SchedHandler.midDecodeTimeBasedScheduling pData ∈ s.queue → pData.length < 16
  frame : s.device.scan.irparams.stateForISR = .stop →
    durations s.device.scan.irparams 3 ≠ none ∧ durations s.device.scan.irparams 4 ≠ none
  names : ProtocolsNamed s.codes

variable {s t : Firmware} {sample : KeySample} {stale : ℕ → BitVec 8}

theorem NoOverrun.not_overruns (h : s.NoOverrun) : ¬s.Overruns stale := by
  rintro (⟨-, hstop, hmark | hspace⟩ | ⟨-, pData, hhead, hlen⟩ | hnames)
  · exact (h.frame hstop).1 hmark
  · exact (h.frame hstop).2 hspace
  · exact absurd (h.texts pData (List.mem_of_head? hhead)) (Nat.not_lt.mpr hlen)
  · exact not_overrunsNames h.names stale hnames

end Firmware

/-- `ProcessMain` ends, or its end comes closer. -/
theorem stepsLeft_successors {pc pc' : Statement} (h : pc' ∈ pc.successors) :
    pc' = .testStartLearn ∨ pc'.stepsLeft < pc.stepsLeft := by
  revert h pc'
  cases pc with
  | clearDetect known | clearStartLearn known | clearCountStart known => cases known <;> decide
  | _ => decide

theorem Statement.stepsLeft_pos (pc : Statement) : 0 < pc.stepsLeft := by
  cases pc <;> simp [stepsLeft]

theorem LoopPoint.stepsLeft_le (point : LoopPoint) : point.stepsLeft ≤ 22 := by
  cases point with
  | process pc => cases pc <;> simp [stepsLeft, Statement.stepsLeft]
  | testQueue | handle | execute _ | nextEvent => simp [stepsLeft]

/-- A statement leaves the receiver record alone, or ends the frame in it. -/
theorem mainStatement_irparams {pc pc' : Statement} {d d' : DeviceState}
    (h : mainStatement pc d = some (pc', d')) :
    d'.scan.irparams = d.scan.irparams ∨ d'.scan.irparams.stateForISR ≠ .stop := by
  cases pc with
  | decode =>
    obtain ⟨found, decode, -, -, rfl⟩ := mainStatement_decode h
    exact .inl rfl
  | insertCode =>
    cases h
    obtain ⟨notis, hinsert⟩ := exists_insertDecodedCode d
    rw [hinsert]
    exact .inl rfl
  | resume =>
    cases h
    dsimp only
    rw [irRemoteResume]
    split_ifs with hstop
    · exact .inr fun hidle => by cases hidle
    · exact .inl rfl
  | _ =>
    cases h
    exact .inl rfl

namespace Firmware

variable {s t : Firmware} {sample : KeySample} {stale : ℕ → BitVec 8}

/-- The main loop puts no event, and overruns no array later. -/
theorem NoOverrun.main (h : s.NoOverrun) (hmain : s.main sample stale = some t) :
    t.NoOverrun := by
  have hnames := h.names.main hmain
  rw [Firmware.main] at hmain
  cases hpoint : s.point with
  | process pc =>
    rw [hpoint] at hmain
    obtain ⟨⟨pc', d'⟩, hstatement, rfl⟩ := Option.map_eq_some_iff.mp hmain
    refine ⟨h.texts, fun hstop => ?_, hnames⟩
    obtain hsame | hended := mainStatement_irparams hstatement
    · dsimp only at hstop ⊢
      rw [hsame] at hstop ⊢
      exact h.frame hstop
    · exact absurd hstop hended
  | handle =>
    rw [hpoint] at hmain
    obtain ⟨flag, value, hdevice⟩ := handle_device hmain
    refine ⟨(handle_queue hmain).1 ▸ h.texts, ?_, hnames⟩
    rw [hdevice]
    exact h.frame
  | nextEvent =>
    rw [hpoint] at hmain
    obtain rfl := Option.some.inj hmain
    exact ⟨fun pData hmem => h.texts pData (List.mem_of_mem_tail hmem), h.frame, hnames⟩
  | testQueue | execute _ =>
    rw [hpoint] at hmain
    obtain rfl := Option.some.inj hmain
    exact ⟨h.texts, h.frame, hnames⟩

/-- The main loop comes closer to an empty queue. -/
theorem workLeft_main (hmain : s.main sample stale = some t) :
    t.queue = [] ∨ t.workLeft < s.workLeft := by
  rw [Firmware.main] at hmain
  unfold workLeft
  cases hpoint : s.point with
  | process pc =>
    rw [hpoint] at hmain
    obtain ⟨⟨pc', d'⟩, hstatement, rfl⟩ := Option.map_eq_some_iff.mp hmain
    refine .inr (Nat.add_lt_add_left ?_ _)
    rw [LoopPoint.stepsLeft]
    dsimp only
    obtain hstart | hlt := stepsLeft_successors (mem_successors hstatement)
    · rw [if_pos hstart, LoopPoint.stepsLeft]
      exact Nat.lt_add_of_pos_right pc.stepsLeft_pos
    · split_ifs
      · exact Nat.lt_add_of_pos_right (Nat.zero_lt_of_lt hlt)
      · exact Nat.add_lt_add_left hlt 3
  | testQueue =>
    rw [hpoint] at hmain
    obtain rfl := Option.some.inj hmain
    dsimp only
    split_ifs with hempty
    · exact .inl (List.isEmpty_iff.mp hempty)
    · exact .inr (Nat.lt_succ_self _)
  | handle =>
    rw [hpoint] at hmain
    obtain ⟨hqueue, -, hnext | ⟨decoded, hexecute⟩⟩ := handle_queue hmain
    · rw [hqueue, hnext]
      exact .inr (Nat.lt_add_of_pos_right (by decide))
    · rw [hqueue, hexecute]
      exact .inr (Nat.lt_succ_self _)
  | execute decoded =>
    rw [hpoint] at hmain
    obtain rfl := Option.some.inj hmain
    exact .inr (Nat.lt_succ_self _)
  | nextEvent =>
    rw [hpoint] at hmain
    obtain rfl := Option.some.inj hmain
    cases hqueue : s.queue with
    | nil => exact .inl rfl
    | cons handler rest =>
      -- the event that leaves the queue makes up for the next one
      refine .inr ?_
      dsimp only [List.tail_cons, LoopPoint.stepsLeft]
      rw [List.length_cons]
      omega

/-- An empty queue stays empty. -/
theorem queue_main_of_nil (hmain : s.main sample stale = some t) (hnil : s.queue = []) :
    t.queue = [] := by
  rw [Firmware.main] at hmain
  cases hpoint : s.point with
  | process _ =>
    rw [hpoint] at hmain
    obtain ⟨_, -, rfl⟩ := Option.map_eq_some_iff.mp hmain
    exact hnil
  | handle =>
    rw [hpoint] at hmain
    exact (handle_queue hmain).1.trans hnil
  | nextEvent =>
    rw [hpoint] at hmain
    obtain rfl := Option.some.inj hmain
    exact congrArg List.tail hnil
  | testQueue | execute _ =>
    rw [hpoint] at hmain
    obtain rfl := Option.some.inj hmain
    exact hnil

end Firmware

/-- The main loop alone, with what it reads at each step. -/
def mainLoop (reads : List (KeySample × (ℕ → BitVec 8))) : List FirmwareStep :=
  reads.map fun x => .main x.1 x.2

/-- With enough steps the queue is empty, and no request was accepted in between. -/
theorem exists_run_mainLoop (reads : List (KeySample × (ℕ → BitVec 8)))
    {q : Firmware × RequestRecord} (hinv : q.1.Inv) (hsound : q.1.NoOverrun)
    (hwork : q.1.queue = [] ∨ q.1.workLeft ≤ reads.length) :
    ∃ q', FaultMachine.run (FaultMachine.recorded firmwareStep noteRequest) (mainLoop reads) q =
      some q' ∧ q'.1.queue = [] ∧ q'.2.accepted = q.2.accepted := by
  induction reads generalizing q with
  | nil =>
    refine ⟨q, rfl, ?_, rfl⟩
    obtain hnil | hzero := hwork
    · exact hnil
    · have hlen : 4 * q.1.queue.length ≤ 0 := (Nat.le_add_right _ _).trans hzero
      exact List.length_eq_zero_iff.mp (by omega)
  | cons x reads ih =>
    obtain ⟨t, hmain⟩ := hinv.exists_main x.1 x.2 hsound.not_overruns
    have hwork' : t.queue = [] ∨ t.workLeft ≤ reads.length := by
      obtain hnil | hle := hwork
      · exact .inl (Firmware.queue_main_of_nil hmain hnil)
      · exact (Firmware.workLeft_main hmain).imp_right fun hlt =>
          Nat.le_of_lt_succ (hlt.trans_le hle)
    obtain ⟨q', hrun, hnil, haccepted⟩ := ih
      (q := (t, noteRequest (.main x.1 x.2) q.1 t q.2)) (hinv.main x.1 x.2 hmain)
      (hsound.main hmain) hwork'
    refine ⟨q', FaultMachine.run_cons_of_eq ?_ hrun, hnil, haccepted.trans ?_⟩
    · exact FaultMachine.recorded_eq_some_iff.mpr ⟨hmain, rfl⟩
    · rw [noteRequest]
      split <;> rfl

/-- From any state that a run has come to and whose queue, frame and codes overrun no array, a main
loop that nothing interrupts serves every request that was accepted since the start, within four
steps for every event of the queue and 22 for the rest. The calls of the flash are taken to be done
at once: on the device `Mid_FlashWrite` waits until its operations have ended. -/
theorem requests_served {irparamsAddress : BitVec 32} {flash : Flash} {labels : List FirmwareStep}
    {q : Firmware × RequestRecord}
    (hrun : FaultMachine.run (FaultMachine.recorded firmwareStep noteRequest) labels
      (firmwareAtBoot irparamsAddress flash, .zero) = some q)
    (hsound : q.1.NoOverrun) (reads : List (KeySample × (ℕ → BitVec 8)))
    (hlen : 4 * q.1.queue.length + 22 ≤ reads.length) :
    ∃ q', FaultMachine.run (FaultMachine.recorded firmwareStep noteRequest) (mainLoop reads) q =
      some q' ∧ q'.1.queue = [] ∧ q'.2.served = q.2.accepted.map EmitRequest.handler := by
  have hinv := (RequestInv.firmwareAtBoot irparamsAddress flash).run hrun
  have hwork : q.1.workLeft ≤ reads.length :=
    (Nat.add_le_add_left q.1.point.stepsLeft_le _).trans hlen
  obtain ⟨q', hmains, hnil, haccepted⟩ := exists_run_mainLoop reads hinv.safe hsound (.inr hwork)
  refine ⟨q', hmains, hnil, ?_⟩
  have horder : RequestsInOrder q' := (hinv.run hmains).order
  rw [RequestsInOrder, Firmware.waiting, hnil] at horder
  rw [← haccepted, ← horder]
  cases q'.1.point <;> simp

/-- A frame of two marks comes in while the app asks to learn code 1, and behind it the app sends
a scheduling command and asks for this code twice. -/
def learnAndRequest : List FirmwareStep :=
  let samples (n tIRInputLevel : ℕ) : List FirmwareStep :=
    .replicate n (.sample .compare0 tIRInputLevel)
  .write .irLearn (fun _ => 0x31) 1 ::
    (samples 101 1 ++ samples 10 0 ++ samples 10 1 ++ samples 10 0 ++ samples 102 1) ++
    [.write .schedule (fun _ => 0x63) 3, .write .irEmmit (fun _ => 0x31) 1,
      .write .irEmmit (fun _ => 0x31) 1]

/-- What the witness needs of the state behind it. -/
theorem run_learnAndRequest : ∃ q,
    FaultMachine.run (FaultMachine.recorded firmwareStep noteRequest) learnAndRequest
      (firmwareAtBoot 0 Flash.blank, .zero) = some q ∧
    q.1.device.scan.irparams.stateForISR = .stop ∧ q.1.NoOverrun ∧ q.1.queue.length = 3 ∧
    q.2.accepted.map EmitRequest.handler =
      [.appControlStartEmitIR [0x31], .appControlStartEmitIR [0x31]] := by
  have hscene : (FaultMachine.run (FaultMachine.recorded firmwareStep noteRequest) learnAndRequest
      (firmwareAtBoot 0 Flash.blank, .zero)).map (fun q => (q.1.device.scan.irparams.stateForISR,
        (durations q.1.device.scan.irparams 3).isSome,
        (durations q.1.device.scan.irparams 4).isSome, q.1.queue,
        q.2.accepted.map EmitRequest.handler)) =
      some (.stop, true, true,
        [.midDecodeTimeBasedScheduling [0x63, 0x63, 0x63], .appControlStartEmitIR [0x31],
          .appControlStartEmitIR [0x31]],
        [.appControlStartEmitIR [0x31], .appControlStartEmitIR [0x31]]) := by
    decide +kernel
  obtain ⟨q, hrun, hscene⟩ := Option.map_eq_some_iff.mp hscene
  simp only [Prod.mk.injEq] at hscene
  obtain ⟨hstop, hmarks, hspaces, hqueue, haccepted⟩ := hscene
  refine ⟨q, hrun, hstop, ⟨fun pData hmem => ?_, fun _ => ?_, ?_⟩, ?_, haccepted⟩
  · rw [hqueue] at hmem
    simp only [List.mem_cons, SchedHandler.midDecodeTimeBasedScheduling.injEq, reduceCtorEq,
      List.not_mem_nil, or_false] at hmem
    rw [hmem]
    decide
  · exact ⟨Option.ne_none_iff_isSome.mpr hmarks, Option.ne_none_iff_isSome.mpr hspaces⟩
  · exact .run .blank (FaultMachine.run_of_run_recorded hrun)
  · rw [hqueue]
    rfl

/-- The frame waits for the decoder, and the three events in the queue. -/
theorem requests_served_behindFrame : ∃ q q',
    FaultMachine.run (FaultMachine.recorded firmwareStep noteRequest) learnAndRequest
      (firmwareAtBoot 0 Flash.blank, .zero) = some q ∧
    q.1.device.scan.irparams.stateForISR = .stop ∧
    FaultMachine.run (FaultMachine.recorded firmwareStep noteRequest)
      (mainLoop (List.replicate 34 (⟨false, false⟩, fun _ => 0))) q = some q' ∧
    q'.1.queue = [] ∧
    q'.2.served = [.appControlStartEmitIR [0x31], .appControlStartEmitIR [0x31]] := by
  obtain ⟨q, hrun, hstop, hsound, hlength, haccepted⟩ := run_learnAndRequest
  obtain ⟨q', hmains, hnil, hserved⟩ :=
    requests_served hrun hsound (List.replicate 34 (⟨false, false⟩, fun _ => 0)) (by
      rw [hlength, List.length_replicate])
  exact ⟨q, q', hrun, hstop, hmains, hnil, hserved.trans haccepted⟩

end IrRemote
