import IrRemote.App.Device
import IrRemote.Receiver.Invariant
import IrRemote.Store.Reboot

/-!
# Capture sessions

`Mid_IrRemoteStartScan` and `Mid_IrRemoteStopScan` only touch the timer and the tick counter. A
receiver that is stopped in the middle of a frame goes on with it in the next session: its first
entries were recorded in the session before.

## Main definitions

* `CaptureRecord` — what happened to the receiver since the timer was last enabled
* `FrameIsolated` — the frame that is processed holds no entries from before
* `SameCapture` — two receiver records that hold the same frame
* `StartsIdle` — the timer is enabled while the receiver waits for a frame

## Main results

* `isr_recordedIndex` — what one interrupt does to the buffer
* `SameCapture.isr` — the receiver does not read what is left of earlier frames
* `capture_sessions_isolated` — runs in which every session starts with an idle receiver
-/

set_option autoImplicit false

namespace IrRemote

/-! ## The entries of an interrupt -/

/-- The entry that an interrupt records. -/
def recordedIndex (tIRInputLevel : ℕ) (p : IrParams) : Option ℕ :=
  match p.stateForISR with
  | .idle =>
    if tIRInputLevel = inputMark ∧ recordGapTicks < nextTick p.tickCounterForISR then some 0
    else none
  | .mark => if tIRInputLevel ≠ inputMark then some p.rawlen else none
  | .space =>
    if tIRInputLevel = inputMark ∧ p.rawlen < rawBufferLength then some p.rawlen else none
  | .stop => none

/-- An interrupt that records no entry leaves the frame as it is. -/
structure KeepsFrame (p q : IrParams) : Prop where
  rawlen : q.rawlen = p.rawlen
  rawbuf : q.rawbuf = p.rawbuf
  running : q.stateForISR ≠ .idle → p.stateForISR ≠ .idle

/-- An interrupt that records an entry appends it to the frame, or begins a frame with it. -/
structure AppendsEntry (p q : IrParams) (i : ℕ) : Prop where
  rawlen : q.rawlen = i + 1
  index : i = 0 ∨ p.stateForISR ≠ .idle ∧ i = p.rawlen
  raw : ∀ j, q.raw j = if j = i then some (nextTick p.tickCounterForISR) else p.raw j

section Interrupt

variable {p q : IrParams} {level : ℕ}

theorem IrParams.appendsEntry (hq : p.record (nextTick p.tickCounterForISR) = some q)
    (hs : p.stateForISR ≠ .idle) (state : RecState) (n : ℕ) :
    AppendsEntry p { q with stateForISR := state, tickCounterForISR := n } p.rawlen where
  rawlen := (IrParams.rawlen_record hq :)
  index := .inr ⟨hs, rfl⟩
  raw := fun j => (IrParams.raw_record hq j :)

/-- What one interrupt does to the buffer. -/
theorem isr_recordedIndex (h : timerLedEventHandler .compare0 level p = some q) :
    match recordedIndex level p with
    | none => KeepsFrame p q
    | some i => AppendsEntry p q i := by
  cases isrStep_of_isr h with
  | idleSpace hs hl =>
    simp only [recordedIndex, hs, hl, false_and, if_false]
    exact ⟨rfl, rfl, fun hne => absurd rfl hne⟩
  | idleShort hs hgap =>
    simp only [recordedIndex, hs, Nat.not_lt.mpr hgap, and_false, if_false]
    exact ⟨rfl, rfl, fun hne => absurd rfl hne⟩
  | idleStart hs hgap =>
    simp only [recordedIndex, hs, hgap, and_self, if_true]
    -- the gap is recorded over whatever frame is left in the buffer
    refine ⟨rfl, .inl rfl, fun j => ?_⟩
    rw [IrParams.raw, Vector.getElem?_set, IrParams.raw]
    simp only [eq_comm (a := j)]
  | markMark hs =>
    simp only [recordedIndex, hs, ne_eq, not_true, if_false]
    exact ⟨rfl, rfl, fun _ => hs ▸ by decide⟩
  | markSpace hs hl hq =>
    simp only [recordedIndex, hs, ne_eq, hl, not_false_eq_true, if_true]
    exact IrParams.appendsEntry hq (hs ▸ by decide) _ _
  | spaceFull hs hfull =>
    simp only [recordedIndex, hs, Nat.not_lt.mpr hfull, and_false, if_false]
    exact ⟨rfl, rfl, fun _ => hs ▸ by decide⟩
  | spaceMark hs inside hq =>
    simp only [recordedIndex, hs, inside, and_self, if_true]
    exact IrParams.appendsEntry hq (hs ▸ by decide) _ _
  | spaceGap hs hl hgap =>
    simp only [recordedIndex, hs, hl, false_and, if_false]
    exact ⟨rfl, rfl, fun _ => hs ▸ by decide⟩
  | spaceSpace hs hl hgap =>
    simp only [recordedIndex, hs, hl, false_and, if_false]
    exact ⟨rfl, rfl, fun _ => hs ▸ by decide⟩
  | stopMark hs =>
    simp only [recordedIndex, hs]
    exact ⟨rfl, rfl, fun _ => hs ▸ by decide⟩
  | stopSpace hs hl =>
    simp only [recordedIndex, hs]
    exact ⟨rfl, rfl, fun _ => hs ▸ by decide⟩

end Interrupt

/-! ## Two receivers -/

/-- What the decoders are given. -/
structure CapturedFrame where
  entries : List (Option ℕ)
  overflowFlag : Bool
  deriving DecidableEq

/-- The frame in the buffer. -/
def IrParams.captured (p : IrParams) : CapturedFrame where
  entries := (List.range p.rawlen).map p.raw
  overflowFlag := p.overflowFlag

/-- Two receivers that are in the middle of the same frame. While they wait for one, the frame
that is left in the buffer does not matter. -/
structure SameCapture (p q : IrParams) : Prop where
  state : p.stateForISR = q.stateForISR
  tick : p.tickCounterForISR = q.tickCounterForISR
  captured : p.stateForISR ≠ .idle → p.captured = q.captured

section Two

variable {p p' q : IrParams} {t level : ℕ}

theorem IrParams.captured_record (h : p.record t = some q) :
    q.captured = { p.captured with entries := p.captured.entries ++ [some t] } := by
  have hlast : q.raw p.rawlen = some t := by rw [IrParams.raw_record h, if_pos rfl]
  have hfirst : (List.range p.rawlen).map q.raw = (List.range p.rawlen).map p.raw := by
    refine List.map_congr_left fun i hi => ?_
    -- the entries in front of the new one are not touched
    rw [IrParams.raw_record h, if_neg (List.mem_range.mp hi).ne]
  rw [IrParams.captured, IrParams.captured, IrParams.overflowFlag_record h,
    IrParams.rawlen_record h, List.range_succ, List.map_append, hfirst, List.map_singleton, hlast]

theorem SameCapture.rawlen (h : SameCapture p q) (hs : p.stateForISR ≠ .idle) :
    p.rawlen = q.rawlen := by
  have hlength := congrArg (fun f => f.entries.length) (h.captured hs)
  simpa [IrParams.captured] using hlength

/-- The running frame is extended in the same way. -/
theorem SameCapture.record (h : SameCapture p q) (hs : p.stateForISR ≠ .idle)
    (hp : p.record t = some p') : ∃ q', q.record t = some q' ∧ p'.captured = q'.captured := by
  have inside : q.rawlen < rawBufferLength := by
    rw [← h.rawlen hs]
    rw [IrParams.record] at hp
    split_ifs at hp with inside
    exact inside
  have hq := IrParams.record_eq inside (t := t)
  refine ⟨_, hq, ?_⟩
  rw [IrParams.captured_record hp, IrParams.captured_record hq, h.captured hs]

/-- Two receivers that wait for a frame. -/
theorem SameCapture.of_idle (hp : p.stateForISR = .idle) (hq : q.stateForISR = .idle)
    (ht : p.tickCounterForISR = q.tickCounterForISR) : SameCapture p q where
  state := hp.trans hq.symm
  tick := ht
  captured := fun hs => absurd hp hs

/-- An entry, or the end of the frame, is recorded by both. -/
theorem SameCapture.of_captured (h : p.captured = q.captured) (state : RecState) (n : ℕ) :
    SameCapture { p with stateForISR := state, tickCounterForISR := n }
      { q with stateForISR := state, tickCounterForISR := n } where
  state := rfl
  tick := rfl
  captured := fun _ => h

theorem SameCapture.withTick (h : SameCapture p q) (n : ℕ) :
    SameCapture { p with tickCounterForISR := n } { q with tickCounterForISR := n } where
  state := h.state
  tick := rfl
  captured := h.captured

theorem SameCapture.resume (h : SameCapture p q) :
    SameCapture (irRemoteResume p) (irRemoteResume q) := by
  by_cases hs : p.stateForISR = .stop
  · rw [irRemoteResume, irRemoteResume, if_pos hs, if_pos (h.state ▸ hs)]
    exact .of_idle rfl rfl h.tick
  · rw [irRemoteResume, irRemoteResume, if_neg hs, if_neg (h.state ▸ hs)]
    exact h

/-- The interrupt reads the state, the counter and the running frame only. -/
theorem SameCapture.isr (h : SameCapture p q)
    (hp : timerLedEventHandler .compare0 level p = some p') :
    ∃ q', timerLedEventHandler .compare0 level q = some q' ∧ SameCapture p' q' := by
  have hstate := h.state
  have htick := h.tick
  cases isrStep_of_isr hp with
  | idleSpace hs hl =>
    have hsq := hstate ▸ hs
    exact ⟨_, isr_idle_space hsq hl, .of_idle hs hsq (congrArg nextTick htick)⟩
  -- both go on waiting
  | idleShort hs hgap =>
    have hsq := hstate ▸ hs
    exact ⟨_, isr_idle_short hsq (htick ▸ hgap), .of_idle hs hsq rfl⟩
  -- both begin a frame, and what they had in the buffer is given up
  | idleStart hs hgap =>
    refine ⟨_, isr_idle_start (hstate ▸ hs) (htick ▸ hgap), rfl, rfl, fun _ => ?_⟩
    simp [IrParams.captured, IrParams.raw, htick]
  | markMark hs =>
    refine ⟨_, isr_mark_mark (hstate ▸ hs), ?_⟩
    rw [← htick]
    exact h.withTick _
  | markSpace hs hl hrecord =>
    obtain ⟨q', hq, hcaptured⟩ := h.record (hs ▸ by decide) hrecord
    rw [htick] at hq
    exact ⟨_, isr_mark_space (hstate ▸ hs) hl hq, .of_captured hcaptured _ _⟩
  | spaceFull hs hfull =>
    have hrun : p.stateForISR ≠ .idle := hs ▸ by decide
    refine ⟨_, isr_space_full (hstate ▸ hs) (h.rawlen hrun ▸ hfull), rfl, rfl, fun _ => ?_⟩
    exact congrArg (fun f => { f with overflowFlag := true }) (h.captured hrun)
  | spaceMark hs inside hrecord =>
    obtain ⟨q', hq, hcaptured⟩ := h.record (hs ▸ by decide) hrecord
    rw [htick] at hq
    exact ⟨_, isr_space_mark (hstate ▸ hs) hq, .of_captured hcaptured _ _⟩
  | spaceGap hs hl hgap =>
    exact ⟨_, isr_space_gap (hstate ▸ hs) hl (htick ▸ hgap), rfl, congrArg nextTick htick,
      fun _ => h.captured (hs ▸ by decide)⟩
  | spaceSpace hs hl hgap =>
    exact ⟨_, isr_space_space (hstate ▸ hs) hl (htick ▸ hgap), hstate, congrArg nextTick htick,
      h.captured⟩
  | stopMark hs => exact ⟨_, isr_stop_mark (hstate ▸ hs), h.withTick 0⟩
  | stopSpace hs hl =>
    exact ⟨_, isr_stop_space (hstate ▸ hs) hl, hstate, congrArg nextTick htick, h.captured⟩

end Two

/-! ## The record of a session -/

/-- The session that the last start of the timer has opened. -/
structure CaptureRecord where
  /-- The entries that were recorded since then. -/
  fresh : ℕ → Bool
  /-- What has happened to the receiver since then. -/
  session : List ReceiverOp

/-- No session has started yet. -/
def CaptureRecord.zero : CaptureRecord := ⟨fun _ => false, []⟩

/-- A session starts where the timer was stopped; a running one goes on. -/
def CaptureRecord.startScan (timerLedEnabled : Bool) (h : CaptureRecord) : CaptureRecord :=
  if timerLedEnabled then { h with session := h.session ++ [.startScan] } else .zero

/-- An interrupt. -/
def CaptureRecord.isr (eventType : NrfTimerEvent) (tIRInputLevel : ℕ) (p : IrParams)
    (h : CaptureRecord) : CaptureRecord where
  fresh := fun i => h.fresh i ||
    decide (eventType = .compare0 ∧ recordedIndex tIRInputLevel p = some i)
  session := h.session ++ [.isr eventType tIRInputLevel]

/-- A call of `Ir_RemoteResume`. -/
def CaptureRecord.resume (h : CaptureRecord) : CaptureRecord :=
  { h with session := h.session ++ [.resume] }

/-- The next `ProcessMain` processes a frame. -/
def DeviceState.ProcessesFrame (s : DeviceState) : Prop :=
  s.irScanDelayFlag = false ∧ s.scan.irparams.stateForISR = .stop

instance (s : DeviceState) : Decidable s.ProcessesFrame := inferInstanceAs (Decidable (_ ∧ _))

/-- What a step adds to the record. -/
def noteCapture (a : DeviceEvent) (s _ : DeviceState) (h : CaptureRecord) : CaptureRecord :=
  match a with
  | .startLearnIR _ | .startScan => h.startScan s.scan.timerLedEnabled
  | .sample eventType tIRInputLevel =>
    if s.scan.timerLedEnabled then h.isr eventType tIRInputLevel s.scan.irparams else h
  | .processMain => if s.ProcessesFrame then h.resume else h
  | .sysTimer100ms =>
    if s.Restarts then h.startScan (countLearnTime s).scan.timerLedEnabled else h
  | .resume => h.resume
  | .eraseIR _ | .stopScan => h

/-- A frame that is processed holds only entries of its session, the gap in front of it apart. -/
def FrameIsolated (s : DeviceState × CaptureRecord) : Prop :=
  s.1.ProcessesFrame → ∀ i, 1 ≤ i → i < s.1.scan.irparams.rawlen → s.2.fresh i = true

/-- The step enables a timer that was stopped. -/
def StartsTimer (a : DeviceEvent) (s : DeviceState) : Prop :=
  match a with
  | .startLearnIR _ | .startScan => s.scan.timerLedEnabled = false
  | .sysTimer100ms => s.Restarts ∧ (countLearnTime s).scan.timerLedEnabled = false
  | _ => False

/-- The timer is only enabled while the receiver waits for a frame. -/
def StartsIdle (a : DeviceEvent) (s : DeviceState) : Prop :=
  StartsTimer a s → s.scan.irparams.stateForISR = .idle

instance (a : DeviceEvent) (s : DeviceState) : Decidable (StartsTimer a s) :=
  match a with
  | .startLearnIR _ | .startScan => inferInstanceAs (Decidable (_ = _))
  | .sysTimer100ms => inferInstanceAs (Decidable (_ ∧ _))
  | .eraseIR _ | .sample _ _ | .processMain | .stopScan | .resume =>
    inferInstanceAs (Decidable False)

instance (a : DeviceEvent) (s : DeviceState) : Decidable (StartsIdle a s) :=
  inferInstanceAs (Decidable (_ → _))

/-! ## The invariant -/

/-- The session leads a receiver from power-up into the running frame. -/
def Replays (session : List ReceiverOp) (p : IrParams) : Prop :=
  ∃ u, FaultMachine.run receiverStep session ScanState.zero = some u ∧
    SameCapture p u.irparams

/-- The running frame was recorded in the session, and the session alone determines it. -/
structure CaptureInv (p : IrParams) (h : CaptureRecord) : Prop where
  fresh : p.stateForISR ≠ .idle → ∀ i < p.rawlen, h.fresh i = true
  replays : Replays h.session p

section Steps

variable {p q : IrParams} {session : List ReceiverOp} {h : CaptureRecord} {s t : DeviceState}

/-- One more operation of a session. -/
theorem Replays.step {op : ReceiverOp} (hs : Replays session p)
    (hop : ∀ u : ScanState, SameCapture p u.irparams →
      ∃ v, receiverStep op u = some v ∧ SameCapture q v.irparams) :
    Replays (session ++ [op]) q := by
  obtain ⟨u, hu, hcapture⟩ := hs
  obtain ⟨v, hv, hcapture⟩ := hop u hcapture
  exact ⟨v, FaultMachine.run_append_of_eq hu (FaultMachine.run_cons_of_eq hv rfl), hcapture⟩

theorem Replays.startScan (hs : Replays session p) :
    Replays (session ++ [.startScan]) { p with tickCounterForISR := 0 } :=
  hs.step fun _ hu => ⟨_, rfl, hu.withTick 0⟩

theorem Replays.resume (hs : Replays session p) :
    Replays (session ++ [.resume]) (irRemoteResume p) :=
  hs.step fun _ hu => ⟨_, rfl, hu.resume⟩

theorem Replays.isr {eventType : NrfTimerEvent} {level : ℕ} (hs : Replays session p)
    (hq : timerLedEventHandler eventType level p = some q) :
    Replays (session ++ [.isr eventType level]) q := by
  refine hs.step fun u hu => ?_
  cases eventType with
  | compare0 =>
    obtain ⟨r, hr, hcapture⟩ := hu.isr hq
    exact ⟨{ u with irparams := r }, by rw [receiverStep, hr]; rfl, hcapture⟩
  | other =>
    obtain rfl := Option.some.inj hq
    exact ⟨u, rfl, hu⟩

/-- Two frames of the same session are the same frame. -/
theorem Replays.captured_eq (hp : Replays session p) (hq : Replays session q)
    (hrun : p.stateForISR ≠ .idle) : p.captured = q.captured := by
  obtain ⟨u, hu, hpu⟩ := hp
  obtain ⟨v, hv, hqv⟩ := hq
  obtain rfl := Option.some.inj (hu.symm.trans hv)
  have hrun' : q.stateForISR ≠ .idle := by rwa [hqv.state, ← hpu.state]
  rw [hpu.captured hrun, hqv.captured hrun']

/-- A session starts with a receiver that waits for a frame. -/
theorem CaptureInv.startScan {enabled : Bool} (hs : CaptureInv p h)
    (hidle : enabled = false → p.stateForISR = .idle) :
    CaptureInv { p with tickCounterForISR := 0 } (h.startScan enabled) := by
  cases enabled with
  | true => exact ⟨hs.fresh, hs.replays.startScan⟩
  | false =>
    -- a receiver that waits for a frame is as good as the one from power-up
    have hp := hidle rfl
    exact ⟨fun hrun => absurd hp hrun, ScanState.zero, rfl, .of_idle hp rfl rfl⟩

theorem CaptureInv.resume (hs : CaptureInv p h) : CaptureInv (irRemoteResume p) h.resume where
  fresh := by
    rw [irRemoteResume]
    split_ifs
    · exact fun hrun => absurd rfl hrun
    · exact hs.fresh
  replays := hs.replays.resume

/-- The entries that an interrupt records belong to the session. -/
theorem CaptureInv.isr {eventType : NrfTimerEvent} {level : ℕ} (hs : CaptureInv p h)
    (hq : timerLedEventHandler eventType level p = some q) :
    CaptureInv q (h.isr eventType level p) where
  fresh := by
    intro hrun i hi
    cases eventType with
    | other =>
      obtain rfl := Option.some.inj hq
      simp [CaptureRecord.isr, hs.fresh hrun i hi]
    | compare0 =>
      have hentry := isr_recordedIndex hq
      cases hindex : recordedIndex level p with
      | none =>
        rw [hindex] at hentry
        rw [hentry.rawlen] at hi
        simp [CaptureRecord.isr, hs.fresh (hentry.running hrun) i hi]
      | some j =>
        rw [hindex] at hentry
        rw [hentry.rawlen] at hi
        -- the entries below the recorded one were fresh before, unless it begins a frame
        rcases Nat.lt_succ_iff_lt_or_eq.mp hi with hlt | rfl
        · rcases hentry.index with rfl | ⟨hp, rfl⟩
          · exact absurd hlt (Nat.not_lt_zero i)
          · simp [CaptureRecord.isr, hs.fresh hp i hlt]
        · simp [CaptureRecord.isr, hindex]
  replays := hs.replays.isr hq

theorem receiver_appControlHandle (s : DeviceState) :
    (appControlHandle s).scan = s.scan ∧
      (appControlHandle s).irScanDelayFlag = s.irScanDelayFlag := by
  have hlearn : (handleLearn s).scan = s.scan ∧
      (handleLearn s).irScanDelayFlag = s.irScanDelayFlag := by
    by_cases hdetected : s.Detected
    · rw [handleLearn_of_detected hdetected]
      split_ifs
      · obtain ⟨notis, hinsert⟩ := exists_insertDecodedCode (stopProcess s)
        rw [hinsert]
        exact ⟨rfl, rfl⟩
      · exact ⟨rfl, rfl⟩
    · rw [handleLearn_of_not_detected hdetected]
      exact ⟨rfl, rfl⟩
  obtain ⟨stores, hstores⟩ := exists_handleKey_handleErase_handleEmit (handleLearn s)
  rw [appControlHandle, hstores]
  exact hlearn

/-- The main loop leaves the receiver record alone unless it processes a frame. -/
theorem irparams_processMain (hstep : processMain s = some t) :
    t.scan.irparams =
      if s.ProcessesFrame then irRemoteResume s.scan.irparams else s.scan.irparams := by
  obtain ⟨hscan, hdelay⟩ := receiver_appControlHandle s
  rw [processMain, detectFrame, hscan, hdelay] at hstep
  -- a frame that ends within the two seconds is left in the receiver
  split_ifs at hstep with hdelayed
  · obtain rfl := Option.some.inj hstep
    rw [if_neg fun h => by simp [h.1] at hdelayed, hscan]
  · obtain ⟨⟨done, decode⟩, hdecode, rfl⟩ := Option.map_eq_some_iff.mp hstep
    cases done with
    | true =>
      have hstop := stateForISR_of_midIrRemoteDecode hdecode
      exact (if_pos (c := s.ProcessesFrame)
        ⟨Bool.eq_false_of_not_eq_true hdelayed, hstop⟩).symm
    | false =>
      obtain ⟨hrun, -⟩ := midIrRemoteDecode_eq_false hdecode
      exact (if_neg (c := s.ProcessesFrame) fun h => hrun h.2).symm

/-- The timer may start the receiver again, just behind a timeout too. -/
theorem CaptureInv.sysTimer100ms (hs : CaptureInv s.scan.irparams h)
    (hc : StartsIdle .sysTimer100ms s) :
    CaptureInv (sysTimer100msCall s).scan.irparams
      (noteCapture .sysTimer100ms s (sysTimer100msCall s) h) := by
  obtain ⟨hrestarts, hirparams, -⟩ := countLearnTime_frame s
  rw [noteCapture, sysTimer100msCall]
  split_ifs with hrestart
  -- a timeout in the same call has stopped the timer before
  · rw [countDelayTime_of_restarts (hrestarts.mpr hrestart)]
    have hstart := hs.startScan fun hstopped => hc ⟨hrestart, hstopped⟩
    rw [← hirparams] at hstart
    exact hstart
  · obtain ⟨n, delay, hdelay⟩ :=
      exists_countDelayTime_of_not_restarts (fun h => hrestart (hrestarts.mp h))
    rw [hdelay]
    exact hirparams.symm ▸ hs

theorem CaptureInv.deviceStep {a : DeviceEvent} (hs : CaptureInv s.scan.irparams h)
    (hc : StartsIdle a s) (hstep : deviceStep a s = some t) :
    CaptureInv t.scan.irparams (noteCapture a s t h) := by
  cases a with
  | startLearnIR | startScan =>
    obtain rfl := Option.some.inj hstep
    exact hs.startScan hc
  | resume =>
    obtain rfl := Option.some.inj hstep
    exact hs.resume
  | eraseIR | stopScan =>
    obtain rfl := Option.some.inj hstep
    exact hs
  | sample eventType level =>
    rw [IrRemote.deviceStep, timerSample] at hstep
    rw [noteCapture]
    split_ifs at hstep ⊢ with henabled
    · obtain ⟨p, hp, rfl⟩ := Option.map_eq_some_iff.mp hstep
      exact hs.isr hp
    · obtain rfl := Option.some.inj hstep
      exact hs
  | processMain =>
    rw [irparams_processMain hstep, noteCapture]
    split_ifs
    · exact hs.resume
    · exact hs
  | sysTimer100ms =>
    obtain rfl := Option.some.inj hstep
    exact hs.sysTimer100ms hc

end Steps

/-- The invariant holds in every run in which every session starts with an idle receiver. -/
theorem captureInv_run {irparamsAddress : BitVec 32} {stores : StoreState}
    {labels : List DeviceEvent}
    (h : FaultMachine.Along (FaultMachine.recorded deviceStep noteCapture)
      (fun a s => StartsIdle a s.1) labels (deviceAtBoot irparamsAddress stores, .zero)) :
    FaultMachine.Throughout (FaultMachine.recorded deviceStep noteCapture)
      (fun s => CaptureInv s.1.scan.irparams s.2) labels
      (deviceAtBoot irparamsAddress stores, .zero) := by
  refine h.throughout _ (fun a s t hs hc hstep => ?_) (fun s hs => hs) ?_
  · obtain ⟨hdevice, hnote⟩ := FaultMachine.recorded_eq_some_iff.mp hstep
    rw [hnote]
    exact hs.deviceStep hc hdevice
  · exact ⟨fun hrun => absurd rfl hrun, ScanState.zero, rfl, .of_idle rfl rfl rfl⟩

/-- Every frame that is processed was captured in its session, and two frames with the same
session are the same frame, in runs in which every session starts with an idle receiver. -/
theorem capture_sessions_isolated (irparamsAddress irparamsAddress' : BitVec 32)
    (stores stores' : StoreState) (labels labels' : List DeviceEvent)
    (h : FaultMachine.Along (FaultMachine.recorded deviceStep noteCapture)
      (fun a s => StartsIdle a s.1) labels (deviceAtBoot irparamsAddress stores, .zero))
    (h' : FaultMachine.Along (FaultMachine.recorded deviceStep noteCapture)
      (fun a s => StartsIdle a s.1) labels' (deviceAtBoot irparamsAddress' stores', .zero)) :
    FaultMachine.Throughout (FaultMachine.recorded deviceStep noteCapture) FrameIsolated labels
        (deviceAtBoot irparamsAddress stores, .zero) ∧
      ∀ s s', FaultMachine.run (FaultMachine.recorded deviceStep noteCapture) labels
          (deviceAtBoot irparamsAddress stores, .zero) = some s →
        FaultMachine.run (FaultMachine.recorded deviceStep noteCapture) labels'
          (deviceAtBoot irparamsAddress' stores', .zero) = some s' →
        s.1.ProcessesFrame → s'.1.ProcessesFrame → s.2.session = s'.2.session →
          s.1.scan.irparams.captured = s'.1.scan.irparams.captured := by
  constructor
  · refine (captureInv_run h).mono fun s hs hframe i _ hi => ?_
    exact hs.fresh (hframe.2 ▸ by decide) i hi
  · intro s s' hrun hrun' hframe _ hsession
    have hs := ((captureInv_run h).last hrun).replays
    have hs' := ((captureInv_run h').last hrun').replays
    exact hs.captured_eq (hsession.symm ▸ hs') (hframe.2 ▸ by decide)

/-- A frame is captured and processed, and the scan is started for the next one. -/
def captureTwice : List DeviceEvent :=
  [.startScan] ++ (frameLevels [90, 90, 11, 11, 11]).map (.sample .compare0) ++
    [.processMain, .sysTimer100ms, .startScan] ++
      (frameLevels [90, 90, 11]).map (.sample .compare0)

/-- The second session of one run and the first one of another lead to the same frame. -/
theorem capture_sessions_isolated_captureTwice :
    FaultMachine.Throughout (FaultMachine.recorded deviceStep noteCapture) FrameIsolated
        captureTwice (deviceAtBoot 0 blankStores, .zero) ∧
      ∀ s s', FaultMachine.run (FaultMachine.recorded deviceStep noteCapture) captureTwice
          (deviceAtBoot 0 blankStores, .zero) = some s →
        FaultMachine.run (FaultMachine.recorded deviceStep noteCapture)
          (.startScan :: (frameLevels [90, 90, 11]).map (.sample .compare0))
          (deviceAtBoot 4 blankStores, .zero) = some s' →
        s.1.ProcessesFrame → s'.1.ProcessesFrame → s.2.session = s'.2.session →
          s.1.scan.irparams.captured = s'.1.scan.irparams.captured :=
  capture_sessions_isolated 0 4 blankStores blankStores captureTwice
    (.startScan :: (frameLevels [90, 90, 11]).map (.sample .compare0))
    (by decide +kernel) (by decide +kernel)

/-- The scan is stopped in the middle of a frame, and started again: the frame that is processed
in the second session began in the first one. -/
theorem capture_session_not_isolated :
    ¬∀ (irparamsAddress : BitVec 32) (stores : StoreState) (labels : List DeviceEvent),
      FaultMachine.Throughout (FaultMachine.recorded deviceStep noteCapture) FrameIsolated labels
        (deviceAtBoot irparamsAddress stores, .zero) := by
  intro h
  have hrun : (FaultMachine.run (FaultMachine.recorded deviceStep noteCapture)
      ([.startScan] ++ (List.replicate 101 1 ++ [0, 1]).map (.sample .compare0) ++
        [.stopScan, .startScan] ++ (List.replicate 102 1).map (.sample .compare0))
      (deviceAtBoot 0 blankStores, .zero)).map (fun s =>
        (decide s.1.ProcessesFrame, s.1.scan.irparams.rawlen, s.2.fresh 1)) =
      some (true, 2, false) := by
    decide +kernel
  obtain ⟨s, hs, hframe⟩ := Option.map_eq_some_iff.mp hrun
  obtain ⟨hprocesses, hentries⟩ := Prod.mk.inj hframe
  obtain ⟨hrawlen, hfresh⟩ := Prod.mk.inj hentries
  have hisolated := (h 0 blankStores _).last hs (of_decide_eq_true hprocesses) 1 (Nat.le_refl 1)
    (hrawlen.symm ▸ Nat.one_lt_two)
  rw [hfresh] at hisolated
  cases hisolated

end IrRemote
