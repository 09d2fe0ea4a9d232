import IrRemote.App.Interleaving
import IrRemote.Store.Reboot

/-!
# Whose code is learned

A request of the app to learn a code overwrites the identifier of the last one. A frame that was
captured for the last request may still wait in the receiver, in `decodedIRData` or in the branch
of `App_ControlHandle` that is about to store it; it is then stored under the new identifier.

## Main definitions

* `LearnRecord` — the requests, the end of the last frame, and the insertions
* `Attributed` — every frame was stored for the last request, and ended behind it
* `FrameWaits` — a frame that has ended may still be stored

## Main results

* `codes_learned_as_requested` — runs in which no request comes in while a frame waits
-/

set_option autoImplicit false

namespace IrRemote

/-- A call of `Mid_InsertNewIRCode`. -/
structure Insertion where
  uwLearnID : BitVec 16
  /-- The identifiers of the requests before the call. -/
  requests : List (BitVec 16)
  /-- The number of requests before the end of the frame that was decoded. -/
  endedBehind : ℕ

/-- The record of the requests and of the frames. -/
structure LearnRecord where
  requests : List (BitVec 16)
  endedBehind : ℕ
  decodedBehind : ℕ
  insertions : List Insertion

/-- Nothing was requested yet. -/
def LearnRecord.zero : LearnRecord := ⟨[], 0, 0, []⟩

/-- The receiver record. -/
def ProgramState.irparams (s : ProgramState) : IrParams := s.device.scan.irparams

/-- What a step adds to the record. -/
def noteLearning (a : Activity) (s t : ProgramState) (h : LearnRecord) : LearnRecord :=
  match a with
  | .startLearnIR uwIrID => { h with requests := h.requests ++ [uwIrID] }
  | .sample _ _ =>
    if s.irparams.stateForISR ≠ .stop ∧ t.irparams.stateForISR = .stop then
      { h with endedBehind := h.requests.length }
    else h
  | .main =>
    match s.pc with
    | .decode =>
      if s.irparams.stateForISR = .stop then { h with decodedBehind := h.endedBehind } else h
    | .insertCode =>
      { h with insertions := h.insertions ++
          [⟨s.device.uwBufferLearnID, h.requests, h.decodedBehind⟩] }
    | _ => h
  | _ => h

/-- The frame ended behind the last request, and this was a request for the identifier. -/
def Insertion.Attributed (x : Insertion) : Prop :=
  x.endedBehind = x.requests.length ∧ x.requests.getLast? = some x.uwLearnID

/-- Every code was learned under the identifier for which it was captured. -/
def Attributed (s : ProgramState × LearnRecord) : Prop :=
  ∀ x ∈ s.2.insertions, x.Attributed

/-- The statements between the decoder and the hand-over of a frame, and those between its
protocol was found known and the insertion. -/
def Statement.carriesFrame : Statement → Bool
  | .stopScan | .resume | .setScanDelay | .setDetect => true
  | .clearDetect known | .clearStartLearn known | .clearCountStart known => known
  | .insertCode => true
  | _ => false

/-- A frame that has ended was not decoded yet, or one that was decoded with a known protocol was
not inserted yet. -/
def FrameWaits (s : ProgramState) : Prop :=
  s.irparams.stateForISR = .stop ∨
    s.device.protocol ≠ .unknown ∧
      (s.device.detectIRSignalDoneFlag = true ∨ s.pc.carriesFrame = true)

/-- No request comes in while a frame waits. -/
def RequestsNoFrame (a : Activity) (s : ProgramState) : Prop :=
  match a with
  | .startLearnIR _ => ¬FrameWaits s
  | _ => True

/-! ## The invariant -/

/-- The statements between the test of the learn flag and the insertion. -/
def Statement.inSession : Statement → Bool
  | .testDetect | .testProtocol | .clearDetect _ | .clearStartLearn _ | .clearCountStart _
  | .insertCode => true
  | _ => false

/-- The statements that only a known protocol leads to. -/
def Statement.protocolKnown : Statement → Bool
  | .clearDetect known | .clearStartLearn known | .clearCountStart known => known
  | .insertCode => true
  | _ => false

/-- Every frame that waits ended behind the last request. -/
structure AttributionInv (s : ProgramState) (h : LearnRecord) : Prop where
  ended : s.irparams.stateForISR = .stop → h.endedBehind = h.requests.length
  decoded : s.device.protocol ≠ .unknown →
    s.device.detectIRSignalDoneFlag = true ∨ s.pc.carriesFrame = true →
      h.decodedBehind = h.requests.length
  detected : s.pc = .testProtocol → s.device.detectIRSignalDoneFlag = true
  known : s.pc.protocolKnown = true → s.device.protocol ≠ .unknown
  requested : s.device.appStartLearnIRFlag = true ∨ s.pc.inSession = true →
    h.requests.getLast? = some s.device.uwBufferLearnID
  attributed : ∀ x ∈ h.insertions, x.Attributed

section Steps

variable {s t : ProgramState} {d d' : DeviceState} {pc pc' : Statement} {h : LearnRecord}

/-- A step that decodes nothing, and at whose end no frame waits that did not wait before. -/
theorem AttributionInv.of_frame (hs : AttributionInv s h)
    (hstate : t.irparams.stateForISR = .stop → s.irparams.stateForISR = .stop)
    (hprotocol : t.device.protocol = s.device.protocol)
    (hid : t.device.uwBufferLearnID = s.device.uwBufferLearnID)
    (hcarried : s.device.protocol ≠ .unknown →
      t.device.detectIRSignalDoneFlag = true ∨ t.pc.carriesFrame = true →
        s.device.detectIRSignalDoneFlag = true ∨ s.pc.carriesFrame = true)
    (hdetected : t.pc = .testProtocol → t.device.detectIRSignalDoneFlag = true)
    (hknown : t.pc.protocolKnown = true → s.device.protocol ≠ .unknown)
    (hsession : t.device.appStartLearnIRFlag = true ∨ t.pc.inSession = true →
      s.device.appStartLearnIRFlag = true ∨ s.pc.inSession = true) : AttributionInv t h where
  ended := fun hstop => hs.ended (hstate hstop)
  decoded := fun hprot hwaits => by
    rw [hprotocol] at hprot
    exact hs.decoded hprot (hcarried hprot hwaits)
  detected := hdetected
  known := fun hpc => hprotocol.symm ▸ hknown hpc
  requested := fun h => hid.symm ▸ hs.requested (hsession h)
  attributed := hs.attributed

/-- What the statements other than the decoder change. -/
theorem learn_frame (hmain : mainStatement pc d = some (pc', d')) (hpc : pc ≠ .decode) :
    (d'.scan.irparams.stateForISR = .stop → d.scan.irparams.stateForISR = .stop) ∧
      d'.decode = d.decode ∧ d'.uwBufferLearnID = d.uwBufferLearnID ∧
      (d'.appStartLearnIRFlag = true → d.appStartLearnIRFlag = true) ∧
      (d'.detectIRSignalDoneFlag = true → d.detectIRSignalDoneFlag = true ∨ pc = .setDetect) := by
  cases pc with
  | decode => exact absurd rfl hpc
  | insertCode =>
    cases hmain
    obtain ⟨notis, hinsert⟩ := exists_insertDecodedCode d
    rw [hinsert]
    exact ⟨id, rfl, rfl, id, .inl⟩
  | clearDetect known =>
    cases hmain
    exact ⟨id, rfl, rfl, id, fun h => by cases h⟩
  | clearStartLearn known =>
    cases hmain
    exact ⟨id, rfl, rfl, (fun h => by cases h), .inl⟩
  | resume =>
    cases hmain
    refine ⟨fun h => ?_, rfl, rfl, id, .inl⟩
    rw [irRemoteResume] at h
    split_ifs at h
    exact h
  | setDetect =>
    cases hmain
    exact ⟨id, rfl, rfl, id, fun _ => .inr rfl⟩
  | _ =>
    cases hmain
    exact ⟨id, rfl, rfl, id, .inl⟩

/-- The way of a frame through the statements. -/
theorem successors_frame (h : pc' ∈ pc.successors) (hpc : pc ≠ .decode) :
    (pc'.carriesFrame = true → pc.carriesFrame = true ∨ pc = .testProtocol) ∧
      (pc' = .testProtocol → pc = .testDetect) ∧
      (pc'.protocolKnown = true → pc.protocolKnown = true ∨ pc = .testProtocol) ∧
      (pc'.inSession = true → pc.inSession = true ∨ pc = .testStartLearn) := by
  revert hpc h pc'
  cases pc with
  | clearDetect known | clearStartLearn known | clearCountStart known => cases known <;> decide
  | _ => decide

/-- The frame that has ended is decoded. -/
theorem AttributionInv.decode (hs : AttributionInv ⟨.decode, d⟩ h)
    (hmain : mainStatement .decode d = some (pc', d')) :
    AttributionInv ⟨pc', d'⟩ (noteLearning .main ⟨.decode, d⟩ ⟨pc', d'⟩ h) := by
  obtain ⟨found, decode, hdecode, rfl, rfl⟩ := mainStatement_decode hmain
  have hnote : noteLearning .main ⟨.decode, d⟩
      ⟨if found then .stopScan else .testStartLearn, { d with decode := decode }⟩ h =
      if d.scan.irparams.stateForISR = .stop then { h with decodedBehind := h.endedBehind }
      else h := rfl
  rw [hnote]
  cases found with
  | false =>
    obtain ⟨hstop, rfl⟩ := midIrRemoteDecode_eq_false hdecode
    -- nothing is decoded, and the flags are left alone
    rw [if_neg hstop]
    exact hs.of_frame id rfl rfl (fun _ h => h) (fun h => by cases h) (fun h => by cases h) id
  | true =>
    have hstop := stateForISR_of_midIrRemoteDecode hdecode
    rw [if_pos hstop]
    exact {
      ended := hs.ended
      decoded := fun _ _ => hs.ended hstop
      detected := fun h => by cases h
      known := fun h => by cases h
      requested := hs.requested
      attributed := hs.attributed }

theorem testDetect_of_testProtocol
    (hmain : mainStatement .testDetect d = some (.testProtocol, d')) :
    d'.detectIRSignalDoneFlag = true := by
  rw [mainStatement] at hmain
  split_ifs at hmain with hdetect
  · cases hmain
    exact hdetect
  · cases hmain

/-- A statement other than the decoder. -/
theorem AttributionInv.statement (hs : AttributionInv ⟨pc, d⟩ h)
    (hmain : mainStatement pc d = some (pc', d')) (hpc : pc ≠ .decode) :
    AttributionInv ⟨pc', d'⟩ h := by
  obtain ⟨hstate, hdecode, hid, hstart, hdetect⟩ := learn_frame hmain hpc
  obtain ⟨hcarries, hprotocol, hknown, hsession⟩ := successors_frame (mem_successors hmain) hpc
  -- whatever waits behind the statement waited before, or the statement has only passed it on
  refine hs.of_frame hstate (congrArg (fun x => x.decodedIRData.protocol) hdecode) hid
    (fun _ hwaits => ?_) (fun h => ?_) (fun h => ?_) fun h => ?_
  · obtain h | h := hwaits
    · obtain h | rfl := hdetect h
      · exact .inl h
      · exact .inr rfl
    · obtain h | rfl := hcarries h
      · exact .inr h
      · exact .inl (hs.detected rfl)
  · obtain rfl := hprotocol h
    obtain rfl : pc' = .testProtocol := h
    exact testDetect_of_testProtocol hmain
  -- the test of the protocol is the only way to the statements that need it
  · obtain h' | rfl := hknown h
    · exact hs.known h'
    · cases hmain
      exact of_decide_eq_true h
  · obtain h | h := h
    · exact .inl (hstart h)
    · obtain h' | rfl := hsession h
      · exact .inr h'
      -- a session is entered through the test of the learn flag
      · rw [mainStatement] at hmain
        split_ifs at hmain with hflag
        · exact .inl hflag
        · cases hmain
          cases h

/-- The next statement. -/
theorem AttributionInv.main (hs : AttributionInv ⟨pc, d⟩ h)
    (hmain : mainStatement pc d = some (pc', d')) :
    AttributionInv ⟨pc', d'⟩ (noteLearning .main ⟨pc, d⟩ ⟨pc', d'⟩ h) := by
  cases pc with
  | decode => exact hs.decode hmain
  | insertCode =>
    have hnext := hs.statement hmain (by decide)
    refine { hnext with attributed := fun x hx => ?_ }
    obtain hx | hx := List.mem_append.mp hx
    · exact hs.attributed x hx
    · obtain rfl := List.mem_singleton.mp hx
      -- the frame still waits here, so no request has come in since it was captured
      exact ⟨hs.decoded (hs.known rfl) (.inr rfl), hs.requested (.inr rfl)⟩
  | _ => exact hs.statement hmain (by simp)

/-- A request comes in while no frame waits. -/
theorem AttributionInv.startLearnIR (hs : AttributionInv s h) (hfree : ¬FrameWaits s)
    (uwIrID : BitVec 16) :
    AttributionInv { s with device := appControlStartLearnIR uwIrID s.device }
      { h with requests := h.requests ++ [uwIrID] } where
  ended := fun hstop => absurd (.inl hstop) hfree
  decoded := fun hprotocol hwaits => absurd (.inr ⟨hprotocol, hwaits⟩) hfree
  detected := hs.detected
  known := hs.known
  requested := fun _ => List.getLast?_concat
  attributed := hs.attributed

/-- A sample may end a frame. -/
theorem AttributionInv.sample (hs : AttributionInv s h) (p : IrParams) :
    let t : ProgramState := { s with device.scan.irparams := p }
    AttributionInv t (if s.irparams.stateForISR ≠ .stop ∧ t.irparams.stateForISR = .stop then
      { h with endedBehind := h.requests.length } else h) := by
  intro t
  split_ifs with hends
  · exact { hs with ended := fun _ => rfl, decoded := hs.decoded }
  · refine { hs with ended := fun hstop => hs.ended ?_ }
    by_contra hrun
    exact hends ⟨hrun, hstop⟩

theorem AttributionInv.programStep {a : Activity} {s t : ProgramState × LearnRecord}
    (hs : AttributionInv s.1 s.2) (hc : RequestsNoFrame a s.1)
    (hstep : FaultMachine.recorded programStep noteLearning a s = some t) :
    AttributionInv t.1 t.2 := by
  obtain ⟨hprogram, hnote⟩ := FaultMachine.recorded_eq_some_iff.mp hstep
  rw [hnote]
  cases a with
  | main =>
    obtain ⟨⟨pc', d'⟩, hmain, ht⟩ := Option.map_eq_some_iff.mp hprogram
    rw [← ht]
    exact hs.main hmain
  | startLearnIR uwIrID =>
    rw [← Option.some.inj hprogram]
    exact hs.startLearnIR hc uwIrID
  | eraseIR uwIrID =>
    rw [← Option.some.inj hprogram]
    exact { hs with }
  | sample eventType tIRInputLevel =>
    obtain ⟨d, hsample, ht⟩ := Option.map_eq_some_iff.mp hprogram
    obtain ⟨p, rfl, -⟩ := timerSample_eq_some hsample
    rw [← ht]
    exact hs.sample p
  | sysTimer100ms =>
    rw [← Option.some.inj hprogram]
    obtain ⟨hdecode, -, hstart, hdetect, -, -, hid, -, n, hirparams⟩ :=
      timerFrame_sysTimer100msCall s.1.device
    refine hs.of_frame ?_ (congrArg (fun x => x.decodedIRData.protocol) hdecode) hid ?_ ?_
      hs.known ?_
    · rw [ProgramState.irparams, hirparams]
      exact id
    · dsimp only
      rw [hdetect]
      exact fun _ h => h
    · dsimp only
      rw [hdetect]
      exact hs.detected
    · dsimp only
      rw [hstart]
      exact id

end Steps

/-- Every code is learned under the identifier for which it was captured, in a run in which no
request comes in while a frame waits. -/
theorem codes_learned_as_requested (irparamsAddress : BitVec 32) (stores : StoreState)
    (labels : List Activity)
    (h : FaultMachine.Along (FaultMachine.recorded programStep noteLearning)
      (fun a s => RequestsNoFrame a s.1) labels (programAtBoot irparamsAddress stores, .zero)) :
    FaultMachine.Throughout (FaultMachine.recorded programStep noteLearning) Attributed labels
      (programAtBoot irparamsAddress stores, .zero) := by
  refine h.throughout (fun s => AttributionInv s.1 s.2) (fun a s t hs hc hstep => ?_)
    (fun s hs => hs.attributed) ?_
  · exact hs.programStep hc hstep
  · exact {
      ended := fun _ => rfl
      decoded := fun _ _ => rfl
      detected := fun h => by cases h
      known := fun h => by cases h
      requested := fun h => by obtain h | h := h <;> cases h
      attributed := fun x hx => by cases hx }

/-- The samples of a frame. -/
def frameSamples (ticks : List ℕ) : List Activity :=
  (frameLevels ticks).map (.sample .compare0)

/-- A code is learned in one session. -/
theorem codes_learned_as_requested_single :
    FaultMachine.Throughout (FaultMachine.recorded programStep noteLearning) Attributed
      ([.startLearnIR 1] ++ frameSamples [90, 90, 11, 11, 11] ++ List.replicate 18 .main)
      (programAtBoot 0 blankStores, .zero) := by
  refine codes_learned_as_requested 0 blankStores _ ⟨fun h => ?_, fun s _ => ?_⟩
  · obtain h | ⟨h, -⟩ := h
    · cases h
    · exact h rfl
  · refine FaultMachine.along_of_forall (fun a ha s => ?_) s
    obtain ha | ha := List.mem_append.mp ha
    · obtain ⟨level, -, rfl⟩ := List.mem_map.mp ha
      trivial
    · rw [List.eq_of_mem_replicate ha]
      trivial

/-- A second request comes in between the decoder and the insertion. -/
theorem code_learned_under_other_id :
    ¬∀ (irparamsAddress : BitVec 32) (stores : StoreState) (labels : List Activity),
      FaultMachine.Throughout (FaultMachine.recorded programStep noteLearning) Attributed labels
        (programAtBoot irparamsAddress stores, .zero) := by
  intro h
  have hrun : (FaultMachine.run (FaultMachine.recorded programStep noteLearning)
      ([.startLearnIR 1] ++ frameSamples [90, 90, 11, 11, 11] ++ List.replicate 11 .main ++
        [.startLearnIR 2] ++ List.replicate 7 .main) (programAtBoot 0 blankStores, .zero)).map
      (fun s => s.2.insertions.any fun x => x.endedBehind ≠ x.requests.length) = some true := by
    decide +kernel
  obtain ⟨s, hs, hlate⟩ := Option.map_eq_some_iff.mp hrun
  obtain ⟨x, hx, hne⟩ := List.any_eq_true.mp hlate
  have hattributed := (h 0 blankStores _).last hs
  exact of_decide_eq_true hne (hattributed x hx).1

end IrRemote
