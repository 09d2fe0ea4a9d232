import IrRemote.App.Device

/-!
# The main loop, statement by statement

The commands of the app, the timer and the receiver interrupt come in between any two statements
of `ProcessMain`. A program state holds the statement that the main loop executes next. Inside
`Mid_InsertNewIRCode`, `Mid_RemoveIRCode` and `Mid_IrRemoteDecode` the main loop is alone with
what it works on, so a call of one of them is one statement.

## Main definitions

* `Statement`, `mainStatement` — the statements of `ProcessMain`
* `ProgramState`, `programStep` — one statement, or one of the activities that come in between

## Main results

* `uninterrupted_processMain` — a pass of the main loop that nothing interrupts is `processMain`
-/

set_option autoImplicit false

namespace IrRemote

/-- The statements of `ProcessMain`. Both branches of `App_ControlHandle` for a detected frame
begin with the same three statements; `known` is the branch. -/
inductive Statement where
  | testStartLearn
  | testDetect
  | testProtocol
  | clearDetect (known : Bool)
  | clearStartLearn (known : Bool)
  | clearCountStart (known : Bool)
  | insertCode
  | notiFail
  | testEmit
  | clearEmit
  | testErase
  | removeCode
  | clearErase
  | handleKey
  | testScanDelay
  | decode
  | stopScan
  | resume
  | setScanDelay
  | setDetect
  deriving DecidableEq, Repr

/-- One statement, and the statement behind it. -/
def mainStatement (pc : Statement) (s : DeviceState) : Option (Statement × DeviceState) :=
  match pc with
  | .testStartLearn => some (if s.appStartLearnIRFlag then .testDetect else .testEmit, s)
  | .testDetect => some (if s.detectIRSignalDoneFlag then .testProtocol else .testEmit, s)
  | .testProtocol => some (.clearDetect (s.protocol ≠ .unknown), s)
  | .clearDetect known => some (.clearStartLearn known, { s with detectIRSignalDoneFlag := false })
  | .clearStartLearn known => some (.clearCountStart known, { s with appStartLearnIRFlag := false })
  | .clearCountStart known =>
    some (if known then .insertCode else .notiFail, { s with appLearnIRCountStartFlag := false })
  | .insertCode => some (.testEmit, insertDecodedCode s)
  | .notiFail => some (.testEmit, libBleNoti .learnIRFail s)
  | .testEmit => some (if s.appStartEmitIRFlag then .clearEmit else .testErase, s)
  | .clearEmit => some (.testErase, { s with appStartEmitIRFlag := false })
  | .testErase => some (if s.appStartEraseIRFlag then .removeCode else .handleKey, s)
  | .removeCode =>
    some (.clearErase, { s with stores := (midRemoveIRCode s.uwBufferEraseID s.stores).2 })
  | .clearErase => some (.handleKey, { s with appStartEraseIRFlag := false })
  | .handleKey => some (.testScanDelay, handleKey s)
  | .testScanDelay => some (if s.irScanDelayFlag then .testStartLearn else .decode, s)
  | .decode =>
    (midIrRemoteDecode s.scan.irparams s.decode).map fun r =>
      (if r.1 then .stopScan else .testStartLearn, { s with decode := r.2 })
  | .stopScan => some (.resume, { s with scan := midIrRemoteStopScan s.scan })
  | .resume => some (.setScanDelay, { s with scan.irparams := irRemoteResume s.scan.irparams })
  | .setScanDelay => some (.setDetect, { s with irScanDelayFlag := true })
  | .setDetect => some (.testStartLearn, { s with detectIRSignalDoneFlag := true })

/-- The statements that may be executed behind a statement. -/
def Statement.successors : Statement → List Statement
  | .testStartLearn => [.testDetect, .testEmit]
  | .testDetect => [.testProtocol, .testEmit]
  | .testProtocol => [.clearDetect true, .clearDetect false]
  | .clearDetect known => [.clearStartLearn known]
  | .clearStartLearn known => [.clearCountStart known]
  | .clearCountStart true => [.insertCode]
  | .clearCountStart false => [.notiFail]
  | .insertCode => [.testEmit]
  | .notiFail => [.testEmit]
  | .testEmit => [.clearEmit, .testErase]
  | .clearEmit => [.testErase]
  | .testErase => [.removeCode, .handleKey]
  | .removeCode => [.clearErase]
  | .clearErase => [.handleKey]
  | .handleKey => [.testScanDelay]
  | .testScanDelay => [.testStartLearn, .decode]
  | .decode => [.stopScan, .testStartLearn]
  | .stopScan => [.resume]
  | .resume => [.setScanDelay]
  | .setScanDelay => [.setDetect]
  | .setDetect => [.testStartLearn]

section Statements

variable {pc pc' : Statement} {s s' : DeviceState}

theorem mainStatement_decode (h : mainStatement .decode s = some (pc', s')) :
    ∃ found decode, midIrRemoteDecode s.scan.irparams s.decode = some (found, decode) ∧
      pc' = (if found then .stopScan else .testStartLearn) ∧ s' = { s with decode := decode } := by
  obtain ⟨⟨found, decode⟩, hdecode, hr⟩ := Option.map_eq_some_iff.mp h
  cases hr
  exact ⟨found, decode, hdecode, rfl, rfl⟩

theorem mem_successors (h : mainStatement pc s = some (pc', s')) : pc' ∈ pc.successors := by
  cases pc with
  | decode =>
    obtain ⟨found, decode, -, rfl, -⟩ := mainStatement_decode h
    cases found <;> simp [Statement.successors]
  | testProtocol =>
    cases h
    cases decide (s.protocol ≠ .unknown) <;> simp [Statement.successors]
  | clearCountStart known =>
    cases h
    cases known <;> exact List.mem_singleton.mpr rfl
  | testStartLearn | testDetect | testEmit | testErase | testScanDelay =>
    cases h
    rw [Statement.successors]
    split_ifs <;> simp
  | _ =>
    cases h
    exact List.mem_singleton.mpr rfl

end Statements

/-- The device, and the statement that the main loop executes next. -/
structure ProgramState where
  pc : Statement
  device : DeviceState

/-- The main loop is about to begin. -/
def programAtBoot (irparamsAddress : BitVec 32) (stores : StoreState) : ProgramState :=
  ⟨.testStartLearn, deviceAtBoot irparamsAddress stores⟩

/-- The main loop goes on by one statement, or something comes in between. -/
inductive Activity where
  | main
  | startLearnIR (uwIrID : BitVec 16)
  | eraseIR (uwIrID : BitVec 16)
  | sample (eventType : NrfTimerEvent) (tIRInputLevel : ℕ)
  | sysTimer100ms
  deriving DecidableEq, Repr

/-- One activity. -/
def programStep (a : Activity) (s : ProgramState) : Option ProgramState :=
  match a with
  | .main => (mainStatement s.pc s.device).map fun r => ⟨r.1, r.2⟩
  | .startLearnIR uwIrID => some { s with device := appControlStartLearnIR uwIrID s.device }
  | .eraseIR uwIrID => some { s with device := appControlEraseIR uwIrID s.device }
  | .sample eventType tIRInputLevel =>
    (timerSample eventType tIRInputLevel s.device).map fun device => { s with device }
  | .sysTimer100ms => some { s with device := sysTimer100msCall s.device }

/-! ## A pass of the main loop -/

/-- Nothing comes in between for some statements. -/
def Uninterrupted (s : ProgramState) (r : Option ProgramState) : Prop :=
  ∃ n, FaultMachine.run programStep (List.replicate n .main) s = r

section Uninterrupted

variable {s t : ProgramState} {r : Option ProgramState} {d : DeviceState}

theorem Uninterrupted.trans (h : Uninterrupted s (some t)) (h' : Uninterrupted t r) :
    Uninterrupted s r := by
  obtain ⟨n, hrun⟩ := h
  obtain ⟨m, hrun'⟩ := h'
  refine ⟨n + m, ?_⟩
  rw [List.replicate_add, FaultMachine.run_append, hrun, Option.bind_some, hrun']

theorem uninterrupted_handleLearn (d : DeviceState) :
    Uninterrupted ⟨.testStartLearn, d⟩ (some ⟨.testEmit, handleLearn d⟩) := by
  rw [handleLearn]
  split_ifs with hstart hdetect hknown
  · exact ⟨7, by simp [programStep, mainStatement, hstart, hdetect, hknown, stopProcess]⟩
  · exact ⟨7, by simp [programStep, mainStatement, hstart, hdetect, hknown, stopProcess]⟩
  · exact ⟨2, by simp [programStep, mainStatement, hstart, hdetect]⟩
  · exact ⟨1, by simp [programStep, mainStatement, hstart]⟩

theorem uninterrupted_handleEmit (d : DeviceState) :
    Uninterrupted ⟨.testEmit, d⟩ (some ⟨.testErase, handleEmit d⟩) := by
  rw [handleEmit]
  split_ifs with hemit
  · exact ⟨2, by simp [programStep, mainStatement, hemit]⟩
  · exact ⟨1, by simp [programStep, mainStatement, hemit]⟩

theorem uninterrupted_handleErase (d : DeviceState) :
    Uninterrupted ⟨.testErase, d⟩ (some ⟨.handleKey, handleErase d⟩) := by
  rw [handleErase]
  split_ifs with herase
  · exact ⟨3, by simp [programStep, mainStatement, herase]⟩
  · exact ⟨1, by simp [programStep, mainStatement, herase]⟩

theorem uninterrupted_appControlHandle (d : DeviceState) :
    Uninterrupted ⟨.testStartLearn, d⟩ (some ⟨.testScanDelay, appControlHandle d⟩) := by
  have hkey : Uninterrupted ⟨.handleKey, handleErase (handleEmit (handleLearn d))⟩
      (some ⟨.testScanDelay, appControlHandle d⟩) := ⟨1, rfl⟩
  exact (uninterrupted_handleLearn d).trans <| (uninterrupted_handleEmit _).trans <|
    (uninterrupted_handleErase _).trans hkey

theorem uninterrupted_detectFrame (d : DeviceState) :
    Uninterrupted ⟨.testScanDelay, d⟩ ((detectFrame d).map fun d => ⟨.testStartLearn, d⟩) := by
  rw [detectFrame]
  split_ifs with hdelay
  · exact ⟨1, by simp [programStep, mainStatement, hdelay]⟩
  cases hdecode : midIrRemoteDecode d.scan.irparams d.decode with
  | none => exact ⟨2, by simp [programStep, mainStatement, hdelay, hdecode]⟩
  | some r =>
    obtain ⟨found, decode⟩ := r
    cases found with
    | false => exact ⟨2, by simp [programStep, mainStatement, hdelay, hdecode]⟩
    | true => exact ⟨6, by simp [programStep, mainStatement, hdelay, hdecode]⟩

/-- A pass of the main loop that nothing interrupts is `processMain`. -/
theorem uninterrupted_processMain (d : DeviceState) :
    Uninterrupted ⟨.testStartLearn, d⟩ ((processMain d).map fun d => ⟨.testStartLearn, d⟩) :=
  (uninterrupted_appControlHandle d).trans (uninterrupted_detectFrame _)

end Uninterrupted

end IrRemote
