import IrRemote.App.Control
import IrRemote.Mid.IrRemoteDecode
import IrRemote.Mid.Receiver

/-!
# Learning and erasing codes

The parts of `App_Control.c` and `main.c` through which a code is learned or erased. The commands
of the app only set flags: the main loop takes up a captured frame in `App_ControlHandle` and
decodes the next one, and the 100 ms timer ends a session that takes too long and starts the
receiver again behind a decoded frame. The LEDs of `SysTimer100msCall` and the flags of the keys
that are only cleared are left out; its alarms have a state of their own.

## Main definitions

* `DeviceState` — the receiver, the decoder, the stores and the flags
* `appControlStartLearnIR`, `appControlEraseIR` — the commands of the app
* `appControlHandle`, `processMain` — the main loop
* `sysTimer100msCall` — the timer
* `deviceStep` — one of them, or a sample of the receiver, at a time
-/

set_option autoImplicit false

namespace IrRemote

/-- The notifications that a learn session sends to the app. -/
inductive Noti where
  | learnIRSuccess
  | learnIRFail
  deriving DecidableEq, Repr

/-- `TIME_5S_BY_100MS`. -/
def time5sBy100ms : ℕ := 50
/-- `TIME_2S_BY_100MS`. -/
def time2sBy100ms : ℕ := 20
/-- `KEY_SWITCH_1`. -/
def keySwitch1 : BitVec 32 := 1

/-- The globals through which the three contexts work together, and the notifications that were
sent. -/
structure DeviceState where
  scan : ScanState
  decode : DecodeState
  stores : StoreState
  appStartLearnIRFlag : Bool
  appLearnIRCountStartFlag : Bool
  appLearnIRCountTimeoutFlag : Bool
  irScanDelayFlag : Bool
  detectIRSignalDoneFlag : Bool
  appStartEmitIRFlag : Bool
  appStartEraseIRFlag : Bool
  key3SecClickFlag : Bool
  ulKeyInValue : BitVec 32
  ubDelayCount : BitVec 8
  uwBufferLearnID : BitVec 16
  uwBufferEraseID : BitVec 16
  /-- The address of `irparams`, which the linker has chosen. -/
  irparamsAddress : BitVec 32
  notis : List Noti

/-- The device behind the initialisation of the receiver and of the stores. -/
def deviceAtBoot (irparamsAddress : BitVec 32) (stores : StoreState) : DeviceState where
  scan := { ScanState.zero with irparams := irRemoteResume ScanState.zero.irparams }
  decode := .zero
  stores := stores
  appStartLearnIRFlag := false
  appLearnIRCountStartFlag := false
  appLearnIRCountTimeoutFlag := false
  irScanDelayFlag := false
  detectIRSignalDoneFlag := false
  appStartEmitIRFlag := false
  appStartEraseIRFlag := false
  key3SecClickFlag := false
  ulKeyInValue := 0
  ubDelayCount := 0
  uwBufferLearnID := 0
  uwBufferEraseID := 0
  irparamsAddress := irparamsAddress
  notis := []

/-- The protocol of the frame that was decoded last. -/
def DeviceState.protocol (s : DeviceState) : DecodeType := s.decode.decodedIRData.protocol

/-! ## The commands -/

/-- `App_ControlStartLearnIR`. -/
def appControlStartLearnIR (uwIrID : BitVec 16) (s : DeviceState) : DeviceState :=
  { s with
    appStartLearnIRFlag := true
    appLearnIRCountStartFlag := true
    appLearnIRCountTimeoutFlag := false
    scan := { midIrRemoteStartScan s.scan with ubScanIRCount := 0 }
    uwBufferLearnID := uwIrID }

/-- `App_ControlEraseIR`. -/
def appControlEraseIR (uwIrID : BitVec 16) (s : DeviceState) : DeviceState :=
  { s with appStartEraseIRFlag := true, uwBufferEraseID := uwIrID }

/-! ## The main loop -/

/-- `lib_ble_noti`. -/
def libBleNoti (noti : Noti) (s : DeviceState) : DeviceState :=
  { s with notis := s.notis ++ [noti] }

/-- `Mid_InsertNewIRCode(&decodedIRData, uwBufferLearnID)`. -/
def DeviceState.insertNewIRCode (s : DeviceState) : Bool × StoreState :=
  midInsertNewIRCode (s.decode.decodedIRData.image s.irparamsAddress) s.uwBufferLearnID s.stores

/-- The insertion, and its notification. -/
def insertDecodedCode (s : DeviceState) : DeviceState :=
  let stored := { s with stores := s.insertNewIRCode.2 }
  if s.insertNewIRCode.1 then libBleNoti .learnIRSuccess stored else stored

/-- The current process is stopped. -/
def stopProcess (s : DeviceState) : DeviceState :=
  { s with
    detectIRSignalDoneFlag := false
    appStartLearnIRFlag := false
    appLearnIRCountStartFlag := false }

/-- `App_ControlHandle`, its first branch: a frame that was detected in a session. -/
def handleLearn (s : DeviceState) : DeviceState :=
  if s.appStartLearnIRFlag then
    if s.detectIRSignalDoneFlag then
      if s.protocol ≠ .unknown then insertDecodedCode (stopProcess s)
      else libBleNoti .learnIRFail (stopProcess s)
    else s
  else s

/-- Its second branch. -/
def handleEmit (s : DeviceState) : DeviceState :=
  if s.appStartEmitIRFlag then { s with appStartEmitIRFlag := false } else s

/-- Its third branch: the code that the app has asked to erase. -/
def handleErase (s : DeviceState) : DeviceState :=
  if s.appStartEraseIRFlag then
    { s with
      stores := (midRemoveIRCode s.uwBufferEraseID s.stores).2
      appStartEraseIRFlag := false }
  else s

/-- Its last branch, and the flags of the keys. -/
def handleKey (s : DeviceState) : DeviceState :=
  let stores :=
    if s.key3SecClickFlag ∧ s.ulKeyInValue = keySwitch1 then appControlEraseAll s.stores
    else s.stores
  { s with stores, key3SecClickFlag := false }

/-- `App_ControlHandle`. -/
def appControlHandle (s : DeviceState) : DeviceState :=
  handleKey (handleErase (handleEmit (handleLearn s)))

/-- The rest of `ProcessMain`: a frame that has ended is decoded, unless the last one was decoded
less than two seconds ago. -/
def detectFrame (s : DeviceState) : Option DeviceState :=
  if s.irScanDelayFlag then some s
  else
    (midIrRemoteDecode s.scan.irparams s.decode).map fun r =>
      if r.1 then
        let scan := midIrRemoteStopScan s.scan
        { s with
          decode := r.2
          scan := { scan with irparams := irRemoteResume scan.irparams }
          irScanDelayFlag := true
          detectIRSignalDoneFlag := true }
      else { s with decode := r.2 }

/-- `ProcessMain`. -/
def processMain (s : DeviceState) : Option DeviceState := detectFrame (appControlHandle s)

/-! ## The timer -/

/-- The scan is stopped behind five seconds. -/
def stopCount (s : DeviceState) : DeviceState :=
  { s with
    scan := midIrRemoteStopScan { s.scan with ubScanIRCount := 0 }
    appLearnIRCountStartFlag := false
    appLearnIRCountTimeoutFlag := false }

/-- `SysTimer100msCall`, its first branch: the time of a session. -/
def countLearnTime (s : DeviceState) : DeviceState :=
  if s.appStartLearnIRFlag ∧ s.appLearnIRCountStartFlag then
    let ubScanIRCount := (s.scan.ubScanIRCount + 1) % 256
    if time5sBy100ms ≤ ubScanIRCount then
      if s.protocol = .unknown then libBleNoti .learnIRFail (stopCount s) else stopCount s
    else { s with scan.ubScanIRCount := ubScanIRCount }
  else s

/-- Its second branch: behind a decoded frame the receiver waits for two seconds. -/
def countDelayTime (s : DeviceState) : DeviceState :=
  if s.irScanDelayFlag then
    if s.appStartLearnIRFlag then
      let ubDelayCount := s.ubDelayCount + 1
      if time2sBy100ms ≤ ubDelayCount.toNat then
        { s with
          ubDelayCount := 0, irScanDelayFlag := false, scan := midIrRemoteStartScan s.scan }
      else { s with ubDelayCount := ubDelayCount }
    else { s with ubDelayCount := 0, irScanDelayFlag := false }
  else s

/-- `SysTimer100msCall`. -/
def sysTimer100msCall (s : DeviceState) : DeviceState := countDelayTime (countLearnTime s)

/-! ## What the branches do -/

/-- A detected frame is taken up by the next `App_ControlHandle`. -/
def DeviceState.Detected (s : DeviceState) : Prop :=
  s.appStartLearnIRFlag = true ∧ s.detectIRSignalDoneFlag = true

/-- The next `SysTimer100msCall` ends the five seconds of a session. -/
def DeviceState.TimesOut (s : DeviceState) : Prop :=
  (s.appStartLearnIRFlag = true ∧ s.appLearnIRCountStartFlag = true) ∧
    time5sBy100ms ≤ (s.scan.ubScanIRCount + 1) % 256

/-- The next `SysTimer100msCall` starts the receiver again. -/
def DeviceState.Restarts (s : DeviceState) : Prop :=
  s.irScanDelayFlag = true ∧ s.appStartLearnIRFlag = true ∧
    time2sBy100ms ≤ (s.ubDelayCount + 1).toNat

instance (s : DeviceState) : Decidable s.Detected := inferInstanceAs (Decidable (_ ∧ _))

instance (s : DeviceState) : Decidable s.TimesOut := inferInstanceAs (Decidable (_ ∧ _))

instance (s : DeviceState) : Decidable s.Restarts := inferInstanceAs (Decidable (_ ∧ _))

section Branches

variable {s t : DeviceState}

/-- A code is stored and answered where a slot is free. -/
theorem insertDecodedCode_of_free (h : freeCodeSlot s.stores.tIRDataCommom ≠ none) :
    s.insertNewIRCode.1 = true ∧ insertDecodedCode s =
      libBleNoti .learnIRSuccess { s with stores := s.insertNewIRCode.2 } := by
  obtain ⟨i, hslot⟩ := Option.ne_none_iff_exists'.mp h
  have hstored : s.insertNewIRCode.1 = true := by
    rw [DeviceState.insertNewIRCode, midInsertNewIRCode_of_free hslot]
  exact ⟨hstored, if_pos hstored⟩

theorem insertDecodedCode_of_full (h : freeCodeSlot s.stores.tIRDataCommom = none) :
    s.insertNewIRCode.1 = false ∧ insertDecodedCode s = s := by
  have hfull : s.insertNewIRCode = (false, s.stores) := midInsertNewIRCode_of_full h
  rw [insertDecodedCode, hfull]
  exact ⟨rfl, rfl⟩

/-- An insertion changes the stores and the notifications. -/
theorem exists_insertDecodedCode (s : DeviceState) :
    ∃ notis, insertDecodedCode s = { s with stores := s.insertNewIRCode.2, notis := notis } := by
  rw [insertDecodedCode]
  split_ifs
  · exact ⟨s.notis ++ [.learnIRSuccess], rfl⟩
  · exact ⟨s.notis, rfl⟩

theorem handleLearn_of_not_detected (h : ¬s.Detected) : handleLearn s = s := by
  rw [handleLearn]
  split_ifs with hstart hdetect
  · exact absurd ⟨hstart, hdetect⟩ h
  · exact absurd ⟨hstart, hdetect⟩ h
  · rfl
  · rfl

theorem handleLearn_of_detected (h : s.Detected) :
    handleLearn s = if s.protocol ≠ .unknown then insertDecodedCode (stopProcess s)
      else libBleNoti .learnIRFail (stopProcess s) := by
  rw [handleLearn, if_pos h.1, if_pos h.2]

/-- The other branches of `App_ControlHandle` clear their flags and change the stores. -/
theorem exists_handleKey_handleErase_handleEmit (s : DeviceState) :
    ∃ stores, handleKey (handleErase (handleEmit s)) = { s with
      stores := stores, appStartEmitIRFlag := false, appStartEraseIRFlag := false
      key3SecClickFlag := false } := by
  have hemit : handleEmit s = { s with appStartEmitIRFlag := false } := by
    rw [handleEmit]
    split_ifs with hflag
    · rfl
    · rw [← Bool.eq_false_of_not_eq_true hflag]
  have herase (s : DeviceState) : ∃ stores,
      handleErase s = { s with stores := stores, appStartEraseIRFlag := false } := by
    rw [handleErase]
    split_ifs with hflag
    · exact ⟨_, rfl⟩
    · exact ⟨s.stores, by rw [← Bool.eq_false_of_not_eq_true hflag]⟩
  obtain ⟨stores, hstores⟩ := herase { s with appStartEmitIRFlag := false }
  rw [hemit, hstores]
  exact ⟨_, rfl⟩

/-- `ProcessMain` behind `App_ControlHandle` changes the decoder, the receiver and two flags. -/
theorem exists_detectFrame (h : detectFrame s = some t) :
    ∃ decode scan delay detect, t = { s with
      decode := decode, scan := scan, irScanDelayFlag := delay
      detectIRSignalDoneFlag := detect } := by
  rw [detectFrame] at h
  split_ifs at h
  · obtain rfl := Option.some.inj h
    exact ⟨s.decode, s.scan, s.irScanDelayFlag, s.detectIRSignalDoneFlag, rfl⟩
  · obtain ⟨r, -, rfl⟩ := Option.map_eq_some_iff.mp h
    split_ifs
    · exact ⟨_, _, _, _, rfl⟩
    · exact ⟨r.2, s.scan, s.irScanDelayFlag, s.detectIRSignalDoneFlag, rfl⟩

theorem countLearnTime_of_timesOut (h : s.TimesOut) :
    countLearnTime s =
      if s.protocol = .unknown then libBleNoti .learnIRFail (stopCount s) else stopCount s := by
  rw [countLearnTime, if_pos h.1]
  exact if_pos h.2

/-- Before the five seconds are over only the time is counted. -/
theorem exists_countLearnTime_of_not_timesOut (h : ¬s.TimesOut) :
    ∃ n, countLearnTime s = { s with scan.ubScanIRCount := n } := by
  rw [countLearnTime]
  by_cases hcount : s.appStartLearnIRFlag ∧ s.appLearnIRCountStartFlag
  · refine ⟨(s.scan.ubScanIRCount + 1) % 256, ?_⟩
    rw [if_pos hcount]
    exact if_neg fun htime => h ⟨hcount, htime⟩
  · exact ⟨s.scan.ubScanIRCount, if_neg hcount⟩

theorem countDelayTime_of_restarts (h : s.Restarts) :
    countDelayTime s = { s with
      ubDelayCount := 0, irScanDelayFlag := false, scan := midIrRemoteStartScan s.scan } := by
  rw [countDelayTime, if_pos h.1, if_pos h.2.1]
  exact if_pos h.2.2

/-- Otherwise only the delay is counted, or it is given up. -/
theorem exists_countDelayTime_of_not_restarts (h : ¬s.Restarts) :
    ∃ n delay, countDelayTime s = { s with ubDelayCount := n, irScanDelayFlag := delay } := by
  rw [countDelayTime]
  by_cases hdelay : s.irScanDelayFlag
  · rw [if_pos hdelay]
    by_cases hstart : s.appStartLearnIRFlag
    · refine ⟨s.ubDelayCount + 1, s.irScanDelayFlag, ?_⟩
      rw [if_pos hstart]
      exact if_neg fun htime => h ⟨hdelay, hstart, htime⟩
    · exact ⟨0, false, if_neg hstart⟩
  · exact ⟨s.ubDelayCount, s.irScanDelayFlag, if_neg hdelay⟩

/-- The end of the five seconds stops the receiver and the count. -/
theorem countLearnTime_frame (s : DeviceState) :
    ((countLearnTime s).Restarts ↔ s.Restarts) ∧
      (countLearnTime s).scan.irparams = s.scan.irparams ∧
      (countLearnTime s).appStartLearnIRFlag = s.appStartLearnIRFlag ∧
      ((countLearnTime s).appLearnIRCountStartFlag = true ↔
        s.appLearnIRCountStartFlag = true ∧ ¬s.TimesOut) ∧
      ((countLearnTime s).scan.timerLedEnabled = true ↔
        s.scan.timerLedEnabled = true ∧ ¬s.TimesOut) := by
  by_cases htime : s.TimesOut
  · rw [countLearnTime_of_timesOut htime]
    split_ifs <;>
      simp [libBleNoti, stopCount, midIrRemoteStopScan, htime, DeviceState.Restarts]
  · obtain ⟨n, hn⟩ := exists_countLearnTime_of_not_timesOut htime
    rw [hn]
    simp [htime, DeviceState.Restarts]

/-- The end of the two seconds starts the receiver. -/
theorem countDelayTime_frame (s : DeviceState) :
    (countDelayTime s).notis = s.notis ∧
      (countDelayTime s).appStartLearnIRFlag = s.appStartLearnIRFlag ∧
      (countDelayTime s).appLearnIRCountStartFlag = s.appLearnIRCountStartFlag ∧
      ((countDelayTime s).scan.timerLedEnabled = true ↔
        s.scan.timerLedEnabled = true ∨ s.Restarts) := by
  by_cases hrestart : s.Restarts
  · rw [countDelayTime_of_restarts hrestart]
    simp [midIrRemoteStartScan, hrestart]
  · obtain ⟨n, delay, hdelay⟩ := exists_countDelayTime_of_not_restarts hrestart
    rw [hdelay]
    simp [hrestart]

/-- What the timer leaves alone: it changes the counters, three flags and the notifications, and of
the receiver record the running tick. -/
structure TimerFrame (s t : DeviceState) : Prop where
  decode : t.decode = s.decode
  stores : t.stores = s.stores
  startLearn : t.appStartLearnIRFlag = s.appStartLearnIRFlag
  detect : t.detectIRSignalDoneFlag = s.detectIRSignalDoneFlag
  erase : t.appStartEraseIRFlag = s.appStartEraseIRFlag
  key : t.key3SecClickFlag = s.key3SecClickFlag
  learnID : t.uwBufferLearnID = s.uwBufferLearnID
  eraseID : t.uwBufferEraseID = s.uwBufferEraseID
  irparams : ∃ n, t.scan.irparams = { s.scan.irparams with tickCounterForISR := n }

theorem timerFrame_countLearnTime (s : DeviceState) : TimerFrame s (countLearnTime s) := by
  by_cases htime : s.TimesOut
  · rw [countLearnTime_of_timesOut htime]
    split_ifs <;> exact ⟨rfl, rfl, rfl, rfl, rfl, rfl, rfl, rfl, _, rfl⟩
  · obtain ⟨n, hn⟩ := exists_countLearnTime_of_not_timesOut htime
    rw [hn]
    exact ⟨rfl, rfl, rfl, rfl, rfl, rfl, rfl, rfl, _, rfl⟩

theorem timerFrame_countDelayTime (s : DeviceState) : TimerFrame s (countDelayTime s) := by
  by_cases hrestart : s.Restarts
  · rw [countDelayTime_of_restarts hrestart]
    exact ⟨rfl, rfl, rfl, rfl, rfl, rfl, rfl, rfl, 0, rfl⟩
  · obtain ⟨n, delay, hdelay⟩ := exists_countDelayTime_of_not_restarts hrestart
    rw [hdelay]
    exact ⟨rfl, rfl, rfl, rfl, rfl, rfl, rfl, rfl, _, rfl⟩

theorem timerFrame_sysTimer100msCall (s : DeviceState) : TimerFrame s (sysTimer100msCall s) := by
  obtain ⟨n, hn⟩ := (timerFrame_countLearnTime s).irparams
  obtain ⟨m, hm⟩ := (timerFrame_countDelayTime (countLearnTime s)).irparams
  have hlearn := timerFrame_countLearnTime s
  have hdelay := timerFrame_countDelayTime (countLearnTime s)
  exact {
    decode := hdelay.decode.trans hlearn.decode
    stores := hdelay.stores.trans hlearn.stores
    startLearn := hdelay.startLearn.trans hlearn.startLearn
    detect := hdelay.detect.trans hlearn.detect
    erase := hdelay.erase.trans hlearn.erase
    key := hdelay.key.trans hlearn.key
    learnID := hdelay.learnID.trans hlearn.learnID
    eraseID := hdelay.eraseID.trans hlearn.eraseID
    irparams := ⟨m, by rw [sysTimer100msCall, hm, hn]⟩ }

end Branches

/-! ## Runs -/

/-- A sample of the receiver. The interrupt is only raised while its timer is enabled. -/
def timerSample (eventType : NrfTimerEvent) (tIRInputLevel : ℕ) (s : DeviceState) :
    Option DeviceState :=
  if s.scan.timerLedEnabled then
    (timerLedEventHandler eventType tIRInputLevel s.scan.irparams).map fun irparams =>
      { s with scan.irparams := irparams }
  else some s

/-- What may happen to the device. -/
inductive DeviceEvent where
  | startLearnIR (uwIrID : BitVec 16)
  | eraseIR (uwIrID : BitVec 16)
  | sample (eventType : NrfTimerEvent) (tIRInputLevel : ℕ)
  | processMain
  | sysTimer100ms
  | startScan
  | stopScan
  | resume
  deriving DecidableEq, Repr

/-- One event. It has no result where an interrupt or a decoder leaves the buffer. -/
def deviceStep (a : DeviceEvent) (s : DeviceState) : Option DeviceState :=
  match a with
  | .startLearnIR uwIrID => some (appControlStartLearnIR uwIrID s)
  | .eraseIR uwIrID => some (appControlEraseIR uwIrID s)
  | .sample eventType tIRInputLevel => timerSample eventType tIRInputLevel s
  | .processMain => processMain s
  | .sysTimer100ms => some (sysTimer100msCall s)
  | .startScan => some { s with scan := midIrRemoteStartScan s.scan }
  | .stopScan => some { s with scan := midIrRemoteStopScan s.scan }
  | .resume => some { s with scan.irparams := irRemoteResume s.scan.irparams }

/-- A sample changes the receiver record only, by a call of the interrupt handler. -/
theorem timerSample_eq_some {eventType : NrfTimerEvent} {tIRInputLevel : ℕ} {s t : DeviceState}
    (h : timerSample eventType tIRInputLevel s = some t) :
    ∃ p, t = { s with scan.irparams := p } ∧ (p = s.scan.irparams ∨
      timerLedEventHandler eventType tIRInputLevel s.scan.irparams = some p) := by
  rw [timerSample] at h
  split_ifs at h
  · obtain ⟨p, hp, rfl⟩ := Option.map_eq_some_iff.mp h
    exact ⟨p, rfl, .inr hp⟩
  · obtain rfl := Option.some.inj h
    exact ⟨s.scan.irparams, rfl, .inl rfl⟩

/-- The levels of the samples of a frame, of which the lengths of the marks and of the spaces
between them are given in ticks. -/
def frameLevels (ticks : List ℕ) : List ℕ :=
  List.replicate 101 1 ++ (ticks.zipIdx.flatMap fun x => List.replicate x.1 (x.2 % 2)) ++
    List.replicate 102 1

end IrRemote
